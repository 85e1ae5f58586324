import Ps2Unpacker.Properties.Verdicts
import Ps2Unpacker.Semantics.ByteStore

/-!
# Termination

Only a taken branch makes the interpreter call itself, for the instruction four bytes on, and it
reads that instruction before it does anything else. So the nested calls walk through memory in one
direction and end at the end of a window at the latest, whatever memory is filled with. What the
innermost call executes is the last instruction of the delay chain, and the others look up the tag
of the chain's final target; the call returns or exits unless C leaves one of these undefined.

* `countP_fetches_le`: how many nested calls fetch.
* `execI_halted_iff`: when a call with levels enough for the nested ones returns or exits.
* `execution_terminates_iff`: the recursion, and its end.
-/

namespace Ps2Unpacker

open CProg Lanes

/-! ### How many calls fetch -/

section Nested

variable {report : U32 → M Unit} {s : Machine}

/-- What is fetched lies in memory. -/
theorem foldAddr_of_fetches (h : fetches report s = true) :
    ∃ p, foldAddr s.cpu.pc = some p := by
  obtain ⟨s₀, hfetch⟩ := fetches_iff.mp h
  have hword := (fetch_ensures report hfetch).word
  have hfirst := loadFrom_accepted 4 hword 0 (Nat.le_refl 0) (by decide)
  rw [BitVec.add_zero] at hfirst
  exact Option.isSome_iff_exists.mp hfirst

/-- A call with a slot fetches. -/
theorem fetches_of_nestedCall {t : Machine} (h : nestedCall report s = some t) :
    fetches report s = true := by
  obtain ⟨s₀, o, hfetch, -, -⟩ := nestedCall_eq_some.mp h
  exact fetches_iff.mpr ⟨s₀, hfetch⟩

/-- Four bytes on in the same window. -/
theorem foldAddr_add_four {pc : U32} {p q : Fin MEMSIZE} (hp : foldAddr pc = some p)
    (hq : foldAddr (pc + 4) = some q) : (q : Nat) = p + 4 := by
  have hsize := MEMSIZE_eq
  -- The two windows are further apart than four bytes.
  have h₀ := foldAddr_eq_some_iff.mp hp
  have h₁ := foldAddr_eq_some_iff.mp hq
  rw [BitVec.toNat_add, show (4 : U32).toNat = 4 from rfl] at h₁
  omega

/-- **How many nested calls fetch**: no more than there are words from the program counter to the
end of memory. -/
theorem countP_fetches_le {ts : List Machine} (h : Calls (nestedCall report) s ts) :
    ∀ {p : Fin MEMSIZE}, foldAddr s.cpu.pc = some p →
      ts.countP (fetches report) ≤ (MEMSIZE - p) / 4 := by
  induction h with
  | leaf stop => exact fun _ => Nat.zero_le _
  | @call s t ts step rest ih =>
    intro p hp
    by_cases ht : fetches report t = true
    · -- It fetches one word on.
      obtain ⟨q, hq⟩ := foldAddr_of_fetches ht
      have hrest := ih hq
      rw [nestedCall_pc step] at hq
      have hword := foldAddr_add_four hp hq
      have hlt := q.isLt
      rw [List.countP_cons_of_pos ht]
      omega
    · -- It does not fetch, so no call is nested in it.
      cases rest with
      | leaf stop =>
        rw [List.countP_cons_of_neg ht]
        exact Nat.zero_le _
      | call step' _ => exact absurd (fetches_of_nestedCall step') ht

/-- No call is nested in one that cannot fetch. -/
theorem calls_of_fold_none {ts : List Machine} (h : Calls (nestedCall report) s ts)
    (hpc : foldAddr s.cpu.pc = none) : ts = [] := by
  cases h with
  | leaf stop => rfl
  | call step rest =>
    obtain ⟨p, hp⟩ := foldAddr_of_fetches (fetches_of_nestedCall step)
    rw [hpc] at hp
    cases hp

/-- **More levels** than the nested calls need make no difference. -/
theorem execI_stable (host : Host) {ts : List Machine} (h : Calls (nestedCall report) s ts)
    {m n : Nat} (hm : ts.length < m) (hn : ts.length < n) :
    execI host report m s = execI host report n s := by
  refine h.stable (fun m n s hs => execI_of_leaf hs m n) (fun m n s t ht hmn => ?_) m n hm hn
  rw [execI_of_nested ht, execI_of_nested ht, Prog.bind_apply, Prog.bind_apply, hmn]

end Nested

/-! ### The end of the chain -/

/-- If the words of the delay chain at the program counter can all be fetched, its last instruction
is not undefined, and it ends the program or the final target of the chain has a tag. -/
def EndsDefined (s : Machine) : Prop :=
  ∀ branches last, DelayChain s.memory s.cpu branches last →
    ¬last.Undefined ∧ (last.Faults ∨ ∀ T, finalTarget branches = some T → T.toNat < MEMSIZE)

/-- Memory determines the chain. -/
theorem DelayChain.endsDefined_iff {s : Machine} {branches : List CpuRegisters}
    {last : CpuRegisters} (h : DelayChain s.memory s.cpu branches last) :
    EndsDefined s ↔ ¬last.Undefined ∧ (last.Faults ∨ ¬Escapes branches) := by
  rw [not_escapes_iff]
  constructor
  · exact fun hs => hs branches last h
  · intro hlast branches' last' hchain
    obtain ⟨rfl, rfl⟩ := h.unique hchain
    exact hlast

/-- Where every report returns or exits, the fatal path exits. -/
theorem reports_of_halts {report : U32 → M Unit} (hreport : ∀ pc, (report pc).Halts) :
    Reports report fun _ => True where
  exits := by
    intro s _ msg
    -- The report is the last thing that runs before the exit.
    have hhalted := hreport (s.cpu.pc - 4) { s with log := .printed msg :: s.log }
    rw [fatal_apply, Prog.bind_apply]
    cases hrun : report (s.cpu.pc - 4) { s with log := .printed msg :: s.log } with
    | ok u s' => exact ⟨-1, s', rfl⟩
    | exit status s' => exact ⟨status, s', rfl⟩
    | undefined | outOfFuel =>
      rw [hrun] at hhalted
      cases hhalted
  endless h := absurd trivial h

/-! ### The call -/

/-- The calls nested in a call from `s`: where they fetch, and how many of them can. -/
structure NestedCalls (report : U32 → M Unit) (s : Machine) (ts : List Machine) : Prop where
  calls : Calls (nestedCall report) s ts
  inside : ∀ p, foldAddr s.cpu.pc = some p → ts.countP (fetches report) ≤ (MEMSIZE - p) / 4
  outside : foldAddr s.cpu.pc = none → ts.countP (fetches report) = 0

/-- The call from `s` ends. -/
structure Terminates (host : Host) (report : U32 → M Unit) (s : Machine) : Prop where
  /-- A call is the one nested in it, one level down, and then the jump; a call without one does not
  look at the levels left. -/
  recursion : ∀ s n, execI host report (n + 1) s = match nestedCall report s with
    | some t => (execI host report n >>= fun _ => Handler.finishBranch) t
    | none => execI host report 1 s
  wellFounded : WellFounded fun t s => nestedCall report s = some t
  address : ∀ s t, nestedCall report s = some t → t.cpu.pc = s.cpu.pc + 4
  nested : ∃ ts, NestedCalls report s ts
  /-- With levels enough the call returns or exits, always in the same way. -/
  halts : ∃ levels out, out.Halted ∧ ∀ n, levels ≤ n → execI host report n s = out

section Termination

variable {host : Host} {report : U32 → M Unit} {s : Machine}

/-- What is known of every call. -/
theorem nestedCalls_of_calls {ts : List Machine} (h : Calls (nestedCall report) s ts) :
    NestedCalls report s ts where
  calls := h
  inside _ hp := countP_fetches_le h hp
  outside hpc := by
    rw [calls_of_fold_none h hpc]
    rfl

/-- **A call** with levels enough for the nested ones returns or exits if and only if its chain ends
in something defined. -/
theorem execI_halted_iff (hreport : ∀ pc, (report pc).Halts) {ts : List Machine}
    (hts : Calls (nestedCall report) s ts) {n : Nat} (hn : ts.length < n) :
    (execI host report n s).Halted ↔ EndsDefined s := by
  have hreports := reports_of_halts hreport
  by_cases hsome : ∃ branches last, DelayChain s.memory s.cpu branches last
  · obtain ⟨branches, last, hchain⟩ := hsome
    -- With a level for each branch of the chain it has the verdict of the chain.
    have hsame := execI_stable host hts hn
      (Nat.lt_of_lt_of_le hn (Nat.le_add_right n branches.length))
    have hverdict := @execI_verdict host _ _ hreports _ _ _ _ hchain s (n + branches.length) rfl rfl
      (by omega)
    rw [hsame, hchain.endsDefined_iff]
    exact hverdict.halted_iff fun _ => trivial
  · -- Without a chain it exits behind the report about the word that cannot be read.
    push Not at hsome
    obtain ⟨msg, t, hrun, -⟩ := @execI_of_no_chain host report s ts hts hsome n hn
    obtain ⟨status, s', hexit⟩ := hreports.exits trivial msg
    rw [hrun, hexit]
    exact iff_of_true trivial fun branches last hchain => absurd hchain (hsome branches last)

/-- **Termination.** Where a report returns or exits, a call of the interpreter returns or exits if
and only if the last instruction of its delay chain is not undefined, and either ends the program or
the final target of the chain lies inside the tags; a chain that runs out of the windows has no last
instruction. The recursion is well-founded in any case: a nested call fetches four bytes on, and
those that can are no more than the words from there to the end of memory. -/
theorem execution_terminates_iff (host : Host) {report : U32 → M Unit}
    (hreport : ∀ pc, (report pc).Halts) (s : Machine) :
    Terminates host report s ↔ EndsDefined s := by
  obtain ⟨ts, hts⟩ := exists_calls ((nestedCall_wf report).apply s)
  constructor
  · -- The outcome at large depths is that at any one of them.
    rintro ⟨-, -, -, -, levels, out, hout, hall⟩
    rw [← @execI_halted_iff host _ _ hreport _ hts (levels + ts.length + 1) (by omega),
      hall _ (by omega)]
    exact hout
  · -- The depth that is needed is one more than the number of slots.
    intro hs
    refine ⟨fun s n => ?_, nestedCall_wf report, fun s t => nestedCall_pc,
      ⟨ts, nestedCalls_of_calls hts⟩, ts.length + 1, _,
      (execI_halted_iff hreport hts (Nat.lt_succ_self _)).mpr hs,
      fun n hn => execI_stable host hts hn (Nat.lt_succ_self _)⟩
    split
    · -- A call with a delay slot is the call for the slot.
      rename_i t ht
      exact execI_of_nested ht
    · -- Any other call does not go deeper.
      rename_i ht
      exact execI_of_leaf ht n 0

/-- `j 0x200` with `nop` in its delay slot. -/
theorem execution_terminates_j :
    Terminates .flat (fun _ => Prog.exit (-1))
      (Machine.start (program 0x100 [0x08000080, 0]) 0x100 false) := by
  refine (execution_terminates_iff .flat (fun _ => Prog.halts_exit (-1)) _).mpr ?_
  have htake : ((CpuRegisters.zeroed 0x100).dispatch 0x08000080).takenBranch = some .J := by decide
  have hchain : DelayChain (program 0x100 [0x08000080, 0]) (CpuRegisters.zeroed 0x100)
      [(CpuRegisters.zeroed 0x100).dispatch 0x08000080]
      ((BranchOp.J.slot ((CpuRegisters.zeroed 0x100).dispatch 0x08000080)).dispatch 0) :=
    .branch (by decide) htake (.last (by decide) (by decide))
  intro branches last hchain'
  obtain ⟨rfl, rfl⟩ := hchain'.unique hchain
  -- The word in the slot is no division, and the target is `0x200`.
  refine ⟨id, .inr fun T hT => ?_⟩
  rw [finalTarget_cons htake] at hT
  cases hT
  decide

/-- `DIV r2, r3` of the least word by minus one. -/
theorem not_execution_terminates :
    ¬∀ (host : Host) (report : U32 → M Unit), (∀ pc, (report pc).Halts) →
      ∀ s, Terminates host report s := by
  intro hall
  let s : Machine :=
    { Machine.start (program 0x100 [0x0043001a]) 0x100 false with
      cpu := { CpuRegisters.zeroed 0x100 with
        GPR := fun j => if j = 2 then 0x80000000 else 0xffffffff } }
  have hreport : ∀ pc : U32, (Prog.exit (-1) : M Unit).Halts := fun _ => Prog.halts_exit (-1)
  obtain ⟨-, -, -, -, levels, out, hout, hsame⟩ := hall .flat (fun _ => Prog.exit (-1)) hreport s
  rw [← hsame (levels + 1) (Nat.le_succ levels)] at hout
  -- The word is no branch, so the chain ends with it.
  have hchain : DelayChain s.memory s.cpu [] (s.cpu.dispatch 0x0043001a) :=
    .last (by decide) (by decide)
  have hverdict := @execI_verdict .flat _ _ (reports_of_halts hreport) _ _ _ _ hchain s (levels + 1)
    rfl rfl (Nat.succ_pos levels)
  have hdecode : decode (s.cpu.dispatch 0x0043001a).code = .register .DIV := by decide
  -- The division is out of range.
  refine ((hverdict.halted_iff fun _ => trivial).mp hout).1 ?_
  unfold CpuRegisters.Undefined
  rw [hdecode]
  intro hrange
  exact hrange _ (List.mem_singleton.mpr rfl) ⟨by decide, by decide⟩

end Termination

end Ps2Unpacker
