import Ps2Unpacker.Machine.Main
import Ps2Unpacker.Properties.Runs
import Ps2Unpacker.Semantics.Footprint

/-!
# Finding the entry point

`main` calls the interpreter until `bounce_pc` is set. It is set by the system call `ExecPS2`, and
by a branch to an address that is tagged as written. Zero stands for "not found". The lookup of the
tag takes the branch target as it is, though `memRead8` and `memWrite8` fold the copy window at
`0x08000000` onto memory; so a call that branches there does not return.

* `Exec.arrival`: what one call tags, and what it leaves in `bounce_pc`.
* `Run.written_iff`: in a run, a byte is tagged as written exactly if a store of the run hit it.
* `emulate_loop`: the loop of `main` takes the turns `LoopStep`.
* `detected_iff`: in every state the loop of `main` reaches, the next call detects the end of
  unpacking as documented exactly if neither a target that was stored to nor an argument of
  `ExecPS2` is zero.
* `not_detected_zero`: without the condition this fails.
-/

namespace Ps2Unpacker

open CProg

/-! ### The effect of one call -/

/-- The fetch writes nothing. -/
theorem Fetched.writes {s s₀ : Machine} (h : Fetched s s₀) : Writes [] s s₀ := by
  obtain ⟨new, hnew, hext⟩ := h.history
  intro m
  rw [hext.written m]
  -- The dispatch and the messages are no stores.
  have hnone : ¬∃ e ∈ Event.exec s₀.cpu :: new, e.hits m := by
    rintro ⟨e, he, hm⟩
    rcases List.mem_cons.mp he with rfl | he
    · exact hm
    · obtain ⟨msg, rfl⟩ := hnew e he
      exact hm
  rw [or_iff_left hnone, or_iff_left (by simp)]

/-- Neither does the jump. -/
theorem leaveSlot_writes (s : Machine) : Writes [] s s.leaveSlot := by
  unfold Machine.leaveSlot
  split <;> exact .of_tags rfl

/-- The lookup after a branch. -/
theorem leaveSlot_bouncePc (s : Machine) :
    s.leaveSlot.bouncePc =
      if hasWrite s (s.branchPC.setWidth 32) = some true then s.branchPC.setWidth 32
      else s.bouncePc := by
  unfold Machine.leaveSlot
  split <;> rfl

/-- Only the last instruction of a chain can be a system call. -/
theorem not_callsExecPS2_of_taken {r : CpuRegisters} {o : BranchOp} (h : r.takenBranch = some o) :
    ¬r.callsExecPS2 := by
  rintro ⟨hop, -⟩
  rw [takenBranch_of_ne (by rw [hop]; simp)] at h
  cases h

/-- What a call from `s` to `s'` that executes the chain `branches`, `last` tags, and what it leaves
in `bounce_pc`. -/
structure Arrival (s s' : Machine) (branches : List CpuRegisters) (last : CpuRegisters) : Prop where
  chain : DelayChain s.memory s.cpu branches last
  writes : Writes last.footprint s s'
  /-- All branches of the chain look up the final target, each after its own delay slot. -/
  bouncePc : s'.bouncePc = ((finalTarget branches).filter fun T => hasWrite s' T = some true).getD
      (if last.callsExecPS2 then UL 0 (last.GPR Handler.a0) else s.bouncePc)

/-- **One call.** Every call is an arrival. -/
theorem Exec.arrival {host : Host} {s s' : Machine} (h : Exec host s s') :
    ∃ branches last, Arrival s s' branches last := by
  -- On the call: the stores and the value are those of the instruction dispatched last, and the
  -- lookup is made at each level on the way out.
  induction h with
  | @straight s s₀ s' fetched hop run =>
    obtain ⟨report, execI, hrun⟩ := run
    refine ⟨[], s₀.cpu, fetched.chain_last (takenBranch_of_ne hop),
      fetched.writes.trans (Op.run_writes hop hrun), ?_⟩
    -- Of the instructions that are no branches only `ExecPS2` sets the value.
    rw [(Op.run_straight hop hrun).bouncePc, fetched.bouncePc]
    rfl
  | @skipped s s₀ o fetched hop skip =>
    have hexec : ¬s₀.cpu.callsExecPS2 := by
      rintro ⟨hsys, -⟩
      rw [hsys] at hop
      cases hop
    refine ⟨[], s₀.cpu, fetched.chain_last (takenBranch_of_skipped hop skip), ?_, ?_⟩
    · rw [footprint_of_ne (by rw [hop]; simp)]
      exact fetched.writes.nil_trans (.of_tags rfl)
    · rw [if_neg hexec, ← fetched.bouncePc]
      rfl
  | @jumped s s₀ s₁ o fetched hop take slot inside ih =>
    obtain ⟨branches, last, hslot⟩ := ih
    have htaken := takenBranch_of_taken hop take
    have htarget := finalTarget_cons htaken branches
    -- The lookup sees the target of the innermost branch, which the slot left behind.
    obtain ⟨branches', last', hcall⟩ := slot.call
    obtain ⟨rfl, rfl⟩ := hslot.chain.unique hcall.chain
    have hbranchPC := (hcall.finalTarget_of_slot htaken).1
    refine ⟨s₀.cpu :: branches, last, fetched.chain_branch htaken hslot.chain, ?_, ?_⟩
    · -- All stores of the call are those of the last instruction, in the innermost slot.
      have henter : Writes [] s₀ (s₀.enterSlot o) := .of_tags rfl
      have hall := ((fetched.writes.trans henter).trans hslot.writes).trans
        (leaveSlot_writes s₁)
      simpa using hall
    · have hlookup : ∀ T, hasWrite s₁.leaveSlot T = hasWrite s₁ T := by
        intro T
        unfold Machine.leaveSlot
        split <;> rfl
      have hbefore : (s₀.enterSlot o).bouncePc = s.bouncePc := fetched.bouncePc
      rw [leaveSlot_bouncePc s₁, hbranchPC, hslot.bouncePc, hbefore]
      -- The lookup succeeds here, whatever the slot has done.
      by_cases hw : hasWrite s₁ (s₁.branchPC.setWidth 32) = some true
      · simp [Option.filter, hlookup, hw]
      · -- No lookup of the chain succeeds: they are all for the same target.
        have hnone : (finalTarget branches).filter (fun T => hasWrite s₁ T = some true) = none := by
          cases hbranches : finalTarget branches with
          | none => rfl
          | some T =>
            have hsame : T = s₁.branchPC.setWidth 32 := by
              rw [htarget, hbranches] at hbranchPC
              exact Option.some.inj hbranchPC
            simp [Option.filter, hsame, hw]
        rw [hnone]
        simp [Option.filter, hlookup, hw]

/-! ### Runs of the loop -/

/-- One turn of the loop of `main`: `while (!bounce_pc) execI();`. -/
def LoopStep (host : Host) (s s' : Machine) : Prop := s.bouncePc = 0 ∧ Returns host s s'

/-- In a run, a byte is tagged as written exactly if a store of the run hit it. -/
theorem Run.written_iff {host : Host} {memory : Fin MEMSIZE → U8} {pc : U32} {trace : Bool}
    {s : Machine} (h : Run host (Machine.start memory pc trace) s) (m : Fin MEMSIZE) :
    s.Written m ↔ ∃ e ∈ s.log, e.hits m := by
  obtain ⟨new, hext⟩ := h.history
  -- The run starts with an empty history, and with no tag set.
  have hlog : s.log = new := by
    rw [hext.log]
    exact List.append_nil new
  have hstart : ¬(Machine.start memory pc trace).Written m := by
    change ¬(0 : U8) &&& 2 ≠ 0
    decide
  rw [hext.written m, hlog]
  simp [hstart]

/-- The loop of `main`, when it ends, has taken such turns up to a state with an entry point. -/
theorem emulate_loop {host : Host} {depth levels turns : Nat} :
    ∀ {s s' : Machine}, emulate host depth levels turns s = .ok () s' →
      Relation.ReflTransGen (LoopStep host) s s' ∧ s'.bouncePc ≠ 0 := by
  -- On the number of turns the loop is granted; it ends only with an entry point.
  induction turns with
  | zero =>
    intro s s' h
    cases h
  | succ turns ih =>
    intro s s' h
    unfold emulate at h
    rw [Prog.get_bind] at h
    by_cases hzero : s.bouncePc = 0
    · rw [if_pos hzero] at h
      obtain ⟨_, s₁, hcall, hrest⟩ := Prog.bind_eq_ok.mp h
      obtain ⟨hrun, hne⟩ := ih hrest
      exact ⟨.head ⟨hzero, depth, levels, hcall⟩ hrun, hne⟩
    · rw [if_neg hzero] at h
      obtain ⟨-, rfl⟩ := Prog.pure_eq_ok.mp h
      exact ⟨.refl, hzero⟩

/-- The turns of the loop are calls. -/
theorem LoopStep.run {host : Host} {s s' : Machine}
    (h : Relation.ReflTransGen (LoopStep host) s s') : Run host s s' :=
  Relation.ReflTransGen.mono (fun _ _ hstep => And.right hstep) s s' h

/-- The byte that `T` denotes was stored to by an earlier store of the run. -/
def StoredTo (s : Machine) (T : U32) : Prop :=
  ∃ m, foldAddr T = some m ∧ ∃ e ∈ s.log, e.hits m

/-- The end of unpacking is detected as documented by a call from a state with `bounce_pc = 0` to
`s'` that executes the chain `branches`, `last`. -/
structure Detected (s' : Machine) (branches : List CpuRegisters) (last : CpuRegisters) : Prop where
  nonzero_iff : s'.bouncePc ≠ 0 ↔ (∃ x ∈ branches ++ [last], x.callsExecPS2) ∨
    ∃ T, finalTarget branches = some T ∧ StoredTo s' T
  target : (¬∃ x ∈ branches ++ [last], x.callsExecPS2) →
    ∀ T, finalTarget branches = some T → StoredTo s' T → s'.bouncePc = T
  /-- The lookup of the tag finds one inside the array. -/
  lookup : ∀ T, finalTarget branches = some T → hasWrite s' T ≠ none

/-- When the lookup of `T` runs, its byte is tagged: it was so before the call, or the last
instruction of the chain stores to it. -/
def Tagged (s : Machine) (last : CpuRegisters) (T : U32) : Prop :=
  ∃ m, foldAddr T = some m ∧ (s.Written m ∨ last.Stores m)

/-- The condition on the state before a call under which the detection works. -/
structure Detectable (s : Machine) (branches : List CpuRegisters) (last : CpuRegisters) : Prop where
  /-- A target that is tagged is not zero. -/
  target : ∀ T, finalTarget branches = some T → Tagged s last T → T ≠ 0
  /-- The argument of `ExecPS2` is not zero, unless a branch to a tagged target overrides it. -/
  execPS2 : last.callsExecPS2 → (¬∃ T, finalTarget branches = some T ∧ Tagged s last T) →
    UL 0 (last.GPR Handler.a0) ≠ 0

/-- Only the last instruction of a chain can be the system call. -/
theorem callsExecPS2_iff {memory : Fin MEMSIZE → U8} {r last : CpuRegisters}
    {branches : List CpuRegisters} (h : DelayChain memory r branches last) :
    (∃ x ∈ branches ++ [last], x.callsExecPS2) ↔ last.callsExecPS2 := by
  constructor
  · rintro ⟨x, hx, hcall⟩
    rcases List.mem_append.mp hx with hx | hx
    · obtain ⟨o, ho⟩ := h.takenBranch hx
      exact absurd hcall (not_callsExecPS2_of_taken ho)
    · rwa [← List.mem_singleton.mp hx]
  · intro hcall
    exact ⟨last, by simp, hcall⟩

/-- The value of `bounce_pc` after a call whose branch stays in memory. -/
theorem Arrival.bouncePc_eq {s s' : Machine} {branches : List CpuRegisters} {last : CpuRegisters}
    (h : Arrival s s' branches last)
    (hlt : ∀ T, finalTarget branches = some T → T.toNat < MEMSIZE) :
    (∃ T, finalTarget branches = some T ∧ Tagged s last T ∧ s'.bouncePc = T) ∨
    (¬∃ T, finalTarget branches = some T ∧ Tagged s last T) ∧
      s'.bouncePc = if last.callsExecPS2 then UL 0 (last.GPR Handler.a0) else s.bouncePc := by
  have hvalue := h.bouncePc
  -- Without a taken branch nothing is looked up.
  cases hT : finalTarget branches with
  | none =>
    rw [hT] at hvalue
    exact .inr ⟨by simp, hvalue⟩
  | some T =>
    have hin := hlt T hT
    -- The tag at the lookup is the tag before the call, or set by the last instruction.
    have htagged : Tagged s last T ↔ hasWrite s' T = some true := by
      unfold Tagged
      rw [foldAddr_of_lt hin, hasWrite_of_lt s' hin]
      simp only [Option.some.injEq, exists_eq_left', decide_eq_true_eq]
      exact (h.writes ⟨T.toNat, hin⟩).symm
    rw [hT] at hvalue
    by_cases hw : hasWrite s' T = some true
    · -- The target is tagged, so the lookup sets the value to it,
      refine .inl ⟨T, rfl, htagged.mpr hw, ?_⟩
      simpa [Option.filter, hw] using hvalue
    · -- or it is not, and the value is that of the last instruction.
      refine .inr ⟨?_, by simpa [Option.filter, hw] using hvalue⟩
      rintro ⟨T', hT', htag⟩
      cases hT'
      exact hw (htagged.mp htag)

/-- **Unpacking-done detection.** In every state with `bounce_pc = 0` the loop of `main` reaches,
the next call executes its chain, and the end of unpacking is detected as documented exactly if the
chain is detectable. -/
theorem detected_iff {host : Host} {memory : Fin MEMSIZE → U8} {pc : U32} {trace : Bool}
    {s s' : Machine}
    (h : Relation.ReflTransGen (LoopStep host) (Machine.start memory pc trace) s)
    (hstep : LoopStep host s s') :
    ∃ branches last, DelayChain s.memory s.cpu branches last ∧ Executed s s' (branches ++ [last]) ∧
      (Detected s' branches last ↔ Detectable s branches last) := by
  obtain ⟨hzero, hret⟩ := hstep
  obtain ⟨branches, last, harrival⟩ := hret.exec.arrival
  obtain ⟨branches', last', hcall⟩ := hret.exec.call
  obtain ⟨rfl, rfl⟩ := harrival.chain.unique hcall.chain
  have hrun := LoopStep.run h
  -- The stores of the run are the tags before the call and the footprint of its last instruction.
  have hstored : ∀ T, StoredTo s' T ↔ Tagged s last T := by
    intro T
    refine exists_congr fun m => and_congr_right fun _ => ?_
    rw [← Run.written_iff (hrun.tail hret) m]
    exact harrival.writes m
  have hexec := callsExecPS2_iff harrival.chain
  -- The call returns, so its lookup stayed in memory.
  have hlookup : ∀ T, finalTarget branches = some T → hasWrite s' T ≠ none := by
    intro T hT
    rw [hasWrite_of_lt s' (hcall.inside T hT)]
    exact Option.some_ne_none _
  have hvalue := harrival.bouncePc_eq hcall.inside
  refine ⟨branches, last, harrival.chain, hcall.executed, ?_, ?_⟩
  · -- Detected, so each reason for detection gave a nonzero value.
    intro hdet
    refine ⟨fun T hT htag => ?_, fun hcalls hnone => ?_⟩
    · -- A tagged target gives its own address,
      have hne := hdet.nonzero_iff.mpr (.inr ⟨T, hT, (hstored T).mpr htag⟩)
      rcases hvalue with ⟨T', hT', -, hvalue⟩ | ⟨hnone, -⟩
      · cases hT.symm.trans hT'
        rwa [hvalue] at hne
      · exact absurd ⟨T, hT, htag⟩ hnone
    · -- and `ExecPS2` its argument, if no target is tagged.
      have hne := hdet.nonzero_iff.mpr (.inl (hexec.mpr hcalls))
      rcases hvalue with ⟨T, hT, htag, -⟩ | ⟨-, hvalue⟩
      · exact absurd ⟨T, hT, htag⟩ hnone
      · rwa [hvalue, if_pos hcalls] at hne
  · -- Conversely, the lookup finds exactly the stored targets.
    intro hcond
    rcases hvalue with ⟨T, hT, htag, hvalue⟩ | ⟨hnone, hvalue⟩
    · refine ⟨?_, fun _ T' hT' _ => ?_, hlookup⟩
      · rw [hvalue]
        exact ⟨fun _ => .inr ⟨T, hT, (hstored T).mpr htag⟩, fun _ => hcond.target T hT htag⟩
      · cases hT.symm.trans hT'
        exact hvalue
    · have hnostore : ¬∃ T, finalTarget branches = some T ∧ StoredTo s' T := by
        rintro ⟨T, hT, hst⟩
        exact hnone ⟨T, hT, (hstored T).mp hst⟩
      refine ⟨?_, fun _ T hT hst => absurd ⟨T, hT, hst⟩ hnostore, hlookup⟩
      rw [hvalue, hexec, or_iff_left hnostore]
      -- Without a tagged target only `ExecPS2` gives a value; before the call it was zero.
      by_cases hcalls : last.callsExecPS2
      · rw [if_pos hcalls]
        exact ⟨fun _ => hcalls, fun _ => hcond.execPS2 hcalls hnone⟩
      · rw [if_neg hcalls, hzero]
        exact ⟨fun hne => absurd rfl hne, fun hc => absurd hc hcalls⟩

/-- The program `j 0x200; sb r0, 0x200(r0)`: the delay slot stores to the target, and the jump is
detected. -/
theorem detected_iff_j : ∃ s' branches last,
    LoopStep .flat (Machine.start (program 0x100 [0x08000080, 0xa0000200]) 0x100 false) s' ∧
    s'.bouncePc = 0x200 ∧ finalTarget branches = some 0x200 ∧ Detected s' branches last := by
  have hstep : LoopStep .flat
      (Machine.start (program 0x100 [0x08000080, 0xa0000200]) 0x100 false) _ :=
    ⟨rfl, 0, 2, rfl⟩
  have hchain := @DelayChain.branch (program 0x100 [0x08000080, 0xa0000200])
    (CpuRegisters.zeroed 0x100) _ 0x08000080 .J [] rfl rfl
    (@DelayChain.last _ _ 0xa0000200 rfl rfl)
  obtain ⟨branches, last, hchain', -, hiff⟩ := detected_iff .refl hstep
  obtain ⟨rfl, rfl⟩ := hchain.unique hchain'
  refine ⟨_, _, _, hstep, by decide, rfl, hiff.mpr ⟨?_, ?_⟩⟩
  · -- The target is not zero, and neither instruction is a system call.
    rintro T ⟨⟩ -
    decide
  · intro hcalls
    exact absurd hcalls (by decide)

/-- Without the condition: `j 0; sb r0, 0(r0)` jumps to the byte at zero that it stored, and the
loop goes on. -/
theorem not_detected_zero :
    ¬∀ (host : Host) (memory : Fin MEMSIZE → U8) (pc : U32) (trace : Bool) (s s' : Machine),
      Relation.ReflTransGen (LoopStep host) (Machine.start memory pc trace) s →
      LoopStep host s s' →
      ∃ branches last, DelayChain s.memory s.cpu branches last ∧
        Executed s s' (branches ++ [last]) ∧ Detected s' branches last := by
  intro hall
  have hstep : LoopStep .flat
      (Machine.start (program 0x100 [0x08000000, 0xa0000000]) 0x100 false) _ :=
    ⟨rfl, 0, 2, rfl⟩
  have hchain := @DelayChain.branch (program 0x100 [0x08000000, 0xa0000000])
    (CpuRegisters.zeroed 0x100) _ 0x08000000 .J [] rfl rfl
    (@DelayChain.last _ _ 0xa0000000 rfl rfl)
  obtain ⟨branches, last, hchain', -, hdet⟩ := hall .flat _ 0x100 false _ _ .refl hstep
  obtain ⟨rfl, rfl⟩ := hchain.unique hchain'
  -- The history ends with the store and the message about the jump.
  have hnonzero := hdet.nonzero_iff.mpr
    (.inr ⟨0, rfl, ⟨0, by decide⟩, by decide, _, List.mem_cons_of_mem _ List.mem_cons_self, by
      unfold Event.hits
      decide⟩)
  exact hnonzero (by decide)

end Ps2Unpacker
