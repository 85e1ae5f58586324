import Ps2Unpacker.Properties.Division
import Ps2Unpacker.Properties.FatalPath
import Ps2Unpacker.Semantics.Faults
import Ps2Unpacker.Semantics.NestedCalls

/-!
# Verdicts

How a call of the interpreter ends is decided by its delay chain: by the registers its last
instruction is dispatched with, and by the final target of its branches. The last instruction may be
one C leaves undefined, or one that ends the program with a message; if it is neither, it returns,
and then the branches look up the tag of their target, for which there has to be one.

* `RegOp.run_eq_none_iff`: the instructions that are undefined.
* `not_faults_of_returns`: an instruction that returns has no reason to end the program.
* `Verdict`: how an instruction or a call ends, and why; the reasons exclude each other.
* `Op.run_verdict`, `execI_verdict`: an instruction, and a call.
* `execI_of_no_chain`: a chain that runs out of memory has no last instruction, and ends in a
  report.

What a report comes to is left open here: `Reports report legible` says that the fatal path exits
from the program counters `legible`, and that no depth is enough for it from the others.
-/

namespace Ps2Unpacker

open CProg Lanes Prog

/-! ### Undefined instructions -/

/-- The instruction is undefined: a quotient is no word, or a doubleword is shifted by its width or
more. -/
def RegOp.Undefined : RegOp → CpuRegisters → Prop
  | DIV, r => ¬Division.DIV.InRange r
  | DIV1, r => ¬Division.DIV1.InRange r
  | PDIVW, r => ¬Division.PDIVW.InRange r
  | PDIVBW, r => ¬Division.PDIVBW.InRange r
  | QFSRV, r => r.rd ≠ 0 ∧ (r.sa = 64 ∨ 128 ≤ r.sa)
  | _, _ => False

/-- The instruction to be executed with the registers `r` is undefined. -/
def CpuRegisters.Undefined (r : CpuRegisters) : Prop :=
  match decode r.code with
  | .register o => o.Undefined r
  | _ => False

/-- `QFSRV` is undefined for a shift by 64 and from 128 on. -/
theorem Handler.QFSRV_eq_none_iff (r : CpuRegisters) :
    QFSRV r = none ↔ r.rd ≠ 0 ∧ (r.sa = 64 ∨ 128 ≤ r.sa) := by
  unfold QFSRV
  by_cases hrd : r.rd = 0
  · rw [if_pos hrd]
    exact iff_of_false (Option.some_ne_none r) fun h => h.1 hrd
  rw [if_neg hrd]
  -- By the shift amount; the last case is what none of the others covers.
  by_cases hzero : r.sa = 0
  · rw [if_pos hzero]
    exact iff_of_false (Option.some_ne_none _) fun h => by bv_omega
  rw [if_neg hzero]
  by_cases hlow : r.sa < 64
  · rw [if_pos hlow]
    exact iff_of_false (Option.some_ne_none _) fun h => by bv_omega
  rw [if_neg hlow]
  by_cases hhigh : 64 < r.sa ∧ r.sa < 128
  · rw [if_pos hhigh]
    exact iff_of_false (Option.some_ne_none _) fun h => by bv_omega
  · rw [if_neg hhigh]
    exact iff_of_true rfl ⟨hrd, by bv_omega⟩

/-- **The undefined instructions.** -/
theorem RegOp.run_eq_none_iff (o : RegOp) (r : CpuRegisters) : o.run r = none ↔ o.Undefined r := by
  cases o with
  | DIV => exact Division.DIV.run_eq_none_iff r
  | DIV1 => exact Division.DIV1.run_eq_none_iff r
  | PDIVW => exact Division.PDIVW.run_eq_none_iff r
  | PDIVBW => exact Division.PDIVBW.run_eq_none_iff r
  | QFSRV => exact Handler.QFSRV_eq_none_iff r
  | _ => exact iff_of_false nofun id

/-! ### Reasons -/

namespace CpuRegisters

variable (r : CpuRegisters)

/-- The instruction dispatched with `r` ends the program with a message. -/
def Faults : Prop := ∃ msg, Fault r msg

/-- The words around the instruction follow on its message. -/
def reports : Bool :=
  match decode r.code with
  | .SYSCALL => Handler.callNumber r = 0x32
  | .BREAK => false
  | _ => true

/-- It does so with a report from a program counter that is not `legible`. -/
def Blocked (legible : U32 → Prop) : Prop := r.Faults ∧ r.reports = true ∧ ¬legible r.pc

end CpuRegisters

/-- The message is a reported one exactly if the instruction reports. -/
theorem Fault.isReported_eq {r : CpuRegisters} {msg : Message} (h : Fault r msg) :
    msg.isReported = r.reports := by
  unfold CpuRegisters.reports
  -- The reported ones are those of the memory accesses, of unknown words and of `SleepThread`.
  cases h with
  | reading hop | writing hop =>
    rw [hop]
    exact denial_isReported _ _ _
  | unknownOpcode hop | unknownMMI hop | cop0 hop | «break» hop =>
    rw [hop]
    rfl
  | sleepThread hop hcall =>
    rw [hop]
    exact (decide_eq_true hcall).symm
  | unknownSyscall hop hcall =>
    rw [hop]
    exact (decide_eq_false hcall).symm

/-- An instruction with a message is not an undefined computation. -/
theorem CpuRegisters.Faults.not_undefined {r : CpuRegisters} (h : r.Faults) : ¬r.Undefined := by
  obtain ⟨msg, hfault⟩ := h
  unfold CpuRegisters.Undefined
  cases hfault with
  | reading hop | writing hop | unknownOpcode hop | unknownMMI hop | cop0 hop | «break» hop
  | sleepThread hop | unknownSyscall hop =>
    rw [hop]
    exact id

section Instruction

variable {host : Host} {report : U32 → M Unit} {execI : M Unit} {s s' : Machine}

/-- **An instruction that returns** has no reason to end the program. -/
theorem not_faults_of_returns (hop : ∀ o, decode s.cpu.code ≠ .branch o)
    (h : (decode s.cpu.code).run host report execI s = .ok () s') : ¬s.cpu.Faults := by
  rintro ⟨msg, hfault⟩
  -- An access that returned was to an accepted address.
  have hmarks := Op.run_account marks_account hop h
  cases hfault with
  | reading hd hmem hnone =>
    rw [loads_of_memory hd] at hmarks
    exact not_accepted_iff.mpr hnone (hmarks.read _ hmem)
  | writing hd hmem hnone =>
    rw [footprint_of_memory hd] at hmarks
    exact not_accepted_iff.mpr hnone (hmarks.written _ hmem)
  -- An unknown word takes the fatal path at once.
  | unknownOpcode hd =>
    rw [hd] at h
    exact fatal_ne_ok _ _ h
  | unknownMMI hd =>
    rw [hd] at h
    exact fatal_ne_ok _ _ h
  -- `COP0` returns for three words only.
  | cop0 hd hcode =>
    rw [hd] at h
    simp only [List.mem_cons, List.not_mem_nil, or_false, not_or] at hcode
    change Handler.COP0 report s = _ at h
    unfold Handler.COP0 at h
    rw [cpu_bind, if_neg hcode.1, if_neg hcode.2.1, if_neg hcode.2.2] at h
    exact fatal_ne_ok _ _ h
  -- `SleepThread` is fatal.
  | sleepThread hd hcall =>
    rw [hd] at h
    change Handler.SYSCALL report s = _ at h
    unfold Handler.SYSCALL at h
    rw [cpu_bind, if_pos hcall] at h
    exact fatal_ne_ok _ _ h
  -- The other calls exit unless they are among the supported ones.
  | unknownSyscall hd hcall hsupported =>
    rw [hd] at h
    unfold supportedCalls at hsupported
    simp only [List.mem_cons, List.not_mem_nil, or_false, not_or] at hsupported
    obtain ⟨h3c, h3d, h3e, h64, h07⟩ := hsupported
    change Handler.SYSCALL report s = _ at h
    unfold Handler.SYSCALL at h
    rw [cpu_bind, if_neg hcall, if_neg h3c, if_neg h3d, if_neg h3e, if_neg h64, if_neg h07] at h
    cases h
  | «break» hd =>
    rw [hd] at h
    cases h

end Instruction

/-! ### Reports -/

/-- Where the fatal path exits, and where it recurses without bound. -/
structure Reports (report : U32 → M Unit) (legible : U32 → Prop) : Prop where
  exits : ∀ {s : Machine}, legible s.cpu.pc → ∀ msg, ∃ status s',
    (fatal report msg : M Unit) s = .exit status s'
  endless : ∀ {s : Machine}, ¬legible s.cpu.pc → ∀ msg, (fatal report msg : M Unit) s = .outOfFuel

/-! ### Verdicts -/

/-- The final target of the branches has no tag. -/
def Escapes (branches : List CpuRegisters) : Prop :=
  ∃ T, finalTarget branches = some T ∧ MEMSIZE ≤ T.toNat

/-- The chain does not escape: its target, if it has one, is in memory. -/
theorem not_escapes_iff {branches : List CpuRegisters} :
    ¬Escapes branches ↔ ∀ T, finalTarget branches = some T → T.toNat < MEMSIZE := by
  unfold Escapes
  push Not
  exact Iff.rfl

/-- Without a branch there is no target. -/
theorem not_escapes_nil : ¬Escapes [] := by
  rintro ⟨T, hT, -⟩
  cases hT

/-- How the program goes on after the instruction dispatched with `r`, or after a call of which it
is the last one, and why; `escapes` says that the call comes to a lookup without a tag. -/
inductive Verdict (legible : U32 → Prop) (escapes : Prop) (r : CpuRegisters) :
    Outcome Machine Unit → Prop where
  | returns {s' : Machine} (defined : ¬r.Undefined) (runs : ¬r.Faults) (inside : ¬escapes) :
      Verdict legible escapes r (.ok () s')
  | exits {status : Int} {s' : Machine} (faults : r.Faults) (readable : ¬r.Blocked legible) :
      Verdict legible escapes r (.exit status s')
  | undefined {s' : Machine} (reason : r.Undefined ∨ ¬r.Faults ∧ escapes) :
      Verdict legible escapes r (.undefined s')
  | endless (blocked : r.Blocked legible) : Verdict legible escapes r .outOfFuel

namespace Verdict

/-! The reasons exclude each other, so each of them decides the outcome. -/

section Reasons

variable {legible : U32 → Prop} {escapes : Prop} {r : CpuRegisters} {out : Outcome Machine Unit}

/-- It returns if nothing stands against it. -/
theorem returns_iff (h : Verdict legible escapes r out) :
    (∃ s', out = .ok () s') ↔ ¬r.Undefined ∧ ¬r.Faults ∧ ¬escapes := by
  cases h with
  | returns defined runs inside => exact iff_of_true ⟨_, rfl⟩ ⟨defined, runs, inside⟩
  | exits faults => exact iff_of_false nofun fun h => h.2.1 faults
  | undefined reason =>
    refine iff_of_false nofun fun ⟨hdefined, _, hinside⟩ => ?_
    exact reason.elim hdefined fun h => hinside h.2
  | endless blocked => exact iff_of_false nofun fun h => h.2.1 blocked.1

/-- It exits exactly for a fault that can be reported. -/
theorem exits_iff (h : Verdict legible escapes r out) :
    (∃ status s', out = .exit status s') ↔ r.Faults ∧ ¬r.Blocked legible := by
  cases h with
  | returns _ runs => exact iff_of_false nofun fun h => runs h.1
  | exits faults readable => exact iff_of_true ⟨_, _, rfl⟩ ⟨faults, readable⟩
  | undefined reason =>
    refine iff_of_false nofun fun ⟨hfaults, _⟩ => ?_
    exact reason.elim hfaults.not_undefined fun h => h.1 hfaults
  | endless blocked => exact iff_of_false nofun fun h => h.2 blocked

/-- It is undefined by its last instruction or by the lookup behind it. -/
theorem undefined_iff (h : Verdict legible escapes r out) :
    (∃ s', out = .undefined s') ↔ r.Undefined ∨ ¬r.Faults ∧ escapes := by
  cases h with
  | returns defined _ inside =>
    exact iff_of_false nofun fun h => h.elim defined fun h => inside h.2
  | exits faults =>
    exact iff_of_false nofun fun h => h.elim faults.not_undefined fun h => h.1 faults
  | undefined reason => exact iff_of_true ⟨_, rfl⟩ reason
  | endless blocked =>
    exact iff_of_false nofun fun h => h.elim blocked.1.not_undefined fun h => h.1 blocked.1

/-- It does not end exactly if a report is blocked. -/
theorem endless_iff (h : Verdict legible escapes r out) : out = .outOfFuel ↔ r.Blocked legible := by
  cases h with
  | returns _ runs => exact iff_of_false nofun fun h => runs h.1
  | exits _ readable => exact iff_of_false nofun readable
  | undefined reason =>
    refine iff_of_false nofun fun hblocked => ?_
    exact reason.elim hblocked.1.not_undefined fun h => h.1 hblocked.1
  | endless blocked => exact iff_of_true rfl blocked

/-- Under reports that all come to an end. -/
theorem halted_iff (hall : ∀ pc, legible pc) (h : Verdict legible escapes r out) :
    out.Halted ↔ ¬r.Undefined ∧ (r.Faults ∨ ¬escapes) := by
  cases h with
  | returns defined _ inside => exact iff_of_true trivial ⟨defined, .inr inside⟩
  | exits faults => exact iff_of_true trivial ⟨faults.not_undefined, .inl faults⟩
  | undefined reason =>
    refine iff_of_false id fun ⟨hdefined, h⟩ => ?_
    rcases reason with hundefined | ⟨hruns, hescapes⟩
    · exact hdefined hundefined
    · exact h.elim hruns fun hinside => hinside hescapes
  | endless blocked => exact absurd (hall _) blocked.2.2

end Reasons

/-- **The jump** behind a delay slot: its lookup has a tag, or the call goes wrong there. -/
theorem finishBranch {legible : U32 → Prop} {escapes escapes' : Prop} {r : CpuRegisters}
    {m : M Unit} {s : Machine} (h : Verdict legible escapes r (m s)) (hmono : escapes → escapes')
    (hlookup : ∀ s₁, m s = .ok () s₁ →
      (escapes' ↔ MEMSIZE ≤ (s₁.branchPC.setWidth 32).toNat)) :
    Verdict legible escapes' r ((m >>= fun _ => Handler.finishBranch) s) := by
  rw [bind_apply]
  -- The slot returned, so the lookup decides.
  cases hm : m s with
  | ok u s₁ =>
    rw [hm] at h
    obtain ⟨defined, runs⟩ := h
    change Verdict legible escapes' r (Handler.finishBranch s₁)
    rw [finishBranch_apply]
    split
    · rename_i hin
      exact .returns defined runs fun hescapes => Nat.not_le_of_lt hin ((hlookup s₁ hm).mp hescapes)
    · rename_i hout
      exact .undefined (.inr ⟨runs, (hlookup s₁ hm).mpr (Nat.le_of_not_lt hout)⟩)
  -- Otherwise the lookup is not reached, and the slot has decided.
  | exit status s₁ =>
    rw [hm] at h
    cases h with
    | exits faults readable => exact .exits faults readable
  | undefined s₁ =>
    rw [hm] at h
    cases h with
    | undefined reason => exact .undefined (reason.imp id fun h => ⟨h.1, hmono h.2⟩)
  | outOfFuel =>
    rw [hm] at h
    cases h with
    | endless blocked => exact .endless blocked

end Verdict

/-! ### One instruction -/

section Instruction

variable {host : Host} {report : U32 → M Unit} {legible : U32 → Prop} {s : Machine}

/-- Undefined: a register instruction whose handler has no result. -/
theorem CpuRegisters.undefined_iff {r : CpuRegisters} :
    r.Undefined ↔ ∃ o, decode r.code = .register o ∧ o.run r = none := by
  unfold CpuRegisters.Undefined
  split
  · rename_i o ho
    rw [← RegOp.run_eq_none_iff]
    constructor
    · exact fun h => ⟨o, ho, h⟩
    · rintro ⟨o', ho', h⟩
      cases ho.symm.trans ho'
      exact h
  · rename_i hne
    exact iff_of_false id fun ⟨o, ho, _⟩ => hne o ho

/-- An instruction that fails. -/
theorem Fails.verdict (hreport : Reports report legible) {out : Outcome Machine Unit}
    {x : Outcome Machine Empty} (h : Fails report s x) (hout : out.stop = some x) :
    Verdict legible False s.cpu out := by
  -- An exit rules out that the report is blocked.
  have hexit : ∀ {status s'}, x = .exit status s' → s.cpu.Faults → ¬s.cpu.Blocked legible →
      Verdict legible False s.cpu out := by
    rintro status s' rfl hfaults hreadable
    cases out with
    | exit => exact .exits hfaults hreadable
    | ok | undefined | outOfFuel => cases hout
  cases h with
  | undefined hop hnone =>
    cases out with
    | undefined t => exact .undefined (.inl (CpuRegisters.undefined_iff.mpr ⟨_, hop, hnone⟩))
    | ok | exit | outOfFuel => cases hout
  | @message msg t _ hfault hstores hend =>
    have hreports := hfault.isReported_eq
    unfold EndsWith at hend
    by_cases hreported : msg.isReported = true
    · rw [if_pos hreported] at hend
      by_cases hlegible : legible t.cpu.pc
      · -- The report is read to the end.
        obtain ⟨status, s', hfatal⟩ := hreport.exits hlegible msg
        rw [hfatal] at hend
        cases hend
        refine hexit rfl ⟨msg, hfault⟩ fun hblocked => hblocked.2.2 ?_
        rwa [← hstores.cpu]
      · -- An unreadable report does not end.
        rw [hreport.endless hlegible msg] at hend
        cases hend
        cases out with
        | outOfFuel =>
          refine .endless ⟨⟨msg, hfault⟩, by rwa [← hreports], ?_⟩
          rwa [← hstores.cpu]
        | ok | exit | undefined => cases hout
    · -- Without a report the program exits.
      rw [if_neg hreported] at hend
      refine hexit hend ⟨msg, hfault⟩ fun hblocked => hreported ?_
      rw [hreports]
      exact hblocked.2.1

/-- **One instruction** other than a taken branch. -/
theorem Op.run_verdict {execI : M Unit} (hreport : Reports report legible)
    (hstop : s.cpu.takenBranch = none) :
    Verdict legible False s.cpu ((decode s.cpu.code).run host report execI s) := by
  by_cases hbranch : ∃ o, decode s.cpu.code = .branch o
  · -- A branch that is not taken returns.
    obtain ⟨o, ho⟩ := hbranch
    have hrun : (decode s.cpu.code).run host report execI s =
        .ok () { s with cpu := o.skip s.cpu } := by
      rw [ho]
      exact BranchOp.run_of_stop ho hstop
    rw [hrun]
    refine .returns (fun hundefined => ?_) ?_ id
    · obtain ⟨o', ho', -⟩ := CpuRegisters.undefined_iff.mp hundefined
      cases ho.symm.trans ho'
    · rintro ⟨msg, hfault⟩
      cases hfault with
      | reading hd | writing hd | unknownOpcode hd | unknownMMI hd | cop0 hd | «break» hd
      | sleepThread hd | unknownSyscall hd => cases ho.symm.trans hd
  have hop : ∀ o, decode s.cpu.code ≠ .branch o := fun o ho => hbranch ⟨o, ho⟩
  -- The handler stopped, for one of its reasons, or it returned.
  cases hrun : ((decode s.cpu.code).run host report execI s).stop with
  | some x => exact (Op.run_leaves hop hrun).verdict hreport hrun
  -- The registers had a result, so nothing was undefined.
  | none =>
    cases hreturn : (decode s.cpu.code).run host report execI s with
    | ok u s' =>
      refine .returns (fun hundefined => ?_) (not_faults_of_returns hop hreturn) id
      obtain ⟨o, ho, hnone⟩ := CpuRegisters.undefined_iff.mp hundefined
      rw [ho] at hreturn
      obtain ⟨r, hr, -⟩ := modifyCpu?_eq_ok.mp hreturn
      cases hnone.symm.trans hr
    | exit | undefined | outOfFuel =>
      rw [hreturn] at hrun
      cases hrun

/-! ### One call -/

/-- **One call** ends as the last instruction of its chain does, or at the lookup behind it. -/
theorem execI_verdict (hreport : Reports report legible) {memory : Fin MEMSIZE → U8}
    {r last : CpuRegisters} {branches : List CpuRegisters}
    (h : DelayChain memory r branches last) :
    ∀ {s : Machine} {n : Nat}, s.memory = memory → s.cpu = r → branches.length < n →
      Verdict legible (Escapes branches) last (execI host report n s) := by
  -- On the chain: a branch calls the interpreter for the rest of it, one level down.
  induction h with
  -- The last word is no taken branch, and the call is its handler.
  | @last r code word stop =>
    rintro s n rfl rfl hn
    obtain ⟨n, rfl⟩ := Nat.exists_eq_succ_of_ne_zero (Nat.ne_of_gt hn)
    obtain ⟨s₀, hfetch⟩ := (@fetch_returns_iff report s).mpr ⟨code, word⟩
    have hfetched := fetch_ensures _ hfetch
    have hcode : s₀.cpu.code = code := Option.some.inj (hfetched.word.symm.trans word)
    have hcpu : s₀.cpu = s.cpu.dispatch code := by rw [hfetched.cpu, hcode]
    rw [execI_of_fetch hfetch, ← hcpu, eq_false not_escapes_nil]
    exact Op.run_verdict hreport (by rwa [hcpu])
  | @branch r last code o branches word take rest ih =>
    rintro s n rfl rfl hn
    rw [List.length_cons] at hn
    obtain ⟨n, rfl⟩ := Nat.exists_eq_succ_of_ne_zero (show n ≠ 0 by omega)
    obtain ⟨s₀, hfetch⟩ := (@fetch_returns_iff report s).mpr ⟨code, word⟩
    have hfetched := fetch_ensures _ hfetch
    have hcode : s₀.cpu.code = code := Option.some.inj (hfetched.word.symm.trans word)
    have hcpu : s₀.cpu = s.cpu.dispatch code := by rw [hfetched.cpu, hcode]
    rw [← hcpu] at take rest ⊢
    have hnested := nestedCall_eq_some.mpr ⟨s₀, o, hfetch, take, rfl⟩
    rw [execI_of_nested hnested]
    have hmemory : (s₀.enterSlot o).memory = s.memory := hfetched.memory
    refine (ih hmemory (by rw [← hcpu]; rfl) (by omega)).finishBranch ?_ fun s₁ hslot => ?_
    · -- The target of the rest is that of the whole.
      rintro ⟨T, hT, hout⟩
      exact ⟨T, by rw [finalTarget_cons take, hT]; rfl, hout⟩
    · -- The slot has left it where the lookup finds it.
      obtain ⟨branches', last', hcall⟩ := (execI_exec host report n hslot).call
      obtain ⟨rfl, rfl⟩ := (hmemory ▸ hcall.chain).unique rest
      unfold Escapes
      simp only [(hcall.finalTarget_of_slot take).1, Option.some.injEq, exists_eq_left']

/-! ### A call without a chain -/

/-- A fetch that fails takes the fatal path, over a byte of the word. -/
theorem fetch_of_no_word (h : fetchWord s.memory s.cpu.pc = none) :
    ∃ msg t, fetch report s = fatal report msg t ∧ t.cpu.pc = s.cpu.pc + 4 ∧
      ∃ j, j < 4 ∧ ¬Accepted (s.cpu.pc + BitVec.ofNat 32 j) := by
  have hbad : ∃ j, 0 ≤ j ∧ j < 0 + 4 ∧ ¬Accepted (s.cpu.pc + BitVec.ofNat 32 j) := by
    by_contra hgood
    push Not at hgood
    obtain ⟨code, s', hread⟩ := readFrom_of_accepted report s.cpu.pc 4 0 (0 : U32) s hgood
    obtain ⟨hword, -⟩ := memRead32_ensures _ hread
    cases h.symm.trans hword
  unfold fetch
  rw [cpu_bind, modifyCpu_bind, cpu_bind]
  -- Before the word is read, the counters go on and a message may be printed.
  obtain ⟨s₁, hprint⟩ := printfIf_returns _ _ _
  rw [bind_ok_of hprint]
  have hlog := (printfIf_ensures _ _ hprint).only_log
  obtain ⟨msg, t, hcpu, hread⟩ := @readFrom_of_not_accepted report 32 s.cpu.pc 4 0 0 s₁ hbad
  obtain ⟨j, -, hj, hnone⟩ := hbad
  refine ⟨msg, t, bind_of_fatal hread, ?_, j, by omega, hnone⟩
  rw [hcpu, hlog]

/-- **A call without a chain** comes to a word that cannot be read, and takes the fatal path there:
some byte of the word in front of the program counter is not accepted. -/
theorem execI_of_no_chain {ts : List Machine} (h : Calls (nestedCall report) s ts) :
    (∀ branches last, ¬DelayChain s.memory s.cpu branches last) → ∀ n, ts.length < n →
      ∃ msg t, execI host report n s = fatal report msg t ∧
        ∃ j, j < 4 ∧ ¬Accepted (t.cpu.pc - 4 + BitVec.ofNat 32 j) := by
  -- On the nested calls: a word that is read is a taken branch, and what follows it has no chain.
  induction h with
  -- The call goes no deeper, so the word is missing or ends a chain.
  | @leaf s stop =>
    intro hnone n hn
    obtain ⟨n, rfl⟩ := Nat.exists_eq_succ_of_ne_zero (Nat.ne_of_gt hn)
    cases hword : fetchWord s.memory s.cpu.pc with
    | some code =>
      obtain ⟨s₀, hfetch⟩ := (@fetch_returns_iff report s).mpr ⟨code, hword⟩
      rw [nestedCall_of_fetch hfetch, Option.map_eq_none_iff] at stop
      exact absurd ((fetch_ensures _ hfetch).chain_last stop) (hnone [] _)
    | none =>
      obtain ⟨msg, t, hfetch, hpc, hbad⟩ := @fetch_of_no_word report s hword
      refine ⟨msg, t, bind_of_fatal hfetch, ?_⟩
      rwa [hpc, BitVec.add_sub_cancel]
  -- It goes on with the slot, where the argument repeats.
  | @call s t ts step rest ih =>
    intro hnone n hn
    rw [List.length_cons] at hn
    obtain ⟨n, rfl⟩ := Nat.exists_eq_succ_of_ne_zero (show n ≠ 0 by omega)
    obtain ⟨s₀, o, hfetch, take, rfl⟩ := nestedCall_eq_some.mp step
    obtain ⟨msg, t, hrun, hbad⟩ := ih (fun branches last hchain =>
      hnone _ last ((fetch_ensures _ hfetch).chain_branch take hchain)) n (by omega)
    refine ⟨msg, t, ?_, hbad⟩
    rw [execI_of_nested step]
    exact bind_of_fatal hrun

end Instruction

end Ps2Unpacker
