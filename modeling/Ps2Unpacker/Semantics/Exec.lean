import Mathlib.Tactic.Set
import Ps2Unpacker.Semantics.Frame

/-!
# One call of the interpreter

`Exec host s s'` is the meaning of a returning call of `execI`, with no recursion depth in it: the
instruction is fetched; then it runs (`straight`), or it is a branch that is not taken (`skipped`),
or a branch that is taken, whose delay slot is another call (`jumped`).

The branches are given here by four functions of the registers at dispatch, in the terms of the
architecture: where the return address goes (`link`), whether the branch is taken (`taken`), where
it goes (`dest`), and whether it skips its delay slot when not taken (`likely`).

* `BranchOp.run_eq`: the branch handlers of the source follow these functions.
* `Returns.exec`: every returning call of `execI` is an `Exec`. The proofs about runs are inductions
  on `Exec`.
-/

namespace Ps2Unpacker

open CProg Lanes

/-! ### Branches -/

namespace BranchOp

/-- The registers once the return address, the address of the instruction plus eight, is set. -/
def link : BranchOp → CpuRegisters → CpuRegisters
  | JAL, r | BGEZAL, r | BLTZAL, r | BGEZALL, r | BLTZALL, r => r.setLink 31
  | JALR, r => if r.rd = 0 then r else r.setLink r.rd
  | _, r => r

/-- The condition on `rs` and `rt`, as numbers. -/
def condition : BranchOp → CpuRegisters → Bool
  | BEQ, r | BEQL, r => (UD 0 (r.GPR r.rs)).toInt = (UD 0 (r.GPR r.rt)).toInt
  | BNE, r | BNEL, r => (UD 0 (r.GPR r.rs)).toInt ≠ (UD 0 (r.GPR r.rt)).toInt
  | BGEZ, r | BGEZL, r | BGEZAL, r | BGEZALL, r => 0 ≤ (UD 0 (r.GPR r.rs)).toInt
  | BGTZ, r | BGTZL, r => 0 < (UD 0 (r.GPR r.rs)).toInt
  | BLEZ, r | BLEZL, r => (UD 0 (r.GPR r.rs)).toInt ≤ 0
  | BLTZ, r | BLTZL, r | BLTZAL, r | BLTZALL, r => (UD 0 (r.GPR r.rs)).toInt < 0
  | J, _ | JAL, _ | JR, _ | JALR, _ => true

/-- The branch is taken; the condition sees the return address. -/
def taken (o : BranchOp) (r : CpuRegisters) : Bool := o.condition (o.link r)

/-- The target. A register jump reads its register before the return address is set. -/
def dest : BranchOp → CpuRegisters → U32
  | J, r | JAL, r => r.jumpTarget
  | JR, r | JALR, r => UL 0 (r.GPR r.rs)
  | _, r => r.branchTarget

/-- The delay slot runs only if the branch is taken. -/
def likely : BranchOp → Bool
  | BEQL | BNEL | BLEZL | BGTZL | BLTZL | BGEZL | BLTZALL | BGEZALL => true
  | _ => false

/-- The registers after a branch that is not taken. -/
def skip (o : BranchOp) (r : CpuRegisters) : CpuRegisters :=
  if o.likely then { o.link r with pc := r.pc + 4 } else o.link r

/-- The registers the delay slot starts with. -/
def slot (o : BranchOp) (r : CpuRegisters) : CpuRegisters := { o.link r with branch := 1 }

/-- The register for the return address, of the branches that set one. -/
def linkRegister : BranchOp → CpuRegisters → Option Reg
  | JAL, _ | BGEZAL, _ | BLTZAL, _ | BGEZALL, _ | BLTZALL, _ => some 31
  | JALR, r => if r.rd = 0 then none else some r.rd
  | _, _ => none

/-- A branch with a register for the return address writes it. -/
theorem link_of_linkRegister {o : BranchOp} {r : CpuRegisters} {i : Reg}
    (h : o.linkRegister r = some i) : o.link r = r.setLink i := by
  cases o with
  | JAL | BGEZAL | BLTZAL | BGEZALL | BLTZALL =>
    cases h
    rfl
  | JALR =>
    obtain ⟨hrd, hi⟩ := Option.ite_none_left_eq_some.mp h
    obtain rfl := Option.some.inj hi
    exact if_neg hrd
  | _ => cases h

/-- The only register a branch writes is the one for the return address, which is not `r0`. -/
theorem link_cases (o : BranchOp) (r : CpuRegisters) :
    o.link r = r ∨ ∃ i, i ≠ 0 ∧ o.link r = r.setLink i := by
  cases o with
  | JAL | BGEZAL | BLTZAL | BGEZALL | BLTZALL => exact .inr ⟨31, by decide, rfl⟩
  | JALR =>
    by_cases h : r.rd = 0
    · exact .inl (if_pos h)
    · exact .inr ⟨r.rd, h, if_neg h⟩
  | J | JR | BEQ | BNE | BLEZ | BGTZ | BEQL | BNEL | BLEZL | BGTZL | BLTZ | BGEZ | BLTZL | BGEZL =>
    exact .inl rfl

theorem link_quiet (o : BranchOp) (r : CpuRegisters) : r.Quiet (o.link r) := by
  rcases o.link_cases r with h | ⟨i, hi, h⟩
  · rw [h]; exact .refl r
  · rw [h]; exact (CpuRegisters.Quiet.refl r).setLane hi 0 _

end BranchOp

/-- The machine that enters the delay slot of a taken branch. -/
def Machine.enterSlot (o : BranchOp) (s : Machine) : Machine :=
  { s with cpu := o.slot s.cpu, branch2 := 1, branchPC := (o.dest s.cpu).setWidth 64 }

/-- The jump after the delay slot. -/
def Machine.jump (s : Machine) : Machine :=
  { s with cpu := { s.cpu with branch := 0, pc := s.branchPC.setWidth 32 } }

/-- The machine after the delay slot of a taken branch. -/
def Machine.leaveSlot (s : Machine) : Machine :=
  if hasWrite s (s.branchPC.setWidth 32) = some true then
    { s.jump with
      log := .printed (.execHitWritten (s.branchPC.setWidth 32)) :: s.log
      bouncePc := s.branchPC.setWidth 32 }
  else s.jump

section Branch

variable {host : Host} {execI : M Unit} {s : Machine}

/-- The jump, with the lookup of the tag where the target has one. -/
theorem finishBranch_apply : Handler.finishBranch s =
    if (s.branchPC.setWidth 32).toNat < MEMSIZE then .ok () s.leaveSlot else .undefined s.jump := by
  -- The jump comes first; the lookup reads the tags only.
  have hjump : Handler.finishBranch s = (do
      if ← Prog.require (hasWrite s (s.branchPC.setWidth 32)) then
        printf (.execHitWritten (s.branchPC.setWidth 32))
        Prog.modify fun s => { s with bouncePc := s.branchPC.setWidth 32 }) s.jump := rfl
  rw [hjump]
  unfold Machine.leaveSlot
  by_cases hin : (s.branchPC.setWidth 32).toNat < MEMSIZE
  · -- In memory the lookup has a value, and the tag decides about the entry point.
    rw [if_pos hin, hasWrite, dif_pos hin, Prog.require_some_bind]
    by_cases hw : s.tags ⟨_, hin⟩ &&& 2 ≠ 0
    · rw [if_pos (decide_eq_true hw), if_pos (congrArg some (decide_eq_true hw))]
      rfl
    · rw [if_neg (by simpa using hw), if_neg (by simpa using hw)]
      rfl
  · -- Out of range it has none.
    rw [if_neg hin, hasWrite, dif_neg hin]
    rfl

theorem finishBranch_of_lt (h : (s.branchPC.setWidth 32).toNat < MEMSIZE) :
    Handler.finishBranch s = .ok () s.leaveSlot :=
  finishBranch_apply.trans (if_pos h)

/-- The jump returns only if its target has a tag. -/
theorem finishBranch_eq_ok {s' : Machine} {u : Unit} :
    Handler.finishBranch s = .ok u s' ↔
      (s.branchPC.setWidth 32).toNat < MEMSIZE ∧ s.leaveSlot = s' := by
  rw [finishBranch_apply]
  split
  · rename_i hin
    constructor
    · rintro ⟨⟩
      exact ⟨hin, rfl⟩
    · rintro ⟨-, rfl⟩
      rfl
  · rename_i hout
    exact iff_of_false nofun fun h => hout h.1

/-- `doBranch`: the delay slot, then the jump. -/
theorem doBranch_apply (tar : U32) :
    Handler.doBranch execI tar s =
      (execI >>= fun _ => Handler.finishBranch)
        { s with branch2 := 1, cpu := { s.cpu with branch := 1 }, branchPC := tar.setWidth 64 } :=
  rfl

/-- `BEQ` compares the doublewords as they are; the architecture compares numbers. -/
theorem condEQ_eq (r : CpuRegisters) : Handler.condEQ r = BranchOp.BEQ.condition r := by
  change (UD 0 (r.GPR r.rs) == UD 0 (r.GPR r.rt)) = decide (_ = _)
  rw [Bool.beq_eq_decide_eq]
  exact decide_eq_decide.mpr BitVec.toInt_inj.symm

/-- The same for `BNE`. -/
theorem condNE_eq (r : CpuRegisters) : Handler.condNE r = BranchOp.BNE.condition r := by
  change (!(UD 0 (r.GPR r.rs) == UD 0 (r.GPR r.rt))) = decide (_ ≠ _)
  rw [Bool.beq_eq_decide_eq, ← decide_not]
  exact decide_eq_decide.mpr (not_congr BitVec.toInt_inj.symm)

/-- The tests against zero, which the source makes on the signed doubleword. -/
theorem condGEZ_eq (r : CpuRegisters) : Handler.condGEZ r = BranchOp.BGEZ.condition r := rfl

theorem condGTZ_eq (r : CpuRegisters) : Handler.condGTZ r = BranchOp.BGTZ.condition r := rfl

theorem condLEZ_eq (r : CpuRegisters) : Handler.condLEZ r = BranchOp.BLEZ.condition r := rfl

theorem condLTZ_eq (r : CpuRegisters) : Handler.condLTZ r = BranchOp.BLTZ.condition r := rfl

/-- The macro of the conditional branches. -/
theorem repBranch_apply (cond : CpuRegisters → Bool) :
    Handler.repBranch execI cond s =
      if cond s.cpu then Handler.doBranch execI s.cpu.branchTarget s else .ok () s := by
  unfold Handler.repBranch
  rw [cpu_bind]
  split
  · rfl
  · rfl

/-- The macro of the likely ones, which pass over the delay slot. -/
theorem repBranchLikely_apply (cond : CpuRegisters → Bool) :
    Handler.repBranchLikely execI cond s =
      if cond s.cpu then Handler.doBranch execI s.cpu.branchTarget s
      else .ok () { s with cpu := { s.cpu with pc := s.cpu.pc + 4 } } := by
  unfold Handler.repBranchLikely
  rw [cpu_bind]
  split
  · rfl
  · rfl

/-- **The branch handlers** follow `link`, `taken`, `dest` and `likely`. -/
theorem BranchOp.run_eq (o : BranchOp) :
    o.run execI s =
      if o.taken s.cpu then
        Handler.doBranch execI (o.dest s.cpu) { s with cpu := o.link s.cpu }
      else .ok () { s with cpu := o.skip s.cpu } := by
  cases o with
  -- Jumps have no condition.
  | J | JAL | JR | JALR => rfl
  -- The handlers without `L` at the end run on into the delay slot when not taken,
  | BEQ => exact (repBranch_apply _).trans (by rw [condEQ_eq]; rfl)
  | BNE => exact (repBranch_apply _).trans (by rw [condNE_eq]; rfl)
  | BGEZ => exact (repBranch_apply _).trans (by rw [condGEZ_eq]; rfl)
  | BGTZ => exact (repBranch_apply _).trans (by rw [condGTZ_eq]; rfl)
  | BLEZ => exact (repBranch_apply _).trans (by rw [condLEZ_eq]; rfl)
  | BLTZ => exact (repBranch_apply _).trans (by rw [condLTZ_eq]; rfl)
  | BGEZAL => exact (repBranch_apply _).trans (by rw [condGEZ_eq]; rfl)
  | BLTZAL => exact (repBranch_apply _).trans (by rw [condLTZ_eq]; rfl)
  -- the likely ones pass over it.
  | BEQL => exact (repBranchLikely_apply _).trans (by rw [condEQ_eq]; rfl)
  | BNEL => exact (repBranchLikely_apply _).trans (by rw [condNE_eq]; rfl)
  | BLEZL => exact (repBranchLikely_apply _).trans (by rw [condLEZ_eq]; rfl)
  | BGTZL => exact (repBranchLikely_apply _).trans (by rw [condGTZ_eq]; rfl)
  | BLTZL => exact (repBranchLikely_apply _).trans (by rw [condLTZ_eq]; rfl)
  | BGEZL => exact (repBranchLikely_apply _).trans (by rw [condGEZ_eq]; rfl)
  | BLTZALL => exact (repBranchLikely_apply _).trans (by rw [condLTZ_eq]; rfl)
  | BGEZALL => exact (repBranchLikely_apply _).trans (by rw [condGEZ_eq]; rfl)

/-- A taken branch is the call for its delay slot, and then the jump. -/
theorem BranchOp.run_of_taken {o : BranchOp} (h : o.taken s.cpu = true) :
    o.run execI s = (execI >>= fun _ => Handler.finishBranch) (s.enterSlot o) := by
  rw [BranchOp.run_eq, if_pos h, doBranch_apply]
  rfl

end Branch

/-! ### Fetching -/

/-- The registers with which the word `code` is dispatched. -/
def CpuRegisters.dispatch (code : U32) (r : CpuRegisters) : CpuRegisters :=
  { r with pc := r.pc + 4, cycle := r.cycle + 1, code := code }

/-- What the part of `execI` before the dispatch does. -/
structure Fetched (s s₀ : Machine) : Prop where
  /-- The instruction word is the one in memory at the program counter. -/
  word : fetchWord s.memory s.cpu.pc = some s₀.cpu.code
  cpu : s₀.cpu = s.cpu.dispatch s₀.cpu.code
  branchPC : s₀.branchPC = s.branchPC
  bouncePc : s₀.bouncePc = s.bouncePc
  trace : s₀.trace = s.trace
  /-- The dispatch is the last event; before it, only messages were printed. -/
  history : ∃ new, (∀ e ∈ new, ∃ msg, e = .printed msg) ∧ Extends (.exec s₀.cpu :: new) s s₀

/-- A machine that differs in printed messages. -/
structure Printed (s s' : Machine) : Prop where
  only_log : s' = { s with log := s'.log }
  history : ∃ new, (∀ e ∈ new, ∃ msg, e = .printed msg) ∧ Extends new s s'

/-- A message is printed, or nothing happens. -/
theorem printfIf_ensures (c : Bool) (msg : Message) :
    (printfIf c msg).Ensures fun s _ s' => Printed s s' := by
  intro s u s' h
  unfold printfIf at h
  split at h
  · cases h
    refine ⟨rfl, [.printed msg], ?_, .of_cons ?_ ⟨rfl, rfl, rfl⟩⟩
    · intro e he
      exact ⟨msg, List.mem_singleton.mp he⟩
    · simp
  · cases h
    exact ⟨rfl, [], by simp, .refl _⟩

/-- A fetch that returns has dispatched the word at the program counter. -/
theorem fetch_ensures (report : U32 → M Unit) :
    (fetch report).Ensures fun s _ s₀ => Fetched s s₀ := by
  intro s u s₀ h
  unfold fetch at h
  rw [cpu_bind, modifyCpu_bind, cpu_bind] at h
  obtain ⟨_, s₁, h₁, h⟩ := Prog.bind_eq_ok.mp h
  obtain ⟨code, s₂, h₂, h⟩ := Prog.bind_eq_ok.mp h
  rw [modifyCpu_bind, Prog.get_bind] at h
  obtain ⟨_, s₃, h₃, h₄⟩ := Prog.bind_eq_ok.mp h
  cases h₄
  obtain ⟨hlog₁, new₁, hnew₁, hext₁⟩ := printfIf_ensures _ _ h₁
  obtain ⟨hword, hro⟩ := memRead32_ensures _ h₂
  obtain ⟨hlog₃, new₃, hnew₃, hext₃⟩ := printfIf_ensures _ _ h₃
  -- The phases one after the other: counters, message, word, message, dispatch.
  set t := { s with cpu := { s.cpu with pc := s.cpu.pc + 4, cycle := s.cpu.cycle + 1 } } with ht
  have hcount : Extends [] s t := .of_eq ⟨rfl, rfl, rfl⟩
  have hread : Extends [] s₁ s₂ := hro.extends
  have hcode : Extends [] s₂ { s₂ with cpu := { s₂.cpu with code := code } } :=
    .of_eq ⟨rfl, rfl, rfl⟩
  have hexec : Extends [.exec s₃.cpu] s₃ { s₃ with log := .exec s₃.cpu :: s₃.log } :=
    .of_cons (by simp) ⟨rfl, rfl, rfl⟩
  have hall := ((((hcount.trans hext₁).trans hread).trans hcode).trans hext₃).trans hexec
  -- The registers change by the two assignments alone.
  have hcpu : s₃.cpu = s.cpu.dispatch code := by
    rw [hlog₃]
    change { s₂.cpu with code := code } = _
    rw [hro.cpu, hlog₁]
    rfl
  -- The word is read from the memory that the first message left.
  have hmem : s₁.memory = s.memory := by rw [hlog₁]
  -- Clause by clause: what a message or a read leaves alone.
  refine ⟨?_, ?_, ?_, ?_, ?_, new₃ ++ new₁, ?_, ?_⟩
  · change fetchWord s.memory s.cpu.pc = some s₃.cpu.code
    rw [hcpu, ← hmem]
    exact hword
  · change s₃.cpu = s.cpu.dispatch s₃.cpu.code
    rw [hcpu]
    rfl
  · change s₃.branchPC = s.branchPC
    rw [hlog₃, hro.only_tags, hlog₁]
  · change s₃.bouncePc = s.bouncePc
    rw [hlog₃, hro.only_tags, hlog₁]
  · change s₃.trace = s.trace
    rw [hlog₃, hro.only_tags, hlog₁]
  · intro e he
    rcases List.mem_append.mp he with he | he
    · exact hnew₃ e he
    · exact hnew₁ e he
  · simpa using hall

/-! ### The call -/

/-- The branch an instruction takes, if it is one that is taken. -/
def CpuRegisters.takenBranch (r : CpuRegisters) : Option BranchOp :=
  match decode r.code with
  | .branch o => if o.taken r then some o else none
  | _ => none

/-- An instruction that is no branch takes none. -/
theorem takenBranch_of_ne {r : CpuRegisters} (h : ∀ o, decode r.code ≠ .branch o) :
    r.takenBranch = none := by
  unfold CpuRegisters.takenBranch
  split
  · rename_i o ho
    exact absurd ho (h o)
  · rfl

/-- A branch is taken where its condition holds. -/
theorem takenBranch_of_branch {r : CpuRegisters} {o : BranchOp} (h : decode r.code = .branch o) :
    r.takenBranch = if o.taken r then some o else none := by
  unfold CpuRegisters.takenBranch
  rw [h]

/-- A branch is taken or skipped as its condition holds or fails. -/
theorem takenBranch_of_taken {r : CpuRegisters} {o : BranchOp} (h : decode r.code = .branch o)
    (take : o.taken r = true) : r.takenBranch = some o := by
  rw [takenBranch_of_branch h, if_pos take]

theorem takenBranch_of_skipped {r : CpuRegisters} {o : BranchOp} (h : decode r.code = .branch o)
    (skip : o.taken r = false) : r.takenBranch = none := by
  rw [takenBranch_of_branch h, if_neg (by rw [skip]; decide)]

/-- A returning call of the interpreter, from `s` to `s'`. -/
inductive Exec (host : Host) : Machine → Machine → Prop where
  /-- An instruction other than a branch. -/
  | straight {s s₀ s' : Machine} (fetched : Fetched s s₀)
      (hop : ∀ o, decode s₀.cpu.code ≠ .branch o)
      (run : ∃ report execI, (decode s₀.cpu.code).run host report execI s₀ = .ok () s') :
      Exec host s s'
  /-- A branch that is not taken. -/
  | skipped {s s₀ : Machine} {o : BranchOp} (fetched : Fetched s s₀)
      (hop : decode s₀.cpu.code = .branch o) (skip : o.taken s₀.cpu = false) :
      Exec host s { s₀ with cpu := o.skip s₀.cpu }
  /-- A branch that is taken: the delay slot is a call of its own. -/
  | jumped {s s₀ s₁ : Machine} {o : BranchOp} (fetched : Fetched s s₀)
      (hop : decode s₀.cpu.code = .branch o) (take : o.taken s₀.cpu = true)
      (slot : Exec host (s₀.enterSlot o) s₁)
      (inside : (s₁.branchPC.setWidth 32).toNat < MEMSIZE) :
      Exec host s s₁.leaveSlot

/-- A returning call of `execI` at any depth is a call. -/
theorem execI_exec (host : Host) (report : U32 → M Unit) (n : Nat) :
    (execI host report n).Within (Exec host) := by
  -- On the depth: the delay slot of a taken branch is a call one level down.
  induction n with
  | zero => exact Prog.within_diverge
  | succ n ih =>
    intro s _ s' h
    unfold execI at h
    obtain ⟨_, s₀, h₁, h₂⟩ := Prog.bind_eq_ok.mp h
    have hfetched := fetch_ensures report h₁
    rw [cpu_bind] at h₂
    by_cases hop : ∃ o, decode s₀.cpu.code = .branch o
    · obtain ⟨o, ho⟩ := hop
      rw [ho] at h₂
      change o.run (execI host report n) s₀ = _ at h₂
      rw [BranchOp.run_eq] at h₂
      by_cases htaken : o.taken s₀.cpu = true
      · -- `doBranch` is the slot, entered with the link set, and then the jump.
        rw [if_pos htaken, doBranch_apply] at h₂
        obtain ⟨_, s₁, hslot, hfinish⟩ := Prog.bind_eq_ok.mp h₂
        obtain ⟨inside, rfl⟩ := finishBranch_eq_ok.mp hfinish
        exact .jumped hfetched ho htaken (ih hslot) inside
      · rw [if_neg htaken] at h₂
        cases h₂
        exact .skipped hfetched ho (by simpa using htaken)
    · exact .straight hfetched (fun o ho => hop ⟨o, ho⟩) ⟨report, execI host report n, h₂⟩

/-- **Refinement.** Every call of `execI` that returns is an `Exec`. -/
theorem Returns.exec {host : Host} {s s' : Machine} (h : Returns host s s') : Exec host s s' := by
  obtain ⟨depth, levels, h⟩ := h
  exact execI_exec host (dumpasm depth) levels h

/-! ### Small programs -/

/-- Memory with the given words from `base` on and zero elsewhere. -/
def program (base : Nat) (words : List U32) : Fin MEMSIZE → U8 := fun m =>
  if base ≤ m.val ∧ m.val < base + 4 * words.length then
    lane 8 ((m.val - base) % 4) (words[(m.val - base) / 4]?.getD 0)
  else 0

/-- A host on which everything outside the emulated machine reads as zero. -/
def Host.flat : Host := ⟨0, fun _ => 0⟩

/-- The state after a call that executes one instruction. -/
def Machine.next (s : Machine) : Machine :=
  match execI .flat (dumpasm 0) 1 s with
  | .ok _ s' => s'
  | _ => s

end Ps2Unpacker
