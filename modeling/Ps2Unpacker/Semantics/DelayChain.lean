import Ps2Unpacker.Semantics.Exec

/-!
# Delay chains

What one call of the interpreter executes, said without the interpreter. A branch that is taken has
the next instruction in its delay slot; if that one is again a branch that is taken, the chain goes
on. `DelayChain memory r branches last` is the chain that starts at `r.pc`: the taken branches
`branches`, and the first instruction `last` that is not one, each given by the registers with which
it is dispatched. The condition, the target and the return address of a branch are functions of
these registers, so all three are fixed before its delay slot starts, and the delay slot sees the
return address.

* `Exec.call`: a call executes exactly its delay chain, each instruction once and in order; what it
  leaves in registers and memory is what `last` leaves; the final program counter is the target of
  the last branch of the chain, and the cycle count grows by the length of the chain.
* `execI_delay_slots`: the same for `execI`, with the program counter spelled out case by case.
-/

namespace Ps2Unpacker

open CProg Lanes

/-- The delay chain at `r.pc`: the branches that are taken, and the first instruction that is not.
-/
inductive DelayChain (memory : Fin MEMSIZE → U8) :
    CpuRegisters → List CpuRegisters → CpuRegisters → Prop where
  | last {r : CpuRegisters} {code : U32} (word : fetchWord memory r.pc = some code)
      (stop : (r.dispatch code).takenBranch = none) :
      DelayChain memory r [] (r.dispatch code)
  | branch {r last : CpuRegisters} {code : U32} {o : BranchOp} {branches : List CpuRegisters}
      (word : fetchWord memory r.pc = some code)
      (take : (r.dispatch code).takenBranch = some o)
      (rest : DelayChain memory (o.slot (r.dispatch code)) branches last) :
      DelayChain memory r (r.dispatch code :: branches) last

/-- The target of the last branch of a chain. -/
def finalTarget : List CpuRegisters → Option U32
  | [] => none
  | x :: xs => (finalTarget xs).or (x.takenBranch.map fun o => o.dest x)

/-- Where control goes after an instruction that is not a taken branch: only a skipped likely branch
passes over its delay slot. -/
def CpuRegisters.nextPc (r : CpuRegisters) : U32 :=
  match decode r.code with
  | .branch o => if o.likely then r.pc + 4 else r.pc
  | _ => r.pc

/-- The instructions dispatched between `s` and `s'`, in order. -/
def Executed (s s' : Machine) (xs : List CpuRegisters) : Prop :=
  ∃ new, s'.log = new ++ s.log ∧ (new.filterMap Event.dispatched?).reverse = xs

/-! ### Facts about chains -/

section Chain

variable {memory : Fin MEMSIZE → U8} {r last : CpuRegisters} {branches : List CpuRegisters}

/-- The memory determines the chain. -/
theorem DelayChain.unique {branches' : List CpuRegisters} {last' : CpuRegisters}
    (h : DelayChain memory r branches last) (h' : DelayChain memory r branches' last') :
    branches = branches' ∧ last = last' := by
  -- Both chains read the same word, and it is a taken branch in both or in neither.
  induction h generalizing branches' last' with
  | last word stop =>
    cases h' with
    -- They end together.
    | last word' stop' =>
      cases word.symm.trans word'
      exact ⟨rfl, rfl⟩
    | branch word' take' rest' =>
      cases word.symm.trans word'
      exact absurd (stop.symm.trans take') (by simp)
  | branch word take rest ih =>
    cases h' with
    | last word' stop' =>
      cases word.symm.trans word'
      exact absurd (stop'.symm.trans take) (by simp)
    | branch word' take' rest' =>
      -- They go on with the same branch.
      cases word.symm.trans word'
      cases take.symm.trans take'
      obtain ⟨hb, hl⟩ := ih rest'
      exact ⟨by rw [hb], hl⟩

/-- The instructions of a chain are at consecutive addresses; the program counter is one ahead. -/
theorem DelayChain.address (h : DelayChain memory r branches last) (k : Nat) {x : CpuRegisters}
    (hx : (branches ++ [last])[k]? = some x) : x.pc = r.pc + BitVec.ofNat 32 (4 * (k + 1)) := by
  induction h generalizing k with
  | last word stop =>
    cases k with
    | zero =>
      obtain rfl : _ = x := by simpa using hx
      rfl
    -- The last instruction has no successor in the list.
    | succ k => simp at hx
  | @branch r last code o branches word take rest ih =>
    cases k with
    | zero =>
      obtain rfl : _ = x := by simpa using hx
      rfl
    | succ k =>
      -- Instruction `k` of the rest, which starts four bytes on.
      have hk := ih k (by simpa using hx)
      have hslot : (o.slot (r.dispatch code)).pc = r.pc + 4 := (o.link_quiet _).pc
      -- Four bytes for the branch in front, and four for each one behind it.
      have hsum : 4 * (k + 1 + 1) = 4 + 4 * (k + 1) := by omega
      rw [hk, hslot, hsum, BitVec.ofNat_add, BitVec.add_assoc]
      rfl

/-- Every branch of the chain is taken. -/
theorem DelayChain.takenBranch (h : DelayChain memory r branches last) {x : CpuRegisters}
    (hx : x ∈ branches) : ∃ o, x.takenBranch = some o := by
  induction h with
  | last word stop => cases hx
  | branch word take rest ih =>
    rcases List.mem_cons.mp hx with rfl | hx
    · exact ⟨_, take⟩
    · exact ih hx

/-- An instruction of the chain is the word in front of its program counter. -/
theorem DelayChain.word (h : DelayChain memory r branches last) {x : CpuRegisters}
    (hx : x ∈ branches ++ [last]) : fetchWord memory (x.pc - 4) = some x.code := by
  -- The word of an instruction lies in front of the next one.
  have hdispatch : ∀ (r : CpuRegisters) (code : U32), (r.dispatch code).pc - 4 = r.pc :=
    fun r code => BitVec.add_sub_cancel r.pc 4
  induction h with
  | @last r code word stop =>
    obtain rfl := List.mem_singleton.mp hx
    rw [hdispatch]
    exact word
  | @branch r last code o branches word take rest ih =>
    rcases List.mem_cons.mp hx with rfl | hx
    · rw [hdispatch]
      exact word
    · exact ih hx

/-- The last instruction of the chain is not a branch that is taken. -/
theorem DelayChain.stop (h : DelayChain memory r branches last) : last.takenBranch = none := by
  induction h with
  | last word stop => exact stop
  | branch word take rest ih => exact ih

/-- Each instruction after a branch sees the return address the branch left. -/
theorem DelayChain.linked (h : DelayChain memory r branches last) (k : Nat) {x y : CpuRegisters}
    {o : BranchOp} (hx : (branches ++ [last])[k]? = some x) (ho : x.takenBranch = some o)
    (hy : (branches ++ [last])[k + 1]? = some y) : y.GPR = (o.link x).GPR := by
  induction h generalizing k with
  -- Behind the last instruction there is none that could see a return address.
  | last word stop => simp at hy
  | @branch r last code o' branches word take rest ih =>
    cases k with
    | zero =>
      obtain rfl : _ = x := by simpa using hx
      cases ho.symm.trans take
      -- The next instruction is the first one of the rest, of either kind.
      cases rest with
      | last word' stop' =>
        obtain rfl : _ = y := by simpa using hy
        rfl
      | branch word' take' rest' =>
        obtain rfl : _ = y := by simpa using hy
        rfl
    | succ k => exact ih k (by simpa using hx) (by simpa using hy)

/-- A branch in front is final only if none follows. -/
theorem finalTarget_cons {b : CpuRegisters} {o : BranchOp} (hb : b.takenBranch = some o)
    (bs : List CpuRegisters) : finalTarget (b :: bs) = (finalTarget bs).or (some (o.dest b)) := by
  simp [finalTarget, hb]

/-- The last branch of a chain is final. -/
theorem finalTarget_concat (xs : List CpuRegisters) {b : CpuRegisters} {o : BranchOp}
    (hb : b.takenBranch = some o) : finalTarget (xs ++ [b]) = some (o.dest b) := by
  induction xs with
  | nil => simp [finalTarget, hb]
  | cons x xs ih => simp [finalTarget, ih]

end Chain

/-! ### A call executes its delay chain -/

/-- The fetch leaves memory alone. -/
theorem Fetched.memory {s s₀ : Machine} (h : Fetched s s₀) : s₀.memory = s.memory := by
  obtain ⟨new, hnew, hext⟩ := h.history
  rw [hext.memory]
  funext m
  apply replay_of_not_hits
  -- Neither the dispatch nor a message is a store.
  rintro ⟨e, he, hm⟩
  rcases List.mem_cons.mp he with rfl | he
  · exact hm
  · obtain ⟨msg, rfl⟩ := hnew e he
    exact hm

/-- Nothing but the dispatch is executed by a fetch. -/
theorem Fetched.executed {s s₀ : Machine} (h : Fetched s s₀) : Executed s s₀ [s₀.cpu] := by
  obtain ⟨new, hnew, hext⟩ := h.history
  refine ⟨_, hext.log, ?_⟩
  have hnone : new.filterMap Event.dispatched? = [] := by
    rw [List.filterMap_eq_nil_iff]
    intro e he
    obtain ⟨msg, rfl⟩ := hnew e he
    rfl
  simp [Event.dispatched?, hnone]

/-- The instructions of two parts, in turn. -/
theorem Executed.trans {s₁ s₂ s₃ : Machine} {xs ys : List CpuRegisters} (h : Executed s₁ s₂ xs)
    (h' : Executed s₂ s₃ ys) : Executed s₁ s₃ (xs ++ ys) := by
  obtain ⟨new, hlog, rfl⟩ := h
  obtain ⟨new', hlog', rfl⟩ := h'
  refine ⟨new' ++ new, by rw [hlog', hlog, List.append_assoc], ?_⟩
  rw [List.filterMap_append, List.reverse_append]

/-- The history tells what is executed. -/
theorem Executed.unique {s s' : Machine} {xs ys : List CpuRegisters} (h : Executed s s' xs)
    (h' : Executed s s' ys) : xs = ys := by
  obtain ⟨new, hlog, rfl⟩ := h
  obtain ⟨new', hlog', rfl⟩ := h'
  rw [List.append_cancel_right (hlog.symm.trans hlog')]

/-- A stretch of the history without dispatches. -/
theorem Executed.of_none {s s' : Machine} {new : List Event} (hlog : s'.log = new ++ s.log)
    (hnew : ∀ e ∈ new, e.dispatched? = none) : Executed s s' [] :=
  ⟨new, hlog, by rw [List.filterMap_eq_nil_iff.mpr hnew]; rfl⟩

/-- The jump prints at most one message. -/
theorem leaveSlot_log (s : Machine) :
    ∃ new, (∀ e ∈ new, ∃ msg, e = .printed msg) ∧ Extends new s s.leaveSlot := by
  unfold Machine.leaveSlot
  split
  · refine ⟨[_], ?_, .of_cons ?_ ⟨rfl, rfl, rfl⟩⟩
    · intro e he
      exact ⟨_, List.mem_singleton.mp he⟩
    · simp
  · exact ⟨[], by simp, .of_eq ⟨rfl, rfl, rfl⟩⟩

/-- Of the registers, it sets the program counter and leaves the delay slot. -/
theorem leaveSlot_cpu (s : Machine) :
    s.leaveSlot.cpu = { s.cpu with branch := 0, pc := s.branchPC.setWidth 32 } := by
  unfold Machine.leaveSlot
  split <;> rfl

/-- It keeps the target and memory. -/
theorem leaveSlot_branchPC (s : Machine) :
    s.leaveSlot.branchPC = s.branchPC := by
  unfold Machine.leaveSlot
  split <;> rfl

theorem leaveSlot_memory (s : Machine) : s.leaveSlot.memory = s.memory := by
  unfold Machine.leaveSlot
  split <;> rfl

/-- The effect of the last instruction of a chain: it runs with the registers `last` on the memory
of the start, and what it leaves in the registers and in memory is what the call leaves there. -/
def LastEffect (host : Host) (s s' : Machine) (last : CpuRegisters) : Prop :=
  ∃ (s₀ s₁ : Machine) (report : U32 → M Unit) (execI : M Unit),
    s₀.cpu = last ∧ s₀.memory = s.memory ∧
    (decode last.code).run host report execI s₀ = .ok () s₁ ∧
    s'.cpu.GPR = s₁.cpu.GPR ∧ s'.cpu.HI = s₁.cpu.HI ∧ s'.cpu.LO = s₁.cpu.LO ∧
    s'.memory = s₁.memory

/-- A call from `s` to `s'` executes the chain `branches`, `last`. -/
structure Call (host : Host) (s s' : Machine) (branches : List CpuRegisters) (last : CpuRegisters) :
    Prop where
  chain : DelayChain s.memory s.cpu branches last
  executed : Executed s s' (branches ++ [last])
  pc : s'.cpu.pc = (finalTarget branches).getD last.nextPc
  branchPC : s'.branchPC = ((finalTarget branches).map (BitVec.setWidth 64)).getD s.branchPC
  cycle : s'.cpu.cycle = s.cpu.cycle + BitVec.ofNat 32 (branches.length + 1)
  effect : LastEffect host s s' last
  /-- The lookup of the tag for the final target has found one. -/
  inside : ∀ T, finalTarget branches = some T → T.toNat < MEMSIZE

/-- An instruction that is no taken branch is a chain of its own. -/
theorem Fetched.chain_last {s s₀ : Machine} (h : Fetched s s₀) (stop : s₀.cpu.takenBranch = none) :
    DelayChain s.memory s.cpu [] s₀.cpu := by
  have hchain := DelayChain.last h.word (by rw [← h.cpu]; exact stop)
  rwa [← h.cpu] at hchain

/-- A taken branch in front of the chain of its delay slot. -/
theorem Fetched.chain_branch {s s₀ : Machine} {o : BranchOp} {branches : List CpuRegisters}
    {last : CpuRegisters} (h : Fetched s s₀) (take : s₀.cpu.takenBranch = some o)
    (rest : DelayChain (s₀.enterSlot o).memory (s₀.enterSlot o).cpu branches last) :
    DelayChain s.memory s.cpu (s₀.cpu :: branches) last := by
  change DelayChain s₀.memory (o.slot s₀.cpu) branches last at rest
  rw [h.memory] at rest
  have hchain := DelayChain.branch (r := s.cpu) (o := o) h.word (by rw [← h.cpu]; exact take)
    (by rw [← h.cpu]; exact rest)
  rwa [← h.cpu] at hchain

/-- An instruction that is no branch goes on behind itself. -/
theorem nextPc_of_ne {r : CpuRegisters} (h : ∀ o, decode r.code ≠ .branch o) : r.nextPc = r.pc := by
  unfold CpuRegisters.nextPc
  split
  · rename_i o ho
    exact absurd ho (h o)
  · rfl

/-- A branch that is not taken goes on behind itself, or behind its delay slot. -/
theorem nextPc_of_branch {r : CpuRegisters} {o : BranchOp} (h : decode r.code = .branch o) :
    r.nextPc = if o.likely then r.pc + 4 else r.pc := by
  unfold CpuRegisters.nextPc
  rw [h]

/-- So does its handler, which counts no cycle. -/
theorem BranchOp.skip_pc (o : BranchOp) (r : CpuRegisters) :
    (o.skip r).pc = if o.likely then r.pc + 4 else r.pc := by
  unfold BranchOp.skip
  split
  · rfl
  · exact (o.link_quiet r).pc

theorem BranchOp.skip_cycle (o : BranchOp) (r : CpuRegisters) : (o.skip r).cycle = r.cycle := by
  unfold BranchOp.skip
  split
  · exact (o.link_quiet r).cycle
  · exact (o.link_quiet r).cycle

/-- The call of an instruction that is not a taken branch. -/
theorem call_last {host : Host} {s s₀ s' : Machine} (fetched : Fetched s s₀)
    (stop : s₀.cpu.takenBranch = none) (hexec : Executed s₀ s' [])
    (hpc : s'.cpu.pc = s₀.cpu.nextPc) (hcycle : s'.cpu.cycle = s₀.cpu.cycle)
    (hbranchPC : s'.branchPC = s₀.branchPC) {report : U32 → M Unit} {execI : M Unit}
    (hrun : (decode s₀.cpu.code).run host report execI s₀ = .ok () s') :
    Call host s s' [] s₀.cpu where
  chain := fetched.chain_last stop
  executed := fetched.executed.trans hexec
  pc := hpc
  branchPC := hbranchPC.trans fetched.branchPC
  cycle := by
    rw [hcycle, fetched.cpu]
    rfl
  effect := ⟨s₀, s', report, execI, rfl, fetched.memory, hrun, rfl, rfl, rfl, rfl⟩
  inside := nofun

/-- The static branch target is that of the innermost branch once the delay slot has run. -/
theorem Call.finalTarget_of_slot {host : Host} {s₀ s₁ : Machine} {o : BranchOp}
    {branches : List CpuRegisters} {last : CpuRegisters}
    (h : Call host (s₀.enterSlot o) s₁ branches last) (take : s₀.cpu.takenBranch = some o) :
    finalTarget (s₀.cpu :: branches) = some (s₁.branchPC.setWidth 32) ∧
      s₁.branchPC = (s₁.branchPC.setWidth 32).setWidth 64 := by
  rw [h.branchPC, finalTarget_cons take]
  cases finalTarget branches with
  | none => simp [Machine.enterSlot]
  | some T => simp

/-- **Delay slots.** Every call executes its delay chain. -/
theorem Exec.call {host : Host} {s s' : Machine} (h : Exec host s s') :
    ∃ branches last, Call host s s' branches last := by
  -- Along the call: the chain of a taken branch is the branch and the chain of its delay slot.
  induction h with
  -- One instruction, which runs in the state after the fetch.
  | @straight s s₀ s' fetched hop run =>
    obtain ⟨report, execI, hrun⟩ := run
    have hbody := Op.run_straight hop hrun
    obtain ⟨new, hnew, hext⟩ := hbody.history
    refine ⟨[], s₀.cpu, call_last fetched (takenBranch_of_ne hop) (.of_none hext.log hnew) ?_
      hbody.quiet.cycle hbody.branchPC hrun⟩
    rw [hbody.quiet.pc, nextPc_of_ne hop]
  | @skipped s s₀ o fetched hop skip =>
    -- One branch, whose handler returns at once.
    have hrun : (decode s₀.cpu.code).run host (fun _ => Prog.diverge) Prog.diverge s₀ =
        .ok () { s₀ with cpu := o.skip s₀.cpu } := by
      rw [hop]
      change o.run Prog.diverge s₀ = _
      rw [BranchOp.run_eq, if_neg (by rw [skip]; decide)]
    refine ⟨[], s₀.cpu, call_last fetched (takenBranch_of_skipped hop skip) ⟨[], rfl, rfl⟩ ?_
      (o.skip_cycle s₀.cpu) rfl hrun⟩
    rw [nextPc_of_branch hop]
    exact o.skip_pc s₀.cpu
  | @jumped s s₀ s₁ o fetched hop take slot inside ih =>
    obtain ⟨branches, last, hslot⟩ := ih
    have htaken := takenBranch_of_taken hop take
    -- The slot ends where its own last branch goes, or where this one does.
    obtain ⟨htarget, hbranchPC⟩ := hslot.finalTarget_of_slot htaken
    obtain ⟨printed, hprinted, hleave⟩ := leaveSlot_log s₁
    obtain ⟨sl, sl', report, execI, hcpu, hmem, hrun, hgpr, hhi, hlo, hmem'⟩ := hslot.effect
    refine ⟨s₀.cpu :: branches, last, fetched.chain_branch htaken hslot.chain, ?_, ?_, ?_, ?_, ?_,
      fun T hT => ?_⟩
    · -- Executed are the branch, the chain of the slot, and nothing by the jump.
      have hin : Executed s s₁ ([s₀.cpu] ++ (branches ++ [last])) :=
        fetched.executed.trans hslot.executed
      have hout : Executed s₁ s₁.leaveSlot [] := by
        refine .of_none hleave.log ?_
        intro e he
        obtain ⟨msg, rfl⟩ := hprinted e he
        rfl
      simpa using hin.trans hout
    · rw [leaveSlot_cpu, htarget]
      rfl
    · rw [leaveSlot_branchPC, htarget]
      exact hbranchPC
    · -- One cycle for the branch, the others in the slot.
      rw [leaveSlot_cpu]
      change s₁.cpu.cycle = _
      have hslotCycle : (s₀.enterSlot o).cpu.cycle = s.cpu.cycle + 1 := by
        change (o.slot s₀.cpu).cycle = _
        rw [show (o.slot s₀.cpu).cycle = s₀.cpu.cycle from (o.link_quiet s₀.cpu).cycle, fetched.cpu]
        rfl
      have hsum : (s₀.cpu :: branches).length + 1 = 1 + (branches.length + 1) := by
        rw [List.length_cons]
        omega
      rw [hslot.cycle, hslotCycle, hsum, BitVec.ofNat_add (x := 1), BitVec.add_assoc]
      rfl
    · -- The jump after the slot writes neither general registers nor memory.
      refine ⟨sl, sl', report, execI, hcpu, ?_, hrun, ?_, ?_, ?_, ?_⟩
      · exact hmem.trans fetched.memory
      · rw [leaveSlot_cpu]; exact hgpr
      · rw [leaveSlot_cpu]; exact hhi
      · rw [leaveSlot_cpu]; exact hlo
      · rw [leaveSlot_memory]; exact hmem'
    · -- The target looked up is the final one.
      rw [htarget] at hT
      cases hT
      exact inside

/-- **Branch and delay-slot semantics.** A call that returns executes its delay chain: the
instructions at `A`, `A + 4`, … with `A` the program counter at entry, each once and in this order,
up to the first one that is not a taken branch; each sees the return address the one before it left,
which is the address of that one plus eight.
The final program counter is the target of the last branch of the chain; with no branch taken it is
`A + 8` after a likely branch and `A + 4` otherwise. The cycle count grows by the number of
instructions, and registers and memory are left as the last instruction leaves them. -/
theorem execI_delay_slots {host : Host} {s s' : Machine} (h : Returns host s s') :
    ∃ branches last,
      DelayChain s.memory s.cpu branches last ∧
      Executed s s' (branches ++ [last]) ∧
      (∀ k x, (branches ++ [last])[k]? = some x →
        x.pc = s.cpu.pc + BitVec.ofNat 32 (4 * (k + 1))) ∧
      (∀ k x y o, (branches ++ [last])[k]? = some x → x.takenBranch = some o →
        (branches ++ [last])[k + 1]? = some y → y.GPR = (o.link x).GPR ∧
          ∀ i, o.linkRegister x = some i →
            UD 0 (y.GPR i) = (s.cpu.pc + BitVec.ofNat 32 (4 * k + 8)).setWidth 64) ∧
      (∀ b o, branches.getLast? = some b → b.takenBranch = some o → s'.cpu.pc = o.dest b) ∧
      (branches = [] → ∀ o, decode last.code = .branch o →
        s'.cpu.pc = if o.likely then s.cpu.pc + 8 else s.cpu.pc + 4) ∧
      (branches = [] → (∀ o, decode last.code ≠ .branch o) → s'.cpu.pc = s.cpu.pc + 4) ∧
      s'.cpu.cycle = s.cpu.cycle + BitVec.ofNat 32 (branches ++ [last]).length ∧
      LastEffect host s s' last := by
  obtain ⟨branches, last, hcall⟩ := h.exec.call
  -- The last instruction of a chain without branches is the one at `A`.
  have hlast : branches = [] → last.pc = s.cpu.pc + 4 := by
    rintro rfl
    exact hcall.chain.address 0 rfl
  refine ⟨branches, last, hcall.chain, hcall.executed, fun k x hx => hcall.chain.address k hx,
    fun k x y o hx ho hy => ⟨hcall.chain.linked k hx ho hy, fun i hi => ?_⟩, ?_, ?_, ?_, ?_,
    hcall.effect⟩
  · -- the return address
    have hpc : x.pc + 4 = s.cpu.pc + BitVec.ofNat 32 (4 * k + 8) := by
      rw [hcall.chain.address k hx, BitVec.add_assoc, show 4 * k + 8 = 4 * (k + 1) + 4 by omega,
        BitVec.ofNat_add (y := 4)]
      rfl
    rw [hcall.chain.linked k hx ho hy, BranchOp.link_of_linkRegister hi, ← hpc]
    unfold CpuRegisters.setLink CpuRegisters.setLane
    rw [CpuRegisters.setGPR_GPR_self]
    exact lane_setLane_self 0 _ _ (by decide)
  · -- the target of the last branch
    intro b o hb ho
    obtain ⟨init, rfl⟩ : ∃ init, branches = init ++ [b] := by
      rw [List.getLast?_eq_some_iff] at hb
      exact hb
    rw [hcall.pc, finalTarget_concat init ho]
    rfl
  · -- a single branch that is not taken
    intro hnil o ho
    have hpc := hcall.pc
    rw [nextPc_of_branch ho, hlast hnil] at hpc
    subst hnil
    rw [hpc]
    change (if o.likely then s.cpu.pc + 4 + 4 else s.cpu.pc + 4) = _
    rw [BitVec.add_assoc]
    rfl
  · -- a single instruction of another kind
    intro hnil hop
    have hpc := hcall.pc
    rw [nextPc_of_ne hop, hlast hnil] at hpc
    subst hnil
    exact hpc
  · rw [hcall.cycle, List.length_append]
    rfl

/-- `jal 0x200` at `0x100`, with `addu v0, ra, r0` in its delay slot. -/
theorem execI_delay_slots_jal : ∃ s' branches last,
    s'.cpu.pc = 0x200 ∧ UD 0 (last.GPR 31) = 0x108 ∧ UD 0 (s'.cpu.GPR 2) = 0x108 ∧
    DelayChain (program 0x100 [0x0c000080, 0x03e01021]) (CpuRegisters.zeroed 0x100) branches last ∧
    Executed (Machine.start (program 0x100 [0x0c000080, 0x03e01021]) 0x100 false) s'
      (branches ++ [last]) := by
  have hchain := @DelayChain.branch (program 0x100 [0x0c000080, 0x03e01021])
    (CpuRegisters.zeroed 0x100) _ 0x0c000080 .JAL [] rfl rfl
    (@DelayChain.last _ _ 0x03e01021 rfl rfl)
  obtain ⟨branches, last, hchain', hexec, -, hlinked, -⟩ :=
    @execI_delay_slots .flat (Machine.start (program 0x100 [0x0c000080, 0x03e01021]) 0x100 false) _
      ⟨0, 2, rfl⟩
  obtain ⟨rfl, rfl⟩ := hchain.unique hchain'
  exact ⟨_, _, _, by decide, (hlinked 0 _ _ .JAL rfl rfl rfl).2 31 rfl, by decide, hchain', hexec⟩

end Ps2Unpacker
