import Ps2Unpacker.Properties.EntryPoint
import Ps2Unpacker.Properties.Reproducible
import Ps2Unpacker.Semantics.Architecture

/-!
# The interpreter refines the machine

`execI` runs the delay slot of a branch by a call of itself. The machine it stands for remembers the
target for one instruction instead. As long as the program it emulates is `Orderly`, the two are the
same: no branch stands in a delay slot, and `SQ` is not used. A branch that leaves main memory is
defined in neither.

* `orderlyCall_iff`: an orderly call of the interpreter is a leap of the machine, an instruction
  with its delay slot, and every leap is one.
* `refines_arch`: orderly runs reach exactly the states the machine reaches, instruction by
  instruction.
* `emulate_arch`: the loop of `main` ends, after an orderly run, exactly where the machine, leap by
  leap, first knows an entry point.
-/

namespace Ps2Unpacker

open CProg Delayed

/-! ### Orderly instructions -/

def Op.isBranch : Op → Bool
  | .branch _ => true
  | _ => false

/-- No branch: none of the branch instructions. -/
theorem Op.isBranch_eq_false {op : Op} : op.isBranch = false ↔ ∀ o, op ≠ .branch o := by
  cases op with
  | branch o => exact ⟨nofun, fun h => absurd rfl (h o)⟩
  | register | memory | COP0 | SYSCALL | BREAK | UnknownOpcode | MMI_Unknown =>
    exact ⟨fun _ => nofun, fun _ => rfl⟩

instance (op : Op) : Decidable (∀ o, op ≠ .branch o) := decidable_of_iff _ Op.isBranch_eq_false

/-- The instruction that is dispatched with `r` is portable, and not a branch in a delay slot. -/
def CpuRegisters.Orderly (r : CpuRegisters) : Prop :=
  r.Portable ∧ (r.branch ≠ 0 → ∀ o, decode r.code ≠ .branch o)

/-- All instructions executed so far are. -/
def Machine.Orderly (s : Machine) : Prop := ∀ r, .exec r ∈ s.log → r.Orderly

instance (r : CpuRegisters) : Decidable r.Orderly := inferInstanceAs (Decidable (_ ∧ (_ → _)))

/-- Orderly by the list of the instructions executed. -/
theorem Machine.orderly_iff {s : Machine} :
    s.Orderly ↔ ∀ r ∈ s.log.filterMap Event.dispatched?, r.Orderly := by
  refine forall_congr' fun r => imp_congr_left ?_
  rw [mem_dispatched]

instance (s : Machine) : Decidable s.Orderly := decidable_of_iff _ s.orderly_iff.symm

/-- A call of the interpreter that executes orderly instructions. -/
def OrderlyCall (host : Host) (s s' : Machine) : Prop :=
  Returns host s s' ∧ ∃ xs, Executed s s' xs ∧ ∀ x ∈ xs, x.Orderly

/-- The fetch does not enter or leave a delay slot. -/
theorem Fetched.branch {s s₀ : Machine} (h : Fetched s s₀) : s₀.cpu.branch = s.cpu.branch :=
  (congrArg CpuRegisters.branch h.cpu).trans rfl

/-! ### A call is a leap -/

/-- The machine executes the word at its program counter. -/
theorem exec_of_word {a : Arch} {code : U32} (h : fetchWord a.memory a.cpu.pc = some code) :
    a.exec = match decode code with
      | .branch o => a.branch o (a.cpu.dispatch code)
      | o => (o.effect { a with cpu := a.cpu.dispatch code }).map fun p => (p.2, .next) := by
  unfold Arch.exec
  rw [h]
  rfl

/-- The instruction after a fetch, if it is not a branch. -/
theorem exec_of_straight {s s₀ : Machine} (fetched : Fetched s s₀)
    (hop : ∀ o, decode s₀.cpu.code ≠ .branch o) :
    s.arch.exec = ((decode s₀.cpu.code).effect s₀.arch).map fun p => (p.2, .next) := by
  rw [exec_of_word (a := s.arch) fetched.word, fetched.arch]
  cases hd : decode s₀.cpu.code with
  | branch o => exact absurd hd (hop o)
  | _ => rfl

/-- If it is one. -/
theorem exec_of_branch {s s₀ : Machine} {o : BranchOp} (fetched : Fetched s s₀)
    (hop : decode s₀.cpu.code = .branch o) : s.arch.exec = s₀.arch.branch o s₀.cpu := by
  rw [exec_of_word (a := s.arch) fetched.word, fetched.arch, hop]
  dsimp only
  rw [show s.arch.cpu = s.cpu from rfl, ← fetched.cpu]
  unfold Arch.branch
  rfl

/-- A branch that is taken, outside of delay slots. -/
theorem exec_of_taken {s s₀ : Machine} {o : BranchOp} (fetched : Fetched s s₀)
    (hs : s.cpu.branch = 0) (hop : decode s₀.cpu.code = .branch o)
    (take : o.taken s₀.cpu = true) :
    s.arch.exec = if (o.dest s₀.cpu).toNat < MEMSIZE then
      some ((s₀.enterSlot o).arch, .goto (o.dest s₀.cpu)) else none := by
  have hzero : ¬s₀.cpu.branch ≠ 0 := not_not_intro (fetched.branch.trans hs)
  rw [exec_of_branch fetched hop]
  unfold Arch.branch
  rw [if_neg hzero, if_pos take]
  rfl

/-- A branch that is not taken, with the instruction passed over if it is likely. -/
theorem leap_of_skipped {s s₀ : Machine} {o : BranchOp} (fetched : Fetched s s₀)
    (hs : s.cpu.branch = 0) (hop : decode s₀.cpu.code = .branch o)
    (skip : o.taken s₀.cpu = false) :
    Arch.sequencer.leap s.arch = some { s₀ with cpu := o.skip s₀.cpu }.arch := by
  have hexec : Arch.sequencer.exec s.arch =
      some ({ s₀.arch with cpu := o.link s₀.cpu }, if o.likely then .annul else .next) := by
    have hzero : ¬s₀.cpu.branch ≠ 0 := not_not_intro (fetched.branch.trans hs)
    -- Outside a slot the branch is allowed.
    change s.arch.exec = _
    rw [exec_of_branch fetched hop]
    unfold Arch.branch
    rw [if_neg hzero, skip]
    rfl
  -- The likely branches pass over the slot, the others go on into it.
  unfold BranchOp.skip
  by_cases hlikely : o.likely = true
  · rw [if_pos hlikely] at hexec ⊢
    rw [Sequencer.leap_of_annul hexec]
    change some { s₀.arch with cpu := { o.link s₀.cpu with pc := (o.link s₀.cpu).pc + 4 } } = _
    rw [(o.link_quiet s₀.cpu).pc]
    rfl
  · rw [if_neg hlikely] at hexec ⊢
    exact Sequencer.leap_of_next hexec

/-- The jump out of a delay slot, to main memory. -/
theorem leaveSlot_arch (s : Machine)
    (hlt : (s.branchPC.setWidth 32).toNat < MEMSIZE) :
    s.leaveSlot.arch = s.arch.jump (s.branchPC.setWidth 32) := by
  -- The jump writes nothing.
  have hwritten : s.leaveSlot.Written = s.Written := by
    funext m
    obtain ⟨new, hnew, hext⟩ := leaveSlot_log s
    have hnone : ¬∃ e ∈ new, e.hits m := by
      rintro ⟨e, he, hm⟩
      obtain ⟨msg, rfl⟩ := hnew e he
      exact hm
    exact propext ((hext.written m).trans (or_iff_left hnone))
  -- What the machine knows of the target is what the tags say.
  have hwrote : s.arch.wrote (s.branchPC.setWidth 32) = true ↔
      hasWrite s (s.branchPC.setWidth 32) = some true := by
    unfold Arch.wrote
    rw [dif_pos hlt, hasWrite_of_lt s hlt, Option.some.injEq]
    rfl
  unfold Machine.arch Arch.jump
  rw [leaveSlot_cpu, leaveSlot_memory, leaveSlot_bouncePc s]
  congr 1
  · funext m
    exact decide_eq_decide.mpr (by rw [hwritten])
  · exact if_congr hwrote.symm rfl rfl

section Calls

variable {host : Host} {s s₀ s' : Machine}

/-- An instruction that is neither a branch nor `SQ`. -/
theorem straight_effect (hop : ∀ o, decode s₀.cpu.code ≠ .branch o)
    (hSQ : decode s₀.cpu.code ≠ .memory .SQ)
    (run : ∃ report execI, (decode s₀.cpu.code).run host report execI s₀ = .ok () s') :
    (decode s₀.cpu.code).effect s₀.arch = some ((), s'.arch) := by
  obtain ⟨report, execI, hrun⟩ := run
  exact (Op.run_seenAs report host execI hop hSQ).of_ok hrun

/-- What the interpreter runs, the machine executes. -/
theorem exec_of_run (fetched : Fetched s s₀) (hop : ∀ o, decode s₀.cpu.code ≠ .branch o)
    (hSQ : decode s₀.cpu.code ≠ .memory .SQ)
    (run : ∃ report execI, (decode s₀.cpu.code).run host report execI s₀ = .ok () s') :
    Arch.sequencer.exec s.arch = some (s'.arch, .next) := by
  change s.arch.exec = _
  rw [exec_of_straight fetched hop, straight_effect hop hSQ run]
  rfl

/-- What a part of a call executes, the call executes. -/
theorem Executed.subset {s t s' : Machine} {ps xs : List CpuRegisters} {new : List Event}
    (h : Executed s t ps) (hlog : s'.log = new ++ t.log) (hxs : Executed s s' xs) : ps ⊆ xs := by
  obtain ⟨new₁, hlog₁, rfl⟩ := h
  obtain ⟨new₂, hlog₂, rfl⟩ := hxs
  have hnew : new₂ = new ++ new₁ := by
    rw [← List.append_left_inj s.log, ← hlog₂, hlog, hlog₁, List.append_assoc]
  intro p hp
  rw [hnew, List.filterMap_append, List.reverse_append]
  exact List.mem_append_left _ hp

/-- The orderly call for a delay slot is one instruction, and not a branch. -/
theorem Exec.in_slot (h : Exec host s s') (hs : s.cpu.branch ≠ 0) {xs : List CpuRegisters}
    (hxs : Executed s s' xs) (horderly : ∀ x ∈ xs, x.Orderly) :
    Arch.sequencer.exec s.arch = some (s'.arch, .next) ∧ s'.branchPC = s.branchPC := by
  -- The first instruction of the call is executed, so it is orderly.
  have hfirst : ∀ {s₀ : Machine} {l : List Event}, Fetched s s₀ → s'.log = l ++ s₀.log →
      s₀.cpu.Portable ∧ ∀ o, decode s₀.cpu.code ≠ .branch o := by
    intro s₀ l fetched hlog
    obtain ⟨hportable, hbranch⟩ := horderly _ (fetched.executed.subset hlog hxs List.mem_cons_self)
    exact ⟨hportable, hbranch (by rwa [fetched.branch])⟩
  cases h with
  -- The instruction of a slot: one step that is not a branch.
  | @straight _ s₀ _ fetched hop run =>
    obtain ⟨report, execI, hrun⟩ := run
    have hbody := Op.run_straight hop hrun
    obtain ⟨new, -, hext⟩ := hbody.history
    obtain ⟨hportable, -⟩ := hfirst fetched hext.log
    exact ⟨exec_of_run fetched hop hportable ⟨report, execI, hrun⟩,
      hbody.branchPC.trans fetched.branchPC⟩
  -- A branch in a slot is not orderly.
  | skipped fetched hop skip => exact absurd hop ((hfirst (l := []) fetched rfl).2 _)
  | @jumped _ s₀ s₁ o fetched hop take slot inside =>
    obtain ⟨new, hslot⟩ := slot.history
    obtain ⟨new', -, hleave⟩ := leaveSlot_log s₁
    have hlog : s₁.leaveSlot.log = (new' ++ new) ++ s₀.log := by
      rw [hleave.log, hslot.log, List.append_assoc]
      rfl
    exact absurd hop ((hfirst fetched hlog).2 _)

/-- **An orderly call** is a leap. -/
theorem Exec.leap (h : Exec host s s') (hs : s.cpu.branch = 0) {xs : List CpuRegisters}
    (hxs : Executed s s' xs) (horderly : ∀ x ∈ xs, x.Orderly) :
    Arch.sequencer.Leap s.arch s'.arch := by
  cases h with
  -- One instruction.
  | @straight _ s₀ _ fetched hop run =>
    obtain ⟨report, execI, hrun⟩ := run
    obtain ⟨new, -, hbody⟩ := (Op.run_straight hop hrun).history
    have hx := horderly _ (fetched.executed.subset hbody.log hxs List.mem_cons_self)
    exact Sequencer.leap_of_next (exec_of_run fetched hop hx.1 ⟨report, execI, hrun⟩)
  -- One instruction, and the one after it passed over.
  | skipped fetched hop skip => exact leap_of_skipped fetched hs hop skip
  -- The branch, its slot and the jump.
  | @jumped _ s₀ s₁ o fetched hop take slot inside =>
    obtain ⟨new, hslot⟩ := slot.history
    obtain ⟨new', -, hleave⟩ := leaveSlot_log s₁
    -- What is executed is the branch, and what its delay slot executes.
    have henter : Executed s₀ (s₀.enterSlot o) [] := ⟨[], rfl, rfl⟩
    have hsub := ((fetched.executed.trans henter).trans ⟨new, hslot.log, rfl⟩).subset hleave.log hxs
    -- The slot holds one orderly instruction, which leaves the target alone.
    obtain ⟨hexec, hbranchPC⟩ := slot.in_slot (by change (1 : Int) ≠ 0; decide)
      ⟨new, hslot.log, rfl⟩ fun x hx => horderly x (hsub (List.mem_append_right _ hx))
    have htarget : s₁.branchPC.setWidth 32 = o.dest s₀.cpu := by
      rw [hbranchPC]
      change ((o.dest s₀.cpu).setWidth 64).setWidth 32 = _
      rw [BitVec.setWidth_setWidth_of_le _ (by decide), BitVec.setWidth_eq]
    -- So the machine goes where the branch says.
    have hgoto : Arch.sequencer.exec s.arch =
        some ((s₀.enterSlot o).arch, .goto (o.dest s₀.cpu)) := by
      change s.arch.exec = _
      rw [exec_of_taken fetched hs hop take, if_pos (by rwa [← htarget])]
    refine (Sequencer.leap_of_goto hgoto).trans (Sequencer.slot_eq_some.mpr ⟨s₁.arch, hexec, ?_⟩)
    rw [leaveSlot_arch s₁ inside, htarget]
    rfl

/-! ### A leap is a call -/

/-- The machine executes only what can be fetched. -/
theorem fetch_of_exec {b : Arch} {c : Control U32} (h : s.arch.exec = some (b, c)) :
    ∃ s₀, fetch (dumpasm 0) s = .ok () s₀ ∧ Fetched s s₀ := by
  obtain ⟨code, hcode, -⟩ := Option.bind_eq_some_iff.mp h
  have hreturns : ∃ s₀, fetch (dumpasm 0) s = .ok () s₀ := fetch_returns_iff.mpr ⟨code, hcode⟩
  obtain ⟨s₀, hfetch⟩ := hreturns
  exact ⟨s₀, hfetch, fetch_ensures _ hfetch⟩

/-- What the machine executes as an instruction other than a branch, the interpreter executes. -/
theorem straight_returns (host : Host) {b : Arch} {c : Control U32}
    (hfetch : fetch (dumpasm 0) s = .ok () s₀) (hop : ∀ o, decode s₀.cpu.code ≠ .branch o)
    (h : s.arch.exec = some (b, c)) (n : Nat) :
    c = .next ∧ s₀.cpu.Orderly ∧ ∃ s', execI host (dumpasm 0) (n + 1) s = .ok () s' ∧
      s'.arch = b ∧ s'.branchPC = s.branchPC ∧ Executed s s' [s₀.cpu] := by
  have fetched := fetch_ensures _ hfetch
  rw [exec_of_straight fetched hop, Option.map_eq_some_iff] at h
  obtain ⟨⟨u, a⟩, heffect, heq⟩ := h
  cases heq
  -- The machine has no effect for `SQ`, so it is none.
  have hSQ : decode s₀.cpu.code ≠ .memory .SQ := by
    intro hd
    rw [hd] at heffect
    cases heffect
  obtain ⟨s', hrun, harch⟩ := (Op.run_seenAs (dumpasm 0) host (execI host (dumpasm 0) n) hop
    hSQ).returns heffect
  have hbody := Op.run_straight hop hrun
  obtain ⟨new, hnew, hext⟩ := hbody.history
  exact ⟨rfl, ⟨hSQ, fun _ => hop⟩, s', (Prog.bind_ok_of hfetch).trans hrun, harch,
    hbody.branchPC.trans fetched.branchPC, fetched.executed.trans (.of_none hext.log hnew)⟩

/-- In a delay slot the machine executes no branch. -/
theorem exec_in_slot (hs : s.cpu.branch ≠ 0) (fetched : Fetched s s₀) {o : BranchOp}
    (hop : decode s₀.cpu.code = .branch o) : s.arch.exec = none := by
  have hne : s₀.cpu.branch ≠ 0 := by rwa [fetched.branch]
  rw [exec_of_branch fetched hop]
  unfold Arch.branch
  rw [if_pos hne]

/-- A leap that starts with a branch that is taken. -/
theorem call_of_taken (host : Host) (hs : s.cpu.branch = 0) {a : Arch} {o : BranchOp}
    (hfetch : fetch (dumpasm 0) s = .ok () s₀) (hop : decode s₀.cpu.code = .branch o)
    (take : o.taken s₀.cpu = true) (h : Arch.sequencer.Leap s.arch a) :
    ∃ s' xs, (execI host (dumpasm 0) 1 >>= fun _ => Handler.finishBranch)
        (s₀.enterSlot o) = .ok () s' ∧
      Executed s s' xs ∧ (∀ x ∈ xs, x.Orderly) ∧ s'.arch = a := by
  have fetched := fetch_ensures _ hfetch
  have hexec := exec_of_taken fetched hs hop take
  -- The machine has no jump out of memory.
  have hdest : (o.dest s₀.cpu).toNat < MEMSIZE := by
    by_contra hge
    rw [if_neg hge] at hexec
    obtain ⟨p, hp, -⟩ := Option.bind_eq_some_iff.mp h
    cases hexec.symm.trans hp
  rw [if_pos hdest] at hexec
  obtain ⟨y, hslot, rfl⟩ := Sequencer.slot_eq_some.mp
    ((Sequencer.leap_of_goto (q := Arch.sequencer) hexec).symm.trans h)
  -- The delay slot holds an instruction that is not a branch.
  obtain ⟨s₂, hfetch₂, fetched₂⟩ := fetch_of_exec hslot
  have hop₂ : ∀ o', decode s₂.cpu.code ≠ .branch o' := by
    intro o' ho'
    have hnone := exec_in_slot (by change (1 : Int) ≠ 0; decide) fetched₂ ho'
    cases hnone.symm.trans hslot
  obtain ⟨-, hsecond, s₁, hrun, rfl, hbranchPC, hexecuted⟩ :=
    straight_returns host hfetch₂ hop₂ hslot 0
  -- The target is that of the branch, kept across the slot.
  have htarget : s₁.branchPC.setWidth 32 = o.dest s₀.cpu := by
    rw [hbranchPC]
    change ((o.dest s₀.cpu).setWidth 64).setWidth 32 = _
    rw [BitVec.setWidth_setWidth_of_le _ (by decide), BitVec.setWidth_eq]
  have henter : Executed s₀ (s₀.enterSlot o) [] := ⟨[], rfl, rfl⟩
  obtain ⟨new, hnew, hleave⟩ := leaveSlot_log s₁
  have hout : Executed s₁ s₁.leaveSlot [] := by
    refine .of_none hleave.log fun e he => ?_
    obtain ⟨msg, rfl⟩ := hnew e he
    -- The outward jump enters nothing.
    rfl
  have inside : (s₁.branchPC.setWidth 32).toNat < MEMSIZE := by rwa [htarget]
  refine ⟨s₁.leaveSlot, [s₀.cpu, s₂.cpu],
    (Prog.bind_ok_of hrun).trans (finishBranch_of_lt inside),
    ((fetched.executed.trans henter).trans hexecuted).trans hout, ?_, ?_⟩
  · -- The branch is orderly, and so is the instruction in its delay slot.
    have hfirst : s₀.cpu.Orderly :=
      ⟨.of_branch hop, fun hne => absurd (fetched.branch.trans hs) hne⟩
    intro x hx
    rcases List.mem_cons.mp hx with rfl | hx
    · exact hfirst
    · rwa [List.mem_singleton.mp hx]
  · rw [leaveSlot_arch s₁ inside, htarget]
    rfl

/-- **A leap** is an orderly call. -/
theorem call_of_leap (host : Host) (hs : s.cpu.branch = 0) {a : Arch}
    (h : Arch.sequencer.Leap s.arch a) :
    ∃ s' xs, execI host (dumpasm 0) 2 s = .ok () s' ∧ Executed s s' xs ∧ (∀ x ∈ xs, x.Orderly) ∧
      s'.arch = a := by
  have hexec : ∃ b c, s.arch.exec = some (b, c) := by
    obtain ⟨⟨b, c⟩, hexec, -⟩ := Option.bind_eq_some_iff.mp h
    exact ⟨b, c, hexec⟩
  obtain ⟨b, c, hexec⟩ := hexec
  obtain ⟨s₀, hfetch, fetched⟩ := fetch_of_exec hexec
  by_cases hop : ∃ o, decode s₀.cpu.code = .branch o
  · obtain ⟨o, hop⟩ := hop
    have hzero : s₀.cpu.branch = 0 := fetched.branch.trans hs
    -- The call is the handler of the word fetched.
    have hcall : ∀ n, execI host (dumpasm 0) (n + 1) s =
        o.run (execI host (dumpasm 0) n) s₀ := by
      intro n
      refine (Prog.bind_ok_of hfetch).trans ?_
      rw [cpu_bind, hop]
      rfl
    cases take : o.taken s₀.cpu with
    | false =>
      -- A branch that is not taken is the whole call.
      refine ⟨{ s₀ with cpu := o.skip s₀.cpu }, [s₀.cpu], ?_, fetched.executed, ?_, ?_⟩
      · rw [hcall, BranchOp.run_eq, if_neg (by rw [take]; decide)]
      · intro x hx
        rw [List.mem_singleton.mp hx]
        exact ⟨.of_branch hop, fun hne => absurd hzero hne⟩
      · have hleap := leap_of_skipped fetched hs hop take
        exact Option.some.inj (hleap.symm.trans h)
    | true =>
      obtain ⟨s', xs, hrun, hrest⟩ := call_of_taken host hs hfetch hop take h
      refine ⟨s', xs, ?_, hrest⟩
      rw [hcall, BranchOp.run_of_taken take, hrun]
  · -- No branch: one instruction.
    have hop : ∀ o, decode s₀.cpu.code ≠ .branch o := fun o ho => hop ⟨o, ho⟩
    obtain ⟨rfl, horderly, s', hrun, rfl, -, hexecuted⟩ := straight_returns host hfetch hop hexec 1
    refine ⟨s', [s₀.cpu], hrun, hexecuted, ?_, ?_⟩
    · intro x hx
      rwa [List.mem_singleton.mp hx]
    · have hleap := Sequencer.leap_of_next (q := Arch.sequencer) hexec
      exact Option.some.inj (hleap.symm.trans h)

/-- A call leaves the delay slots it enters. -/
theorem Exec.branch (h : Exec host s s') (hs : s.cpu.branch = 0) : s'.cpu.branch = 0 := by
  -- By what the call did.
  cases h with
  | straight fetched hop run =>
    obtain ⟨report, execI, hrun⟩ := run
    exact (Op.run_straight hop hrun).quiet.branch.trans (fetched.branch.trans hs)
  | @skipped _ s₀ o fetched hop skip =>
    have hskip : (o.skip s₀.cpu).branch = (o.link s₀.cpu).branch := by
      unfold BranchOp.skip
      split <;> rfl
    change (o.skip s₀.cpu).branch = 0
    rw [hskip, (o.link_quiet s₀.cpu).branch]
    exact fetched.branch.trans hs
  | jumped fetched hop take slot => rw [leaveSlot_cpu]

end Calls

/-- **One call.** Outside of delay slots, the orderly calls of the interpreter are the leaps of the
machine. -/
theorem orderlyCall_iff (host : Host) (s : Machine) (hs : s.cpu.branch = 0) (a : Arch) :
    Arch.sequencer.Leap s.arch a ↔ ∃ s', OrderlyCall host s s' ∧ s'.arch = a := by
  constructor
  · intro h
    obtain ⟨s', xs, hrun, hxs, horderly, ha⟩ := call_of_leap host hs h
    exact ⟨s', ⟨⟨0, 2, hrun⟩, xs, hxs, horderly⟩, ha⟩
  · rintro ⟨s', ⟨hcall, xs, hxs, horderly⟩, rfl⟩
    exact hcall.exec.leap hs hxs horderly

/-! ### Runs -/

/-- What is orderly after a stretch of history. -/
theorem Executed.orderly_iff {s s' : Machine} {xs : List CpuRegisters} (h : Executed s s' xs) :
    s'.Orderly ↔ s.Orderly ∧ ∀ x ∈ xs, x.Orderly := by
  constructor
  · intro hs'
    -- The instructions before it are in the longer history.
    refine ⟨fun r hr => hs' r ?_, fun x hx => hs' x (h.mem_log hx)⟩
    obtain ⟨new, hlog, -⟩ := h
    rw [hlog]
    exact List.mem_append_right new hr
  · -- Together they are all instructions of the longer history.
    rintro ⟨hs, hxs⟩ r hr
    obtain ⟨new, hlog, rfl⟩ := h
    rw [hlog] at hr
    rcases List.mem_append.mp hr with hr | hr
    · refine hxs r (List.mem_reverse.mpr (List.mem_filterMap.mpr ⟨_, hr, rfl⟩))
    · exact hs r hr

/-- A call executes the instructions it enters into the history. -/
theorem Exec.executed {host : Host} {s s' : Machine} (h : Exec host s s') :
    ∃ xs, Executed s s' xs := by
  obtain ⟨new, hext⟩ := h.history
  exact ⟨_, new, hext.log, rfl⟩

/-- An orderly run makes orderly calls only. -/
theorem orderly_reaches_iff (host : Host) {R : Machine → Machine → Prop}
    (hR : ∀ s s', R s s' → Returns host s s') {s s' : Machine} (hs : s.Orderly) :
    Relation.ReflTransGen R s s' ∧ s'.Orderly ↔
      Relation.ReflTransGen (fun s s' => R s s' ∧ OrderlyCall host s s') s s' := by
  constructor
  · rintro ⟨h, hs'⟩
    -- On the run: the last call is orderly because what it executes is.
    induction h with
    | refl => exact .refl
    | tail hrun hlast ih =>
      obtain ⟨xs, hxs⟩ := (hR _ _ hlast).exec.executed
      obtain ⟨hbefore, horderly⟩ := hxs.orderly_iff.mp hs'
      exact .tail (ih hbefore) ⟨hlast, hR _ _ hlast, xs, hxs, horderly⟩
  · intro h
    induction h with
    | refl => exact ⟨.refl, hs⟩
    | tail hrun hlast ih =>
      obtain ⟨hstep, -, xs, hxs, horderly⟩ := hlast
      -- What was orderly stays so, as nothing leaves the history.
      exact ⟨.tail ih.1 hstep, hxs.orderly_iff.mpr ⟨ih.2, horderly⟩⟩

/-- Nothing was executed at the start. -/
theorem start_orderly (memory : Fin MEMSIZE → U8) (pc : U32) (trace : Bool) :
    (Machine.start memory pc trace).Orderly := nofun

/-- The machine with a loaded program. -/
def Arch.start (memory : Fin MEMSIZE → U8) (pc : U32) : Arch :=
  ⟨CpuRegisters.zeroed pc, memory, fun _ => false, 0⟩

/-- **The start** of the interpreter is that of the machine. -/
theorem start_arch (memory : Fin MEMSIZE → U8) (pc : U32) (trace : Bool) :
    (Machine.start memory pc trace).arch = Arch.start memory pc := by
  have hnone : ∀ m, decide ((Machine.start memory pc trace).Written m) = false := by
    intro m
    refine decide_eq_false ?_
    change ¬(0 : U8) &&& 2 ≠ 0
    decide
  unfold Machine.arch Arch.start
  congr 1
  exact funext hnone

/-- **Refinement.** Whatever the host and the options, the states that orderly runs of the
interpreter reach are, seen as states of the machine, those that the machine reaches outside of
delay slots, one instruction after the other. -/
theorem refines_arch (host : Host) (memory : Fin MEMSIZE → U8) (pc : U32) (trace : Bool)
    (a : Arch) :
    (∃ s, Run host (Machine.start memory pc trace) s ∧ s.Orderly ∧ s.arch = a) ↔
      Relation.ReflTransGen Arch.sequencer.Step (.settled (Arch.start memory pc)) (.settled a) := by
  -- Call by call, through the view of the interpreter as a machine.
  rw [Sequencer.reaches_iff, ← start_arch memory pc trace,
    reaches_view_iff (I := fun s : Machine => s.cpu.branch = 0)
      (R := OrderlyCall host) (fun s s' h hs => h.1.exec.branch hs)
      (fun s hs a => orderlyCall_iff host s hs a) rfl]
  refine exists_congr fun s => ?_
  rw [← and_assoc, orderly_reaches_iff host (fun _ _ h => h) (start_orderly memory pc trace)]
  refine and_congr_left fun _ => ?_
  constructor
  · -- The calls return by being orderly.
    exact Relation.ReflTransGen.mono (fun _ _ h => And.right h) _ _
  · exact Relation.ReflTransGen.mono (fun _ _ h => ⟨h.1, h⟩) _ _

/-! ### The loop of `main` -/

/-- A turn of the loop, as the machine takes it. -/
def Arch.LoopStep (a b : Arch) : Prop := a.entry = 0 ∧ Arch.sequencer.Leap a b

/-- The loop takes the turns it is granted. -/
theorem emulate_of_steps {host : Host} {s s' : Machine}
    (h : Relation.ReflTransGen
      (fun s s' => s.bouncePc = 0 ∧ execI host (dumpasm 0) 2 s = .ok () s') s s')
    (hne : s'.bouncePc ≠ 0) : ∃ turns, emulate host 0 2 turns s = .ok () s' := by
  induction h using Relation.ReflTransGen.head_induction_on with
  -- Without a turn the entry point is already known.
  | refl =>
    refine ⟨1, ?_⟩
    unfold emulate
    rw [Prog.get_bind, if_neg hne]
    rfl
  | head hfirst _ ih =>
    obtain ⟨turns, hrest⟩ := ih
    refine ⟨turns + 1, ?_⟩
    unfold emulate
    rw [Prog.get_bind, if_pos hfirst.1]
    exact (Prog.bind_ok_of hfirst.2).trans hrest

/-- A turn of the loop, with the depth an orderly call needs. -/
theorem loopStep_iff (host : Host) (s : Machine) (hs : s.cpu.branch = 0) (a : Arch) :
    s.arch.LoopStep a ↔ ∃ s', ((s.bouncePc = 0 ∧ execI host (dumpasm 0) 2 s = .ok () s') ∧
      OrderlyCall host s s') ∧ s'.arch = a := by
  constructor
  · rintro ⟨hzero, h⟩
    obtain ⟨s', xs, hrun, hxs, horderly, ha⟩ := call_of_leap host hs h
    exact ⟨s', ⟨⟨hzero, hrun⟩, ⟨0, 2, hrun⟩, xs, hxs, horderly⟩, ha⟩
  · rintro ⟨s', ⟨⟨hzero, -⟩, hcall⟩, ha⟩
    exact ⟨hzero, (orderlyCall_iff host s hs a).mpr ⟨s', hcall, ha⟩⟩

section Loop

variable {host : Host} {memory : Fin MEMSIZE → U8} {pc : U32} {trace : Bool}

/-- Where the loop ends after an orderly run, the machine first knows an entry point. -/
theorem loopSteps_of_emulate {depth levels turns : Nat} {s : Machine}
    (h : emulate host depth levels turns (Machine.start memory pc trace) = .ok () s)
    (hs : s.Orderly) :
    Relation.ReflTransGen Arch.LoopStep (Arch.start memory pc) s.arch ∧ s.arch.entry ≠ 0 := by
  obtain ⟨hloop, hne⟩ := emulate_loop h
  have hturns := (orderly_reaches_iff host (fun _ _ h => h.2)
    (start_orderly memory pc trace)).mp ⟨hloop, hs⟩
  -- A turn that returns is a call, and an orderly one.
  have hstep : ∀ s : Machine, s.cpu.branch = 0 → ∀ a, s.arch.LoopStep a ↔
      ∃ s', (LoopStep host s s' ∧ OrderlyCall host s s') ∧ s'.arch = a := by
    intro s hs a
    refine and_congr_right' (orderlyCall_iff host s hs a) |>.trans ?_
    constructor
    · rintro ⟨hzero, s', hcall, ha⟩
      exact ⟨s', ⟨⟨hzero, hcall.1⟩, hcall⟩, ha⟩
    · rintro ⟨s', ⟨⟨hzero, -⟩, hcall⟩, ha⟩
      exact ⟨hzero, s', hcall, ha⟩
  rw [← start_arch memory pc trace]
  exact ⟨(reaches_view_iff (I := fun s : Machine => s.cpu.branch = 0)
    (fun _ _ h hs => h.1.2.exec.branch hs) hstep rfl _).mpr ⟨s, hturns, rfl⟩, hne⟩

/-- Where the machine first knows an entry point, the loop ends after an orderly run. -/
theorem emulate_of_loopSteps (host : Host) (trace : Bool) {a : Arch}
    (h : Relation.ReflTransGen Arch.LoopStep (Arch.start memory pc) a) (hne : a.entry ≠ 0) :
    ∃ turns s, emulate host 0 2 turns (Machine.start memory pc trace) = .ok () s ∧ s.Orderly ∧
      s.arch = a := by
  rw [← start_arch memory pc trace] at h
  -- Depth and levels that orderly calls need are the same for all turns.
  obtain ⟨s, hturns, rfl⟩ := (reaches_view_iff (I := fun s : Machine => s.cpu.branch = 0)
    (fun _ _ h hs => h.2.1.exec.branch hs) (loopStep_iff host) rfl _).mp h
  obtain ⟨hloop, hs⟩ := (orderly_reaches_iff host
    (fun _ _ h => ⟨0, 2, h.2⟩) (start_orderly memory pc trace)).mpr hturns
  obtain ⟨turns, hrun⟩ := emulate_of_steps hloop hne
  exact ⟨turns, s, hrun, hs, rfl⟩

end Loop

/-- **The loop of `main`** ends after an orderly run exactly where the machine first knows an entry
point, looked at between leaps: after an instruction, a branch together with its delay slot. -/
theorem emulate_arch (host : Host) (memory : Fin MEMSIZE → U8) (pc : U32) (trace : Bool)
    (a : Arch) :
    (∃ depth levels turns s,
      emulate host depth levels turns (Machine.start memory pc trace) = .ok () s ∧ s.Orderly ∧
        s.arch = a) ↔
      Relation.ReflTransGen Arch.LoopStep (Arch.start memory pc) a ∧ a.entry ≠ 0 := by
  constructor
  · rintro ⟨depth, levels, turns, s, hrun, hs, rfl⟩
    exact loopSteps_of_emulate hrun hs
  · rintro ⟨h, hne⟩
    obtain ⟨turns, s, hrun⟩ := emulate_of_loopSteps host trace h hne
    exact ⟨0, 2, turns, s, hrun⟩

end Ps2Unpacker
