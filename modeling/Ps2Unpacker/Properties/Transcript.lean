import Ps2Unpacker.Properties.Ledger
import Ps2Unpacker.Semantics.Atoms
import Ps2Unpacker.Semantics.NestedCalls

/-!
# What a run announces

`execI` prints on its own account: with `-t` a line for each instruction, and every `2 ^ 24`
instructions that the program is still running. Handlers print neither, so these lines are a
transcript of the run.

* `Event.ofStep`: the dispatches and the two kinds of line.
* `announce`: what one instruction contributes.
* `announced_ledger`: the steps of a call, delay slots included.
* `transcript`: in every state a run reaches, the events of the steps are what the instructions
  executed announce, in order, and each instruction carries its number as cycle count.
* `stillRunning_count`: how often the program says that it is still running.
-/

namespace Ps2Unpacker

open CProg

/-! ### Events of steps -/

/-- A dispatch, or one of the messages of `execI`. -/
def Event.ofStep : Event → Bool
  | .exec _ => true
  | .printed msg => msg.ofStep
  | .store _ _ => false

/-- The message that the program is still running. -/
def Event.saysRunning : Event → Bool
  | .printed (.stillRunning _ _) => true
  | _ => false

/-- The instruction with these registers is announced: its number is a multiple of `2 ^ 24`. -/
def CpuRegisters.atMilestone (r : CpuRegisters) : Bool := r.cycle &&& 0xffffff = 0

/-- The events of the step that dispatches `r`, newest first. -/
def announce (trace : Bool) (r : CpuRegisters) : List Event :=
  [.exec r] ++ (if trace then [.printed (.trace r.code (r.pc - 4))] else []) ++
    (if r.atMilestone then [.printed (.stillRunning (r.pc - 4) r.cycle)] else [])

/-- The cycle counts of `n` instructions after a count of `c`, newest first. -/
def cyclesFrom (c : U32) (n : Nat) : List U32 :=
  ((List.range n).map fun k => c + BitVec.ofNat 32 (k + 1)).reverse

/-- From `s` to `s'` the instructions `xs` were executed, newest first, and announced. -/
structure Announced (xs : List CpuRegisters) (s s' : Machine) : Prop where
  steps : s'.log.filter Event.ofStep = xs.flatMap (announce s.trace) ++ s.log.filter Event.ofStep
  trace : s'.trace = s.trace
  cycles : xs.map CpuRegisters.cycle = cyclesFrom s.cpu.cycle xs.length
  cycle : s'.cpu.cycle = s.cpu.cycle + BitVec.ofNat 32 xs.length

/-- The counts of two stretches follow each other. -/
theorem cyclesFrom_add (c : U32) (n m : Nat) :
    cyclesFrom c (n + m) = cyclesFrom (c + BitVec.ofNat 32 n) m ++ cyclesFrom c n := by
  unfold cyclesFrom
  rw [← List.reverse_append, List.range_add, List.map_append, List.map_map]
  congr 2
  refine List.map_congr_left fun k _ => ?_
  change c + BitVec.ofNat 32 (n + k + 1) = c + BitVec.ofNat 32 n + BitVec.ofNat 32 (k + 1)
  rw [Nat.add_assoc, BitVec.ofNat_add, BitVec.add_assoc]

namespace Announced

/-- Stretches of a run follow each other. -/
theorem trans {xs ys : List CpuRegisters} {s₁ s₂ s₃ : Machine} (h : Announced xs s₁ s₂)
    (h' : Announced ys s₂ s₃) : Announced (ys ++ xs) s₁ s₃ where
  steps := by
    rw [h'.steps, h.steps, h.trace, List.flatMap_append, List.append_assoc]
  trace := h'.trace.trans h.trace
  cycles := by
    rw [List.map_append, h'.cycles, h.cycles, h.cycle, List.length_append, Nat.add_comm,
      cyclesFrom_add]
  cycle := by
    rw [h'.cycle, h.cycle, List.length_append, Nat.add_comm, BitVec.ofNat_add, BitVec.add_assoc]

/-- A stretch without a step. -/
theorem of_silent {s s' : Machine} {l : List Event} (hlog : s'.log = l ++ s.log)
    (hsilent : ∀ e ∈ l, e.ofStep = false) (htrace : s'.trace = s.trace)
    (hcycle : s'.cpu.cycle = s.cpu.cycle) : Announced [] s s' where
  steps := by
    rw [hlog, List.filter_append, List.filter_eq_nil_iff.mpr fun e he => by simp [hsilent e he]]
    rfl
  trace := htrace
  cycles := rfl
  cycle := by
    rw [hcycle]
    exact (BitVec.add_zero _).symm

theorem refl (s : Machine) : Announced [] s s := of_silent (l := []) rfl nofun rfl rfl

end Announced

/-! ### Handlers are silent -/

/-- A handler added to the history, but no step. -/
def Silent (s s' : Machine) : Prop :=
  s'.trace = s.trace ∧ ∃ new, s'.log = new ++ s.log ∧ ∀ e ∈ new, e.ofStep = false

theorem Silent.refl (s : Machine) : Silent s s := ⟨rfl, [], rfl, nofun⟩

/-- Silent steps compose. -/
theorem Silent.trans ⦃s₁ s₂ s₃ : Machine⦄ (h : Silent s₁ s₂) (h' : Silent s₂ s₃) :
    Silent s₁ s₃ := by
  obtain ⟨htrace, new, hlog, hnew⟩ := h
  obtain ⟨htrace', new', hlog', hnew'⟩ := h'
  refine ⟨htrace'.trans htrace, new' ++ new, by rw [hlog', hlog, List.append_assoc], ?_⟩
  intro e he
  rcases List.mem_append.mp he with he | he
  · exact hnew' e he
  · exact hnew e he

/-- An entry that is not about a step. -/
theorem silent_push {s : Machine} {e : Event} (he : e.ofStep = false) :
    Silent s { s with log := e :: s.log } :=
  ⟨rfl, [e], rfl, fun e' he' => by rwa [List.mem_singleton.mp he']⟩

section Handlers

variable {report : U32 → M Unit} {stack : Bool}

/-- **The atoms** say nothing about steps. -/
theorem Atom.silent {α : Type} {m : M α} (h : Atom report stack α m) : m.Within Silent := by
  cases h with
  | observe f blind =>
    intro s a s' h
    obtain ⟨-, rfl⟩ := Prog.observe_eq_ok.mp h
    exact .refl _
  | assign f blind =>
    intro s a s' h
    rw [Prog.modify?_eq_ok] at h
    -- A blind assignment leaves the history as it is.
    have hs : f s = (f s).map (Machine.withHistory s.log s.trace) := blind s s.log s.trace
    rw [h, Option.map_some, Option.some.injEq] at hs
    rw [hs]
    exact ⟨rfl, [], rfl, nofun⟩
  | behind f h =>
    intro s a s' h
    obtain ⟨-, rfl⟩ := Prog.observe_eq_ok.mp h
    exact .refl _
  | print msg h => exact Prog.within_modify fun s => silent_push h
  | store mem value => exact Prog.within_modify fun s => silent_push rfl
  | fatal msg h => exact fun s a s' h => absurd h (fatal_ne_ok _ _)
  -- The fatal path and a halt never return.
  | halt msg h =>
    intro s a s' h
    obtain ⟨-, s₁, -, h⟩ := Prog.bind_eq_ok.mp h
    cases h

theorem built_silent {α : Type} {m : M α} (h : BuiltOf report stack m) : m.Within Silent := by
  induction h with
  | atom h => exact Atom.silent h
  | pure a => exact Prog.within_pure Silent.refl a
  | bind first next ihFirst ihNext => exact Prog.within_bind Silent.trans ihFirst ihNext

end Handlers

/-! ### One call -/

/-- A dispatch behind the two lines, if they are printed. -/
theorem filter_announced {e e₁ e₂ : Event} (he : e.ofStep = true) (he₁ : e₁.ofStep = true)
    (he₂ : e₂.ofStep = true) (b₁ b₂ : Bool) (log : List Event) :
    (e :: if b₂ then e₂ :: (if b₁ then e₁ :: log else log)
        else if b₁ then e₁ :: log else log).filter Event.ofStep =
      [e] ++ (if b₂ then [e₂] else []) ++ (if b₁ then [e₁] else []) ++
        log.filter Event.ofStep := by
  cases b₁ with
  | false => cases b₂ <;> simp [he, he₂]
  | true => cases b₂ <;> simp [he, he₁, he₂]

/-- The fetch announces the instruction it dispatches. -/
theorem fetch_announced (report : U32 → M Unit) :
    (fetch report).Ensures fun s _ s₀ => Announced [s₀.cpu] s s₀ := by
  intro s _ s₀ h
  rw [fetch_eq, cpu_bind, modifyCpu_bind, cpu_bind] at h
  rw [Prog.bind_ok_of (printfIf_apply _ _ _)] at h
  obtain ⟨code, s₂, hread, h⟩ := Prog.bind_eq_ok.mp h
  obtain ⟨-, hro⟩ := memRead32_ensures _ hread
  rw [modifyCpu_bind, Prog.bind_ok_of (traceLine_apply _ _ _), cpu_bind] at h
  cases h
  -- The read changes tags only.
  have hs₂ := hro.only_tags
  generalize s₂.tags = tags at hs₂
  subst hs₂
  -- The address announced is that of the word, before the increment.
  have hpc : s.cpu.pc + 4 - 4 = s.cpu.pc := BitVec.add_sub_cancel _ _
  refine ⟨?_, rfl, rfl, rfl⟩
  rw [List.flatMap_singleton]
  unfold announce CpuRegisters.atMilestone
  dsimp only
  simp only [hpc]
  exact filter_announced rfl rfl rfl _ _ _

/-- Every handler but the branches announces nothing. -/
theorem straight_announced {host : Host} {report : U32 → M Unit} {execI : M Unit} {s s' : Machine}
    (hop : ∀ o, decode s.cpu.code ≠ .branch o)
    (h : (decode s.cpu.code).run host report execI s = .ok () s') : Announced [] s s' := by
  have hbuilt := Op.run_built report true host execI (o := decode s.cpu.code) hop fun _ => rfl
  obtain ⟨htrace, new, hlog, hnew⟩ := built_silent hbuilt h
  exact .of_silent hlog hnew htrace (Op.run_straight hop h).quiet.cycle

/-- Neither does the jump after a delay slot. -/
theorem leaveSlot_announced (s : Machine) : Announced [] s s.leaveSlot := by
  unfold Machine.leaveSlot
  split
  · refine .of_silent (l := [_]) rfl (fun e he => ?_) rfl rfl
    rw [List.mem_singleton.mp he]
    rfl
  · exact .of_silent (l := []) rfl nofun rfl rfl

/-- **Every step** announces what it executes. -/
theorem announced_ledger (host : Host) (report : U32 → M Unit) :
    Ledger host report Announced where
  trans _ _ _ _ _ h h' := h.trans h'
  straight _ _ _ _ hfetch hop h := (fetch_announced report hfetch).trans (straight_announced hop h)
  skip := by
    intro s s₀ o hfetch _
    -- Passing over the slot is silent.
    have hskip : Announced [] s₀ { s₀ with cpu := o.skip s₀.cpu } :=
      .of_silent (l := []) rfl nofun rfl (o.skip_cycle s₀.cpu)
    exact (fetch_announced report hfetch).trans hskip
  enter := by
    intro s s₀ o hfetch _
    -- Entering the slot is silent.
    have henter : Announced [] s₀ (s₀.enterSlot o) :=
      .of_silent (l := []) rfl nofun rfl (o.link_quiet s₀.cpu).cycle
    exact (fetch_announced report hfetch).trans henter
  leave s := leaveSlot_announced s

/-! ### Runs -/

/-- In a run from the start, the transcript is that of all instructions executed so far. -/
theorem Run.announced_start {host : Host} {memory : Fin MEMSIZE → U8} {pc : U32} {trace : Bool}
    {s : Machine} (h : Run host (Machine.start memory pc trace) s) :
    Announced s.executedSoFar (Machine.start memory pc trace) s :=
  Ledger.run (fun depth => announced_ledger host (dumpasm depth)) (.refl _) h

/-- **The transcript.** In every state a run reaches, the dispatches, the lines of `-t` and the
messages that the program is still running are, in order, those of the instructions executed: one
line of `-t` for each, with its word and its address, and a message for each whose number is a
multiple of `2 ^ 24`. Instruction number `n` was dispatched with the cycle count `n`. -/
theorem transcript {host : Host} {memory : Fin MEMSIZE → U8} {pc : U32} {trace : Bool}
    {s : Machine} (h : Run host (Machine.start memory pc trace) s) :
    s.log.filter Event.ofStep = s.executedSoFar.flatMap (announce trace) ∧
    s.executedSoFar.map CpuRegisters.cycle = cyclesFrom 0 s.executedSoFar.length ∧
    s.cpu.cycle = BitVec.ofNat 32 s.executedSoFar.length := by
  have hxs := h.announced_start
  refine ⟨?_, hxs.cycles, ?_⟩
  · rw [hxs.steps]
    exact List.append_nil _
  · rw [hxs.cycle]
    exact BitVec.zero_add _

/-- The program `li v0, 5; sb v0, 0x200`, traced, after two calls. -/
theorem transcript_store : ∃ s,
    Run .flat (Machine.start (program 0x100 [0x24020005, 0xa0020200]) 0x100 true) s ∧
    s.executedSoFar.map CpuRegisters.code = [0xa0020200, 0x24020005] ∧
    s.log.filter Event.ofStep = s.executedSoFar.flatMap (announce true) ∧
    s.executedSoFar.map CpuRegisters.cycle = [2, 1] ∧ s.cpu.cycle = 2 := by
  have hrun := Relation.ReflTransGen.tail (Relation.ReflTransGen.single
    (show Returns .flat (Machine.start (program 0x100 [0x24020005, 0xa0020200]) 0x100 true) _ from
      ⟨0, 1, rfl⟩)) (show Returns .flat _ _ from ⟨0, 1, rfl⟩)
  obtain ⟨hsteps, hcycles, hcycle⟩ := transcript hrun
  exact ⟨_, hrun, by decide, hsteps, hcycles.trans (by decide), hcycle.trans (by decide)⟩

/-! ### The messages that the program is still running -/

/-- The message is about a step. -/
theorem saysRunning_ofStep {e : Event} (h : e.saysRunning = true) : e.ofStep = true := by
  cases e with
  | printed msg =>
    cases msg with
    | stillRunning pc cycle => rfl
    | _ => cases h
  | exec r => cases h
  | store mem value => cases h

/-- An instruction is announced as running at milestones. -/
theorem announce_saysRunning (trace : Bool) (r : CpuRegisters) :
    (announce trace r).countP Event.saysRunning = if r.atMilestone then 1 else 0 := by
  unfold announce
  cases trace with
  | false => cases r.atMilestone <;> rfl
  | true => cases r.atMilestone <;> rfl

/-- So a stretch has as many messages as milestones. -/
theorem announced_saysRunning (trace : Bool) (xs : List CpuRegisters) :
    (xs.flatMap (announce trace)).countP Event.saysRunning =
      xs.countP CpuRegisters.atMilestone := by
  induction xs with
  | nil => rfl
  | cons r xs ih =>
    rw [List.flatMap_cons, List.countP_append, announce_saysRunning, ih, List.countP_cons,
      Nat.add_comm]

/-- Which counts are announced. -/
theorem milestone_iff (k : Nat) :
    BitVec.ofNat 32 k &&& (0xffffff : U32) = 0 ↔ 2 ^ 24 ∣ k := by
  rw [← BitVec.toNat_inj, BitVec.toNat_and]
  change (BitVec.ofNat 32 k).toNat &&& (2 ^ 24 - 1) = 0 ↔ _
  rw [Nat.and_two_pow_sub_one_eq_mod, BitVec.toNat_ofNat,
    Nat.mod_mod_of_dvd k (pow_dvd_pow 2 (by decide : 24 ≤ 32)), Nat.dvd_iff_mod_eq_zero]

/-- Among the counts from one to `n` there are `n / 2 ^ 24` that are announced. -/
theorem cyclesFrom_milestones (n : Nat) :
    (cyclesFrom 0 n).countP (fun c => c &&& (0xffffff : U32) = 0) = n / 2 ^ 24 := by
  induction n with
  -- On the count: the last one is a milestone exactly if the division moves on.
  | zero => rfl
  | succ n ih =>
    have hzero : 0 + BitVec.ofNat 32 n = BitVec.ofNat 32 n := BitVec.zero_add _
    have hlast : cyclesFrom (0 + BitVec.ofNat 32 n) 1 = [BitVec.ofNat 32 (n + 1)] := by
      rw [hzero, BitVec.ofNat_add]
      rfl
    rw [cyclesFrom_add, List.countP_append, ih, hlast, List.countP_singleton, Nat.succ_div,
      Nat.add_comm]
    simp only [decide_eq_true_eq, milestone_iff]

/-- **Still running.** In every state a run reaches, the program has said that it is still running
once for every `2 ^ 24` instructions executed. -/
theorem stillRunning_count {host : Host} {memory : Fin MEMSIZE → U8} {pc : U32} {trace : Bool}
    {s : Machine} (h : Run host (Machine.start memory pc trace) s) :
    s.log.countP Event.saysRunning = s.executedSoFar.length / 2 ^ 24 := by
  have hxs := h.announced_start
  -- Other entries say nothing of the kind.
  have hfilter : s.log.countP Event.saysRunning =
      (s.log.filter Event.ofStep).countP Event.saysRunning := by
    rw [List.countP_filter]
    refine List.countP_congr fun e _ => ?_
    simp only [Bool.and_eq_true, iff_self_and]
    exact saysRunning_ofStep
  -- The instructions carry the counts from 1 on.
  have hcycles : s.executedSoFar.map CpuRegisters.cycle = cyclesFrom 0 s.executedSoFar.length :=
    hxs.cycles
  rw [hfilter, hxs.steps, ← cyclesFrom_milestones, ← hcycles, List.countP_map]
  change (s.executedSoFar.flatMap _ ++ []).countP _ = _
  rw [List.append_nil, announced_saysRunning]
  rfl

/-- `j 0x100` at `0x100`, with a `nop` in its delay slot. -/
def spin : Fin MEMSIZE → U8 := program 0x100 [0x08000040, 0]

/-- After `n` turns of the loop `spin`. -/
structure Spun (n : Nat) (s : Machine) : Prop where
  pc : s.cpu.pc = 0x100
  memory : s.memory = spin
  executed : s.executedSoFar.length = 2 * n

/-- One turn is a call: the jump, and the `nop` in its delay slot. -/
theorem Spun.turn {n : Nat} {s : Machine} (h : Spun n s) :
    ∃ s', Returns .flat s s' ∧ Spun (n + 1) s' := by
  -- the jump
  have hjump : fetchWord s.memory s.cpu.pc = some 0x08000040 := by
    rw [h.memory, h.pc]
    rfl
  obtain ⟨s₀, hfetch⟩ := (@fetch_returns_iff (dumpasm 0) s).mpr ⟨_, hjump⟩
  have hfetched := fetch_ensures _ hfetch
  have hcode : s₀.cpu.code = 0x08000040 := Option.some.inj (hfetched.word.symm.trans hjump)
  have hop : decode s₀.cpu.code = .branch .J := by
    rw [hcode]
    rfl
  -- its delay slot
  have hpc : s₀.cpu.pc = 0x104 := by
    rw [hfetched.cpu, CpuRegisters.dispatch, h.pc]
    rfl
  have hnop : fetchWord (s₀.enterSlot .J).memory (s₀.enterSlot .J).cpu.pc = some 0 := by
    change fetchWord s₀.memory s₀.cpu.pc = some 0
    rw [hfetched.memory, h.memory, hpc]
    rfl
  obtain ⟨t, hfetch'⟩ := (@fetch_returns_iff (dumpasm 0) (s₀.enterSlot .J)).mpr ⟨_, hnop⟩
  have hfetched' := fetch_ensures _ hfetch'
  have hcode' : t.cpu.code = 0 := Option.some.inj (hfetched'.word.symm.trans hnop)
  let u : Machine := { t with cpu := Handler.SLL t.cpu }
  have hslot : execI .flat (dumpasm 0) 1 (s₀.enterSlot .J) = .ok () u := by
    rw [execI_of_fetch hfetch', hcode']
    rfl
  -- the jump back
  have htarget : (u.branchPC.setWidth 32 : U32) = 0x100 := by
    change (t.branchPC.setWidth 32 : U32) = 0x100
    rw [hfetched'.branchPC]
    change ((s₀.cpu.jumpTarget.setWidth 64 : U64).setWidth 32 : U32) = 0x100
    unfold CpuRegisters.jumpTarget CpuRegisters.target
    rw [hpc, hcode]
    rfl
  have hinside : (u.branchPC.setWidth 32 : U32).toNat < MEMSIZE := by
    rw [htarget]
    decide
  refine ⟨u.leaveSlot, ⟨0, 2, ?_⟩, ?_, ?_, ?_⟩
  · -- The call is the jump with its slot.
    rw [execI_of_fetch hfetch, hop]
    exact (BranchOp.run_of_taken rfl).trans
      ((Prog.bind_ok_of hslot).trans (finishBranch_of_lt hinside))
  · rw [leaveSlot_cpu]
    exact htarget
  · rw [leaveSlot_memory]
    change t.memory = spin
    rw [hfetched'.memory]
    change s₀.memory = spin
    rw [hfetched.memory, h.memory]
  · -- Two instructions more than before.
    rw [leaveSlot_executedSoFar]
    change t.executedSoFar.length = _
    rw [hfetched'.executedSoFar, List.length_cons]
    change s₀.executedSoFar.length + 1 = _
    rw [hfetched.executedSoFar, List.length_cons, h.executed, Nat.mul_succ]

/-- **Any number of turns** is a run. -/
theorem exists_spun (n : Nat) : ∃ s, Run .flat (Machine.start spin 0x100 false) s ∧ Spun n s := by
  induction n with
  | zero => exact ⟨_, .refl, rfl, rfl, rfl⟩
  | succ n ih =>
    obtain ⟨s, hrun, hspun⟩ := ih
    obtain ⟨s', hturn, hspun'⟩ := hspun.turn
    exact ⟨s', hrun.tail hturn, hspun'⟩

/-- After `2 ^ 23` turns of a loop of two instructions it has been said once. -/
theorem stillRunning_count_spin : ∃ s, Run .flat (Machine.start spin 0x100 false) s ∧
    s.executedSoFar.length = 2 ^ 24 ∧ s.log.countP Event.saysRunning = 1 := by
  obtain ⟨s, hrun, hspun⟩ := exists_spun (2 ^ 23)
  have hlength : s.executedSoFar.length = 2 ^ 24 := hspun.executed
  refine ⟨s, hrun, hlength, (stillRunning_count hrun).trans ?_⟩
  rw [hlength, Nat.div_self (Nat.two_pow_pos 24)]

end Ps2Unpacker
