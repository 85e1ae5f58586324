import Ps2Unpacker.Properties.Ledger
import Ps2Unpacker.Semantics.Accesses

/-!
# What the history tells

The history of a run is complete: from the image and the stores it lists, memory can be computed at
every point of the run, and the program that unpacks itself is seen to execute the words it wrote.

* `Coherent`: every instruction was fetched from memory as the stores before it left it.
* `CpuRegisters.trail`: the dispatch of an instruction and its stores.
* `told_ledger`: the steps of a call, delay slots included.
* `history_complete`: the history of a run.
-/

namespace Ps2Unpacker

open CProg

/-- Every word dispatched is the one that memory, after the stores before the dispatch, has at the
address of the instruction. The history is newest first. -/
def Coherent (memory : Fin MEMSIZE → U8) : List Event → Prop
  | [] => True
  | .exec r :: es => fetchWord (replay memory es) (r.pc - 4) = some r.code ∧ Coherent memory es
  | .printed _ :: es => Coherent memory es
  | .store _ _ :: es => Coherent memory es

/-- A dispatch, or the address of a store. -/
def Event.trail? : Event → Option (CpuRegisters ⊕ U32)
  | .exec r => some (.inl r)
  | .store mem _ => some (.inr mem)
  | .printed _ => none

/-- The dispatch of an instruction and its stores, byte by byte, newest first. -/
def CpuRegisters.trail (r : CpuRegisters) : List (CpuRegisters ⊕ U32) :=
  r.footprint.reverse.map .inr ++ [.inl r]

/-- Histories in turn are coherent, if the second one starts from the memory the first one leaves.
-/
theorem Coherent.append {memory : Fin MEMSIZE → U8} {es es' : List Event} (h : Coherent memory es)
    (h' : Coherent (replay memory es) es') : Coherent memory (es' ++ es) := by
  induction es' with
  | nil => exact h
  | cons e es' ih =>
    cases e with
    | printed msg => exact ih h'
    | store mem value => exact ih h'
    -- The instruction is fetched from the memory behind both.
    | exec r =>
      refine ⟨?_, ih h'.2⟩
      change fetchWord (replay memory (es' ++ es)) _ = _
      rw [replay_append]
      exact h'.1

/-- A stretch without a dispatch. -/
theorem coherent_of_silent {memory : Fin MEMSIZE → U8} {es : List Event}
    (h : ∀ e ∈ es, e.dispatched? = none) : Coherent memory es := by
  induction es with
  | nil => trivial
  | cons e es ih =>
    have hrest := ih fun e he => h e (List.mem_cons_of_mem _ he)
    cases e with
    | printed msg => exact hrest
    | store mem value => exact hrest
    | exec r => cases h _ List.mem_cons_self

/-- Messages leave memory alone. -/
theorem replay_of_printed {memory : Fin MEMSIZE → U8} {es : List Event}
    (h : ∀ e ∈ es, ∃ msg, e = .printed msg) : replay memory es = memory := by
  funext m
  refine replay_of_not_hits ?_
  rintro ⟨e, he, hit⟩
  obtain ⟨msg, rfl⟩ := h e he
  exact hit

/-- Messages leave no trail. -/
theorem trail_of_printed {es : List Event} (h : ∀ e ∈ es, ∃ msg, e = .printed msg) :
    es.filterMap Event.trail? = [] := by
  refine List.filterMap_eq_nil_iff.mpr fun e he => ?_
  obtain ⟨msg, rfl⟩ := h e he
  rfl

/-! ### Stores -/

/-- From `s` to `s'` nothing was dispatched, and the bytes at the addresses `W` were stored to, in
this order. -/
def Deposited (_R W : List U32) (s s' : Machine) : Prop :=
  ∃ new, s'.log = new ++ s.log ∧ s'.memory = replay s.memory new ∧
    (∀ e ∈ new, e.dispatched? = none) ∧ new.filterMap Event.trail? = W.reverse.map .inr

/-- The list of stores is an account of the accesses. -/
theorem deposited_account : Account Deposited where
  trans := by
    rintro R W R' W' s₁ s₂ s₃ ⟨new, hlog, hmem, hnone, htrail⟩ ⟨new', hlog', hmem', hnone', htrail'⟩
    refine ⟨new' ++ new, by rw [hlog', hlog, List.append_assoc], ?_, fun e he => ?_, ?_⟩
    · -- The stores are replayed in order, on the older ones.
      rw [hmem', hmem, replay_append]
    · exact (List.mem_append.mp he).elim (hnone' e) (hnone e)
    · rw [List.filterMap_append, htrail, htrail', List.reverse_append, List.map_append]
  read _ _ _ _ := ⟨[], rfl, rfl, nofun, rfl⟩
  -- A store is one entry, and replaying it is what it does to memory.
  store := by
    intro mem m value s hm
    refine ⟨[.store mem value], rfl, (extends_storeByte hm value s).memory, fun e he => ?_, rfl⟩
    rw [List.mem_singleton.mp he]
    rfl
  mute := by
    -- A mute step only prints.
    rintro s s' ⟨hmem, -, new, hnew, hlog⟩
    refine ⟨new, hlog, ?_, fun e he => ?_, trail_of_printed hnew⟩
    · rw [replay_of_printed hnew, hmem]
    · obtain ⟨msg, rfl⟩ := hnew e he
      rfl

/-! ### Steps -/

/-- From `s` to `s'` the instructions `xs` were executed, newest first, and the history tells of
them. -/
def Told (xs : List CpuRegisters) (s s' : Machine) : Prop :=
  ∃ new, s'.log = new ++ s.log ∧ s'.memory = replay s.memory new ∧ Coherent s.memory new ∧
    new.filterMap Event.trail? = xs.flatMap CpuRegisters.trail

/-- What two parts of a run tell, in turn. -/
theorem Told.trans {xs ys : List CpuRegisters} {s₁ s₂ s₃ : Machine} (h : Told xs s₁ s₂)
    (h' : Told ys s₂ s₃) : Told (ys ++ xs) s₁ s₃ := by
  obtain ⟨new, hlog, hmem, hcoherent, htrail⟩ := h
  obtain ⟨new', hlog', hmem', hcoherent', htrail'⟩ := h'
  refine ⟨new' ++ new, by rw [hlog', hlog, List.append_assoc], ?_, ?_, ?_⟩
  · rw [hmem', hmem, replay_append]
  · exact hcoherent.append (hmem ▸ hcoherent')
  · rw [List.filterMap_append, htrail, htrail', List.flatMap_append]

/-- What only prints. -/
theorem told_of_mute {s s' : Machine} (h : Mute s s') : Told [] s s' := by
  obtain ⟨new, hlog, hmem, hnone, htrail⟩ := deposited_account.mute h
  exact ⟨new, hlog, hmem, coherent_of_silent hnone, htrail⟩

/-- The fetch and the stores of one instruction. -/
theorem told_of_fetch {report : U32 → M Unit} {s s₀ s' : Machine} {R : List U32}
    (hfetch : fetch report s = .ok () s₀) (h : Deposited R s₀.cpu.footprint s₀ s') :
    Told [s₀.cpu] s s' := by
  obtain ⟨s₁, hlog₀, hmem₀, -, before, hlog, hmem, hnone, htrail⟩ :=
    fetch_account deposited_account report hfetch
  obtain ⟨after, hlog', hmem', hnone', htrail'⟩ := h
  have hfetched := fetch_ensures report hfetch
  have hpc : s₀.cpu.pc - 4 = s.cpu.pc := by
    rw [hfetched.cpu]
    exact BitVec.add_sub_cancel _ _
  -- Nothing before the dispatch stores, so the word is still the one that was read.
  have hsame : replay s.memory before = s.memory := by
    funext m
    refine replay_of_not_hits ?_
    rintro ⟨e, he, hit⟩
    have hkeep := List.filterMap_eq_nil_iff.mp htrail e he
    cases e with
    | store mem value => cases hkeep
    | printed msg => exact hit
    | exec r => exact hit
  -- What was printed before the dispatch, the dispatch, and what the instruction stores.
  refine ⟨after ++ .exec s₀.cpu :: before, ?_, ?_, ?_, ?_⟩
  · rw [hlog', hlog₀, hlog, List.append_assoc, List.cons_append]
  · rw [hmem', hmem₀, hmem, replay_append]
    rfl
  · refine Coherent.append ⟨?_, coherent_of_silent hnone⟩ (coherent_of_silent hnone')
    rw [hpc, hsame]
    exact hfetched.word
  · rw [List.filterMap_append, List.filterMap_cons, htrail, htrail', List.flatMap_singleton]
    rfl

/-- A branch stores nothing. -/
theorem told_of_branch {report : U32 → M Unit} {s s₀ s' : Machine} {o : BranchOp}
    (hfetch : fetch report s = .ok () s₀) (hop : decode s₀.cpu.code = .branch o)
    (h : Mute s₀ s') : Told [s₀.cpu] s s' := by
  have hfootprint : s₀.cpu.footprint = [] := footprint_of_ne fun o ho => by cases hop.symm.trans ho
  refine told_of_fetch (R := []) hfetch ?_
  rw [hfootprint]
  exact deposited_account.mute h

/-- **Every step** is told. -/
theorem told_ledger (host : Host) (report : U32 → M Unit) : Ledger host report Told where
  trans _ _ _ _ _ h h' := h.trans h'
  straight _ _ _ _ hfetch hop hrun :=
    told_of_fetch hfetch (Op.run_account deposited_account hop hrun)
  skip _ _ _ hfetch hop := told_of_branch hfetch hop (.silent rfl rfl rfl)
  enter _ _ _ hfetch hop := told_of_branch hfetch hop (.silent rfl rfl rfl)
  leave := by
    intro s
    -- The jump prints a message if its target was written.
    refine told_of_mute ?_
    unfold Machine.leaveSlot
    split
    · exact .print rfl rfl rfl
    · exact .silent rfl rfl rfl

/-! ### Runs -/

/-- **The history is complete.** In every state a run reaches from a loaded image, memory is the
image with the stores of the history; every instruction executed is the word that the stores before
it left at its address; and the stores are, one byte after the other, those of the instructions
executed, each behind the dispatch of its instruction. -/
theorem history_complete {host : Host} {memory : Fin MEMSIZE → U8} {pc : U32} {trace : Bool}
    {s : Machine} (h : Run host (Machine.start memory pc trace) s) :
    s.memory = replay memory s.log ∧ Coherent memory s.log ∧
    s.log.filterMap Event.trail? = s.executedSoFar.flatMap CpuRegisters.trail := by
  have htold : Told s.executedSoFar (Machine.start memory pc trace) s :=
    Ledger.run (fun depth => told_ledger host (dumpasm depth)) ⟨[], rfl, rfl, trivial, rfl⟩ h
  obtain ⟨new, hlog, hmem, hcoherent, htrail⟩ := htold
  obtain rfl : s.log = new := hlog.trans (List.append_nil new)
  exact ⟨hmem, hcoherent, htrail⟩

/-- The program `sw v0, 0x104; (a word to be overwritten)`: the second instruction executed is the
word the first one stored. -/
theorem history_complete_store : ∃ s,
    Run .flat (Machine.start (program 0x100 [0xac000104, 0xffffffff]) 0x100 false) s ∧
    s.cpu.code = 0 ∧ Coherent (program 0x100 [0xac000104, 0xffffffff]) s.log := by
  have hrun := Relation.ReflTransGen.tail (Relation.ReflTransGen.single
    (show Returns .flat (Machine.start (program 0x100 [0xac000104, 0xffffffff]) 0x100 false) _ from
      ⟨0, 1, rfl⟩)) (show Returns .flat _ _ from ⟨0, 1, rfl⟩)
  exact ⟨_, hrun, by decide, (history_complete hrun).2.1⟩

end Ps2Unpacker
