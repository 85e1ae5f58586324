import Ps2Unpacker.Properties.Runs

/-!
# What a run adds up to

A call of the interpreter executes one or more instructions, one inside the other when the delay
slots nest, and a run is one call after the other. A `Ledger` is a relation between two states that
is indexed by the instructions executed between them; to know it of a run it is enough to know it of
each of the few steps a call is made of.

* `Ledger.execI`: a ledger of the steps is one of the calls.
* `Ledger.run`: from the start, it holds with all instructions executed so far.
-/

namespace Ps2Unpacker

open CProg

/-- The instructions a machine has executed so far, newest first. -/
def Machine.executedSoFar (s : Machine) : List CpuRegisters := s.log.filterMap Event.dispatched?

/-- The steps of a call satisfy the relation with the instructions they dispatch, newest first. -/
structure Ledger (host : Host) (report : U32 → M Unit)
    (T : List CpuRegisters → Machine → Machine → Prop) : Prop where
  trans ⦃xs ys : List CpuRegisters⦄ ⦃s₁ s₂ s₃ : Machine⦄ : T xs s₁ s₂ → T ys s₂ s₃ →
    T (ys ++ xs) s₁ s₃
  /-- An instruction that is not a branch. -/
  straight ⦃s s₀ s' : Machine⦄ ⦃execI : M Unit⦄ : fetch report s = .ok () s₀ →
    (∀ o, decode s₀.cpu.code ≠ .branch o) →
    (decode s₀.cpu.code).run host report execI s₀ = .ok () s' → T [s₀.cpu] s s'
  /-- A branch that is not taken. -/
  skip ⦃s s₀ : Machine⦄ ⦃o : BranchOp⦄ : fetch report s = .ok () s₀ →
    decode s₀.cpu.code = .branch o → T [s₀.cpu] s { s₀ with cpu := o.skip s₀.cpu }
  /-- A taken branch up to its delay slot, -/
  enter ⦃s s₀ : Machine⦄ ⦃o : BranchOp⦄ : fetch report s = .ok () s₀ →
    decode s₀.cpu.code = .branch o → T [s₀.cpu] s (s₀.enterSlot o)
  /-- and the jump after it. -/
  leave (s : Machine) : T [] s s.leaveSlot

/-! ### What is executed -/

/-- What dispatches nothing adds no instruction. -/
theorem executedSoFar_of_none {s s' : Machine} {new : List Event} (hlog : s'.log = new ++ s.log)
    (hnew : ∀ e ∈ new, e.dispatched? = none) : s'.executedSoFar = s.executedSoFar := by
  unfold Machine.executedSoFar
  rw [hlog, List.filterMap_append, List.filterMap_eq_nil_iff.mpr hnew]
  rfl

/-- The fetch adds the instruction it dispatches. -/
theorem Fetched.executedSoFar {s s₀ : Machine} (h : Fetched s s₀) :
    s₀.executedSoFar = s₀.cpu :: s.executedSoFar := by
  obtain ⟨new, hnew, hext⟩ := h.history
  have hnone : new.filterMap Event.dispatched? = [] := by
    refine List.filterMap_eq_nil_iff.mpr fun e he => ?_
    obtain ⟨msg, rfl⟩ := hnew e he
    rfl
  unfold Machine.executedSoFar
  rw [hext.log, List.filterMap_append, List.filterMap_cons, hnone]
  rfl

/-- The jump adds none. -/
theorem leaveSlot_executedSoFar (s : Machine) :
    s.leaveSlot.executedSoFar = s.executedSoFar := by
  obtain ⟨new, hnew, hext⟩ := leaveSlot_log s
  refine executedSoFar_of_none hext.log fun e he => ?_
  obtain ⟨msg, rfl⟩ := hnew e he
  rfl

namespace Ledger

variable {host : Host} {report : U32 → M Unit} {T : List CpuRegisters → Machine → Machine → Prop}

/-- **One call** satisfies the relation with the instructions it executes. -/
theorem execI (h : Ledger host report T) (n : Nat) :
    (execI host report n).Within fun s s' =>
      ∃ xs, T xs s s' ∧ s'.executedSoFar = xs ++ s.executedSoFar := by
  -- On the depth: the delay slot of a taken branch is a call one level down.
  induction n with
  | zero => exact Prog.within_diverge
  | succ n ih =>
    intro s _ s' hrun
    obtain ⟨_, s₀, hfetch, hrun⟩ := Prog.bind_eq_ok.mp hrun
    have hexec := (fetch_ensures report hfetch).executedSoFar
    rw [cpu_bind] at hrun
    by_cases hop : ∃ o, decode s₀.cpu.code = .branch o
    · obtain ⟨o, ho⟩ := hop
      rw [ho] at hrun
      change o.run (Ps2Unpacker.execI host report n) s₀ = _ at hrun
      -- Taken: the call records its branch, then what the slot does, then the jump.
      by_cases htaken : o.taken s₀.cpu = true
      · rw [BranchOp.run_of_taken htaken] at hrun
        obtain ⟨_, s₁, hslot, hfinish⟩ := Prog.bind_eq_ok.mp hrun
        obtain ⟨-, rfl⟩ := finishBranch_eq_ok.mp hfinish
        obtain ⟨xs, hxs, hexecSlot⟩ := ih hslot
        refine ⟨_, h.trans (h.trans (h.enter hfetch ho) hxs) (h.leave s₁), ?_⟩
        rw [leaveSlot_executedSoFar, hexecSlot]
        change xs ++ s₀.executedSoFar = _
        rw [hexec, List.nil_append, List.append_assoc]
        rfl
      · -- Not taken: the call returns with the word of the branch.
        rw [BranchOp.run_eq, if_neg htaken] at hrun
        cases hrun
        exact ⟨_, h.skip hfetch ho, hexec⟩
    · -- No branch: the handler alone.
      have hne : ∀ o, decode s₀.cpu.code ≠ .branch o := fun o ho => hop ⟨o, ho⟩
      obtain ⟨new, hnew, hext⟩ := (Op.run_straight hne hrun).history
      refine ⟨_, h.straight hfetch hne hrun, ?_⟩
      rw [executedSoFar_of_none hext.log hnew, hexec]
      rfl

/-- **Runs** from the start satisfy the relation with all instructions executed so far. -/
theorem run {host : Host} (h : ∀ depth, Ledger host (dumpasm depth) T)
    {memory : Fin MEMSIZE → U8} {pc : U32} {trace : Bool} {s : Machine}
    (hstart : T [] (Machine.start memory pc trace) (Machine.start memory pc trace))
    (hrun : Run host (Machine.start memory pc trace) s) :
    T s.executedSoFar (Machine.start memory pc trace) s := by
  -- On the run: the calls of the last round come after those before it.
  induction hrun with
  | refl => exact hstart
  | tail _ hlast ih =>
    obtain ⟨depth, levels, hcall⟩ := hlast
    obtain ⟨xs, hxs, hexec⟩ := (h depth).execI levels hcall
    rw [hexec]
    exact (h depth).trans ih hxs

end Ledger

end Ps2Unpacker
