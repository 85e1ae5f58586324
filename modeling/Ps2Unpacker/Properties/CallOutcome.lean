import Ps2Unpacker.Properties.Unrolling
import Ps2Unpacker.Properties.Verdicts

/-!
# How a call ends

The verdict on a call, with the reports of the program. They go through the same accessors as the
program they report on, so a report around an address without a word is itself reported, from the
same program counter, and so on: no depth of the recursion is enough, and the stack overflows.

* `reports_dumpasm`: the program counters whose surroundings can be read.
* `execI_overflows_of_no_chain`: a chain that runs out of memory ends in a report that cannot be
  read.
* `call_outcome`: the four ways a call ends, each with its exact condition.
-/

namespace Ps2Unpacker

open CProg Lanes Prog

/-! ### The reports of the program -/

/-- The report of the interpreter exits where it is legible, and overflows elsewhere. -/
theorem reports_dumpasm (depth : Nat) : Reports (dumpasm (depth + 1)) Legible where
  exits hlegible msg := ⟨-1, fatal_of_legible hlegible depth msg⟩
  endless hillegible msg := fatal_of_not_legible _ _ msg hillegible

/-- The report around a word that cannot be read comes to that word. -/
theorem not_legible_of_word {pc : U32} (h : ∃ j, j < 4 ∧ ¬Accepted (pc - 4 + BitVec.ofNat 32 j)) :
    ¬Legible pc := by
  obtain ⟨j, hj, hbad⟩ := h
  intro hlegible
  have hcenter : Accepted (pc - 4 + 0#32 + BitVec.ofNat 32 j) := hlegible 0 (by decide) j hj
  rw [BitVec.add_zero] at hcenter
  exact hbad hcenter

/-- A fetch that fails is reported without end. -/
theorem fetch_leaves (depth : Nat) : (fetch (dumpasm depth)).Leaves fun _ x => x = .outOfFuel := by
  intro s x h
  cases hword : fetchWord s.memory s.cpu.pc with
  | some code =>
    -- With a word to fetch, the fetch returns.
    obtain ⟨s₀, hfetch⟩ := (@fetch_returns_iff (dumpasm depth) s).mpr ⟨code, hword⟩
    rw [hfetch] at h
    cases h
  | none =>
    -- Without one, the word that cannot be fetched is among those of the report.
    obtain ⟨msg, t, hfetch, hpc, hbad⟩ := @fetch_of_no_word (dumpasm depth) s hword
    have hillegible : ¬Legible t.cpu.pc := not_legible_of_word (by rwa [hpc, BitVec.add_sub_cancel])
    rw [hfetch, fatal_of_not_legible depth t msg hillegible] at h
    cases h
    rfl

/-! ### One call -/

/-- No depth of the recursions through reports and through delay slots is enough for the call; the
stack of the program overflows. -/
def Overflows (host : Host) (s : Machine) : Prop :=
  ∀ depth levels, execI host (dumpasm depth) levels s = .outOfFuel

section Call

variable {host : Host} {s : Machine}

/-- A chain that runs into an address without a word has no last instruction. -/
theorem execI_overflows_of_no_chain
    (hnone : ∀ branches last, ¬DelayChain s.memory s.cpu branches last) : Overflows host s := by
  intro depth levels
  by_contra hrun
  -- With levels enough to come to the word, the call would end no differently.
  obtain ⟨ts, hts⟩ := exists_calls ((nestedCall_wf (dumpasm depth)).apply s)
  obtain ⟨msg, t, hfatal, hbad⟩ :=
    @execI_of_no_chain host _ s ts hts hnone (levels + (ts.length + 1)) (by omega)
  refine hrun ?_
  rw [← execI_below host (Nat.le_refl depth) (Nat.le_add_right levels _) hrun, hfatal]
  exact fatal_of_not_legible depth t msg (not_legible_of_word hbad)

/-- **A call that ends** has a delay chain, and ends as it says. -/
theorem execI_ends {depth levels : Nat}
    (h : execI host (dumpasm depth) levels s ≠ .outOfFuel) :
    ∃ branches last, DelayChain s.memory s.cpu branches last ∧
      Verdict Legible (Escapes branches) last (execI host (dumpasm depth) levels s) := by
  by_cases hsome : ∃ branches last, DelayChain s.memory s.cpu branches last
  · obtain ⟨branches, last, hchain⟩ := hsome
    -- With more levels than branches it ends no differently.
    have hmore := @execI_verdict host _ _ (reports_dumpasm depth) _ _ _ _ hchain s
      (levels + (branches.length + 1)) rfl rfl (by omega)
    rw [execI_below host (Nat.le_succ depth) (Nat.le_add_right levels _) h] at hmore
    exact ⟨branches, last, hchain, hmore⟩
  · -- No chain at all means no end.
    push Not at hsome
    exact absurd (execI_overflows_of_no_chain hsome depth levels) h

/-- With a level for each branch of its chain, a call has its verdict. -/
theorem execI_settles {branches : List CpuRegisters} {last : CpuRegisters}
    (h : DelayChain s.memory s.cpu branches last) :
    Verdict Legible (Escapes branches) last
      (execI host (dumpasm 1) (branches.length + 1) s) :=
  execI_verdict (reports_dumpasm 0) h rfl rfl (Nat.lt_succ_self _)

/-- **A call overflows the stack** if its chain does not end, or the report of its last instruction
does not. -/
theorem overflows_iff : Overflows host s ↔
    ∀ branches last, DelayChain s.memory s.cpu branches last → last.Blocked Legible := by
  constructor
  · -- If no run ends, none with levels enough does.
    intro hall branches last hchain
    exact (execI_settles hchain).endless_iff.mp (hall _ _)
  · intro hblocked depth levels
    -- A run that ended would have a chain, and its verdict would be another one.
    by_contra hrun
    obtain ⟨branches, last, hchain, hlast⟩ := execI_ends hrun
    exact hrun (hlast.endless_iff.mpr (hblocked branches last hchain))

end Call

/-- **How a call ends.** A call of the interpreter ends in one of four ways, decided by its delay
chain: by the registers the last instruction is dispatched with, and by the final target of the
branches. It returns if the last instruction is defined and has no reason to end the program, and
the target of the branches, if there are any, has a tag. It exits if the last instruction has such a
reason and its report, if there is one, can be read. It goes wrong if the last instruction is
undefined, or returns and leaves the branches a target without a tag. And it overflows the stack
exactly if there is no last instruction, or its report cannot be read. -/
theorem call_outcome (host : Host) (s : Machine) :
    ((∃ s', Returns host s s') ↔ ∃ branches last, DelayChain s.memory s.cpu branches last ∧
        ¬last.Undefined ∧ ¬last.Faults ∧ ¬Escapes branches) ∧
      ((∃ depth levels status s', execI host (dumpasm depth) levels s = .exit status s') ↔
        ∃ branches last, DelayChain s.memory s.cpu branches last ∧ last.Faults ∧
          ¬last.Blocked Legible) ∧
      ((∃ depth levels s', execI host (dumpasm depth) levels s = .undefined s') ↔
        ∃ branches last, DelayChain s.memory s.cpu branches last ∧
          (last.Undefined ∨ ¬last.Faults ∧ Escapes branches)) ∧
      (Overflows host s ↔
        ∀ branches last, DelayChain s.memory s.cpu branches last → last.Blocked Legible) := by
  -- A call that ends has a verdict, and with levels enough the verdict is what the call comes to.
  refine ⟨⟨?_, ?_⟩, ⟨?_, ?_⟩, ⟨?_, ?_⟩, overflows_iff⟩
  · -- It returns.
    rintro ⟨s', depth, levels, hrun⟩
    obtain ⟨branches, last, hchain, hlast⟩ := execI_ends (hrun.trans_ne nofun)
    exact ⟨branches, last, hchain, hlast.returns_iff.mp ⟨s', hrun⟩⟩
  · -- The chain gives the levels, and one report is deep enough.
    rintro ⟨branches, last, hchain, hreturns⟩
    obtain ⟨s', hrun⟩ := (execI_settles hchain).returns_iff.mpr hreturns
    exact ⟨s', 1, _, hrun⟩
  · -- It exits.
    rintro ⟨depth, levels, status, s', hrun⟩
    obtain ⟨branches, last, hchain, hlast⟩ := execI_ends (hrun.trans_ne nofun)
    exact ⟨branches, last, hchain, hlast.exits_iff.mp ⟨status, s', hrun⟩⟩
  · rintro ⟨branches, last, hchain, hexits⟩
    obtain ⟨status, s', hrun⟩ := (execI_settles hchain).exits_iff.mpr hexits
    exact ⟨1, _, status, s', hrun⟩
  · -- It goes wrong.
    rintro ⟨depth, levels, s', hrun⟩
    obtain ⟨branches, last, hchain, hlast⟩ := execI_ends (hrun.trans_ne nofun)
    exact ⟨branches, last, hchain, hlast.undefined_iff.mp ⟨s', hrun⟩⟩
  · rintro ⟨branches, last, hchain, hundefined⟩
    obtain ⟨s', hrun⟩ := (execI_settles hchain).undefined_iff.mpr hundefined
    exact ⟨1, _, s', hrun⟩

end Ps2Unpacker
