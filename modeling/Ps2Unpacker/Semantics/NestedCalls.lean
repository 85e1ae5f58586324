import Ps2Unpacker.Framework.Halting
import Ps2Unpacker.Semantics.DelayChain

/-!
# Calls of the interpreter from the interpreter

A call of `execI` that dispatches a branch that is taken calls `execI` again for the delay slot, and
no other call does. `nestedCall report s` is the state in which the call from `s` does so.

* `fetch_returns_iff`: a call gets as far as the dispatch if memory has a word at its program
  counter.
* `execI_of_nested`, `execI_of_leaf`: a call in terms of the nested one, or without any.
* `nestedCall_pc`, `nestedCall_wf`: the nested call fetches four bytes on, which cannot go on
  forever.
-/

namespace Ps2Unpacker

open CProg Lanes

variable {report : U32 → M Unit} {s t : Machine}

/-! ### The fetch -/

/-- A load finds all its bytes. -/
theorem loadFrom_accepted {w : Nat} {memory : Fin MEMSIZE → U8} {mem : U32} (n : Nat) :
    ∀ {k : Nat} {value v : BitVec w}, loadFrom memory mem k n value = some v →
      ∀ j, k ≤ j → j < k + n → Accepted (mem + BitVec.ofNat 32 j) := by
  induction n with
  | zero =>
    intro k value v _ j hlo hhi
    omega
  | succ n ih =>
    intro k value v h j hlo hhi
    obtain ⟨m, hm, hrest⟩ := Option.bind_eq_some_iff.mp h
    -- Byte `k` was accepted first, and the rest of the load found the others.
    by_cases hj : j = k
    · rw [hj]
      exact Option.isSome_iff_exists.mpr ⟨m, hm⟩
    · exact ih hrest j (by omega) (by omega)

/-- A message is printed in every state. -/
theorem printfIf_returns (c : Bool) (msg : Message) (s : Machine) :
    ∃ s', printfIf c msg s = .ok () s' := by
  unfold printfIf
  split
  · exact ⟨_, rfl⟩
  · exact ⟨s, rfl⟩

/-- The fetch returns exactly if there is a word to fetch. -/
theorem fetch_returns_iff :
    (∃ s₀, fetch report s = .ok () s₀) ↔ ∃ code, fetchWord s.memory s.cpu.pc = some code := by
  constructor
  · rintro ⟨s₀, h⟩
    exact ⟨_, (fetch_ensures report h).word⟩
  · rintro ⟨_, hword⟩
    unfold fetch
    rw [cpu_bind, modifyCpu_bind, cpu_bind]
    -- The two messages are printed or not, and the word between them is read.
    obtain ⟨s₁, h₁⟩ := printfIf_returns _ _ _
    obtain ⟨code, s₂, h₂⟩ : ∃ code s₂, memRead32 report s.cpu.pc s₁ = .ok code s₂ :=
      readFrom_of_accepted report s.cpu.pc 4 0 0 s₁ (loadFrom_accepted 4 hword)
    rw [Prog.bind_ok_of h₁, Prog.bind_ok_of h₂, modifyCpu_bind, Prog.get_bind]
    obtain ⟨s₃, h₃⟩ := printfIf_returns _ _ _
    exact ⟨_, Prog.bind_ok_of h₃⟩

/-! ### The nested call -/

/-- The state in which the call from `s` calls the interpreter for a delay slot, if it does. -/
def nestedCall (report : U32 → M Unit) (s : Machine) : Option Machine :=
  match fetch report s with
  | .ok _ s₀ => s₀.cpu.takenBranch.map fun o => s₀.enterSlot o
  | _ => none

/-- The fetch of the call from `s` succeeds. -/
def fetches (report : U32 → M Unit) (s : Machine) : Bool :=
  match fetch report s with
  | .ok _ _ => true
  | _ => false

/-- The decidable form says the same. -/
theorem fetches_iff : fetches report s = true ↔ ∃ s₀, fetch report s = .ok () s₀ := by
  unfold fetches
  cases h : fetch report s with
  | ok u s₀ => exact iff_of_true rfl ⟨s₀, rfl⟩
  | exit | undefined | outOfFuel => simp

/-- The call in the delay slot, if the fetch returns. -/
theorem nestedCall_of_fetch {s₀ : Machine} (h : fetch report s = .ok () s₀) :
    nestedCall report s = s₀.cpu.takenBranch.map fun o => s₀.enterSlot o := by
  unfold nestedCall
  rw [h]

/-- A nested call is that of a fetched branch which is taken. -/
theorem nestedCall_eq_some : nestedCall report s = some t ↔
    ∃ s₀ o, fetch report s = .ok () s₀ ∧ s₀.cpu.takenBranch = some o ∧ s₀.enterSlot o = t := by
  unfold nestedCall
  cases h : fetch report s with
  | ok u s₀ =>
    rw [Option.map_eq_some_iff]
    constructor
    · rintro ⟨o, ho, rfl⟩
      exact ⟨s₀, o, rfl, ho, rfl⟩
    · rintro ⟨_, o, heq, ho, rfl⟩
      cases heq
      exact ⟨o, ho, rfl⟩
  | exit | undefined | outOfFuel => simp

/-- A branch is taken if it is one, and its condition holds. -/
theorem takenBranch_eq_some {r : CpuRegisters} {o : BranchOp} :
    r.takenBranch = some o ↔ decode r.code = .branch o ∧ o.taken r = true := by
  constructor
  · -- By the two tests of the definition.
    intro h
    unfold CpuRegisters.takenBranch at h
    split at h
    · rename_i o' ho'
      split at h
      · rename_i htaken
        cases h
        exact ⟨ho', htaken⟩
      · cases h
    · cases h
  · rintro ⟨ho, htaken⟩
    exact takenBranch_of_taken ho htaken

section Call

variable {host : Host} {n : Nat}

/-- Behind the fetch, a call is the handler of the instruction. -/
theorem execI_of_fetch {s₀ : Machine} (h : fetch report s = .ok () s₀) :
    execI host report (n + 1) s =
      (decode s₀.cpu.code).run host report (execI host report n) s₀ :=
  Prog.bind_ok_of h

/-- **A call with a nested call** is that one, and then the jump. -/
theorem execI_of_nested (h : nestedCall report s = some t) :
    execI host report (n + 1) s =
      (execI host report n >>= fun _ => Handler.finishBranch) t := by
  obtain ⟨s₀, o, hfetch, htake, rfl⟩ := nestedCall_eq_some.mp h
  obtain ⟨ho, htaken⟩ := takenBranch_eq_some.mp htake
  rw [execI_of_fetch hfetch, ho]
  change o.run (execI host report n) s₀ = _
  rw [BranchOp.run_eq, if_pos htaken, doBranch_apply]
  rfl

/-- A branch that is not taken. -/
theorem BranchOp.run_of_stop {o : BranchOp} {execI : M Unit} (hd : decode s.cpu.code = .branch o)
    (hstop : s.cpu.takenBranch = none) :
    o.run execI s = .ok () { s with cpu := o.skip s.cpu } := by
  have hskip : ¬o.taken s.cpu = true := fun htaken => by
    rw [takenBranch_of_taken hd htaken] at hstop
    cases hstop
  rw [BranchOp.run_eq, if_neg hskip]

/-- Only a taken branch looks at the interpreter. -/
theorem Op.run_of_stop {execI execI' : M Unit} (hstop : s.cpu.takenBranch = none) :
    (decode s.cpu.code).run host report execI s = (decode s.cpu.code).run host report execI' s := by
  cases hd : decode s.cpu.code with
  | branch o => exact (BranchOp.run_of_stop hd hstop).trans (BranchOp.run_of_stop hd hstop).symm
  | _ => rfl

/-- **A call without one** is the same at any depth. -/
theorem execI_of_leaf (h : nestedCall report s = none) (m n : Nat) :
    execI host report (m + 1) s = execI host report (n + 1) s := by
  cases hfetch : fetch report s with
  | ok u s₀ =>
    rw [nestedCall_of_fetch hfetch, Option.map_eq_none_iff] at h
    rw [execI_of_fetch hfetch, execI_of_fetch hfetch]
    exact Op.run_of_stop h
  | exit | undefined | outOfFuel =>
    -- The call ends in its fetch.
    change (fetch report >>= _) s = (fetch report >>= _) s
    rw [Prog.bind_apply, Prog.bind_apply, hfetch]

end Call

/-! ### Where it fetches -/

/-- **Four bytes on.** -/
theorem nestedCall_pc (h : nestedCall report s = some t) : t.cpu.pc = s.cpu.pc + 4 := by
  obtain ⟨s₀, o, hfetch, -, rfl⟩ := nestedCall_eq_some.mp h
  have hpc : (o.slot s₀.cpu).pc = s₀.cpu.pc := (o.link_quiet s₀.cpu).pc
  change (o.slot s₀.cpu).pc = _
  rw [hpc, (fetch_ensures report hfetch).cpu]
  rfl

/-- **No endless nesting**: a call that fetched did so below the end of the copy window. -/
theorem nestedCall_wf (report : U32 → M Unit) :
    WellFounded fun t s => nestedCall report s = some t := by
  refine Subrelation.wf (fun {t s} h => ?_)
    (measure fun s : Machine => 0x0a000010 - s.cpu.pc.toNat).wf
  obtain ⟨s₀, o, hfetch, -, -⟩ := nestedCall_eq_some.mp h
  -- The program counter of a fetch is far from wrapping around.
  have hlt := fetchWord_lt (fetch_ensures report hfetch).word
  have hpc : t.cpu.pc.toNat = s.cpu.pc.toNat + 4 := by
    rw [nestedCall_pc h, BitVec.toNat_add, show (4 : U32).toNat = 4 from rfl]
    omega
  change 0x0a000010 - t.cpu.pc.toNat < 0x0a000010 - s.cpu.pc.toNat
  omega

end Ps2Unpacker
