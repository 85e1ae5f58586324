import Mathlib.Tactic.Common

/-!
# Leading bits

How many of the bits directly below the top bit of a word equal it, up to the first one that does
not. `LeadingRun x n` says that there are `n` of them, `leadingBits x` computes the number.

* `LeadingRun.unique`, `leadingRun_leadingBits`: there is exactly one such number.
* `leadingRun_last_iff`: it reaches the last bit for the two constant words only.
-/

namespace Lanes

variable {w n m : Nat} {x : BitVec w}

/-- Exactly `n` bits directly below the top bit of `x` equal it. -/
structure LeadingRun (x : BitVec w) (n : Nat) : Prop where
  lt : n < w
  same : ∀ j, j < n → x.getLsbD (w - 2 - j) = x.msb
  /-- The bit behind the run, if the run does not end with the word. -/
  stop : n + 1 < w → x.getLsbD (w - 2 - n) ≠ x.msb

/-- The number of those bits. -/
def leadingBits (x : BitVec w) : Nat :=
  (List.range (w - 1)).findIdx fun j => x.getLsbD (w - 2 - j) != x.msb

namespace LeadingRun

/-- No word has two leading runs. -/
theorem unique (h : LeadingRun x n) (h' : LeadingRun x m) : n = m := by
  -- A run that reached further would contain the bit at which the other one stops.
  have hle : ∀ {n m}, LeadingRun x n → LeadingRun x m → m ≤ n := by
    intro n m h h'
    by_contra hlt
    have := h'.lt
    exact h.stop (by omega) (h'.same n (by omega))
  exact Nat.le_antisymm (hle h' h) (hle h h')

end LeadingRun

/-- The number of leading bits is the length of the leading run. -/
theorem leadingRun_leadingBits (hw : 0 < w) (x : BitVec w) : LeadingRun x (leadingBits x) := by
  have hle : leadingBits x ≤ w - 1 := by
    have hlen : leadingBits x ≤ (List.range (w - 1)).length := List.findIdx_le_length
    rwa [List.length_range] at hlen
  refine ⟨by omega, fun j hj => ?_, fun hstop => ?_⟩
  · -- All tests before the first success fail, so the bits equal the top one.
    have hnot := List.not_of_lt_findIdx hj
    rw [List.getElem_range] at hnot
    simpa using hnot
  · -- If the search stopped early, its test succeeded there.
    have hlt : leadingBits x < (List.range (w - 1)).length := by
      rw [List.length_range]
      omega
    unfold leadingBits at hlt ⊢
    have hfound := List.findIdx_getElem (w := hlt)
    rw [List.getElem_range] at hfound
    simpa using hfound

/-- **The constant words** are those in which all bits equal the top one. -/
theorem leadingRun_last_iff (hw : 0 < w) :
    LeadingRun x (w - 1) ↔ x = 0 ∨ x = BitVec.allOnes w := by
  constructor
  · intro h
    -- Every bit is the top one or below it.
    have hall : ∀ i, i < w → x.getLsbD i = x.msb := by
      intro i hi
      by_cases htop : i = w - 1
      · rw [htop, BitVec.msb_eq_getLsbD_last]
      · have hbit := h.same (w - 2 - i) (by omega)
        rwa [show w - 2 - (w - 2 - i) = i by omega] at hbit
    cases hmsb : x.msb with
    | false =>
      left
      apply BitVec.eq_of_getLsbD_eq
      intro i hi
      rw [hall i hi, hmsb]
      simp
    | true =>
      right
      apply BitVec.eq_of_getLsbD_eq
      intro i hi
      rw [hall i hi, hmsb]
      simp [hi]
  · rintro (rfl | rfl)
    · -- No bit lies below the last one, so there is nothing for the run to stop at.
      refine ⟨by omega, fun j hj => ?_, fun hstop => by omega⟩
      simp
    · refine ⟨by omega, fun j hj => ?_, fun hstop => by omega⟩
      have hlt : w - 2 - j < w := by omega
      rw [BitVec.msb_allOnes hw]
      simp [hlt]

/-- How C compares a bit with the top one. -/
theorem ushiftRight_and_one_eq_iff {i : Nat} (hi : i < w) :
    (x >>> i) &&& 1#w = x >>> (w - 1) ↔ x.getLsbD i = x.msb := by
  -- Both sides are zero but for bit 0.
  have hzero : ((x >>> i) &&& 1#w).getLsbD 0 = x.getLsbD i := by
    have hw : 0 < w := by omega
    simp [hw]
  have htop : (x >>> (w - 1)).getLsbD 0 = x.msb := by
    rw [BitVec.getLsbD_ushiftRight, BitVec.msb_eq_getLsbD_last, Nat.add_zero]
  constructor
  · intro h
    rw [← hzero, h, htop]
  · intro h
    apply BitVec.eq_of_getLsbD_eq
    intro j hj
    cases j with
    | zero => rw [hzero, htop, h]
    | succ j =>
      have hout : x.getLsbD (w - 1 + (j + 1)) = false := BitVec.getLsbD_of_ge x _ (by omega)
      rw [BitVec.getLsbD_and, BitVec.getLsbD_one, BitVec.getLsbD_ushiftRight,
        BitVec.getLsbD_ushiftRight, hout]
      simp

end Lanes
