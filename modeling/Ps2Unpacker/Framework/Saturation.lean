import Mathlib.Tactic.Ring
import Ps2Unpacker.Framework.Lanes

/-!
# Saturation

A signed sum or difference of `w` bits that does not fit `w` bits is replaced by the nearest number
that does (`saturate`). An implementation computes it exactly at a greater width, tests it against
the ends of the range, and otherwise cuts it to `w` bits; what it returns when it tests the upper
end only is `saturateAbove`.

* `toInt_signExtend_add`, `toInt_setWidth_sub` and their likes: the wide sum or difference is exact.
* `toInt_setWidth_of_le`: cutting to `w` bits wraps.
* `saturateAbove_eq_iff`: without a test of the lower end the result is right exactly where it is
  not needed.
-/

namespace Lanes

variable {w v : Nat}

/-- The nearest signed number of `w` bits. -/
def saturate (w : Nat) (x : Int) : Int := max (-2 ^ (w - 1)) (min x (2 ^ (w - 1) - 1))

/-- Saturation at the upper end, wrapping elsewhere. -/
def saturateAbove (w : Nat) (x : Int) : Int :=
  if 2 ^ (w - 1) - 1 ≤ x then 2 ^ (w - 1) - 1 else x.bmod (2 ^ w)

/-- Half of the range of `w` bits. -/
theorem two_pow_half (hw : 0 < w) : (2 : Int) ^ w = 2 * 2 ^ (w - 1) := by
  obtain ⟨u, rfl⟩ : ∃ u, w = u + 1 := ⟨w - 1, by omega⟩
  rw [Nat.add_sub_cancel, pow_succ]
  ring

/-- Half the range is not empty. -/
theorem half_pos (w : Nat) : (0 : Int) < 2 ^ (w - 1) := Int.pow_pos (by decide)

/-- A number of `w` bits is not changed. -/
theorem saturate_of_mem {x : Int} (hlo : -2 ^ (w - 1) ≤ x) (hhi : x < 2 ^ (w - 1)) :
    saturate w x = x := by
  unfold saturate
  omega

/-- From the upper end on, saturation gives the upper end. -/
theorem saturate_of_ge {x : Int} (h : 2 ^ (w - 1) - 1 ≤ x) : saturate w x = 2 ^ (w - 1) - 1 := by
  have hpos := half_pos w
  unfold saturate
  omega

theorem saturate_of_lt {x : Int} (h : x < -2 ^ (w - 1)) : saturate w x = -2 ^ (w - 1) := by
  have hpos := half_pos w
  unfold saturate
  omega

/-- The upper end is the nearest number to those from it on. -/
theorem saturate_eq_max_iff {x : Int} :
    2 ^ (w - 1) - 1 = saturate w x ↔ 2 ^ (w - 1) - 1 ≤ x := by
  have hpos := half_pos w
  unfold saturate
  omega

/-- The lower end is the nearest number to those up to it. -/
theorem saturate_eq_min_iff {x : Int} : -2 ^ (w - 1) = saturate w x ↔ x ≤ -2 ^ (w - 1) := by
  have hpos := half_pos w
  unfold saturate
  omega

/-- Wrapping does not change a number of `w` bits. -/
theorem bmod_of_mem (hw : 0 < w) {x : Int} (hlo : -2 ^ (w - 1) ≤ x) (hhi : x < 2 ^ (w - 1)) :
    x.bmod (2 ^ w) = x := by
  have hpow := two_pow_half hw
  refine Int.bmod_eq_of_le_mul_two ?_ ?_
  · push_cast
    omega
  · push_cast
    omega

/-- Wrapping a number below the range by less than its length leads into the upper half. -/
theorem bmod_of_below (hw : 0 < w) {x : Int} (hlo : -2 ^ w ≤ x) (hhi : x < -2 ^ (w - 1)) :
    x.bmod (2 ^ w) = x + 2 ^ w := by
  have hpow := two_pow_half hw
  have hcast : ((2 ^ w : Nat) : Int) = 2 ^ w := by push_cast; rfl
  -- Going up by the length of the range does not change what is wrapped to.
  rw [← Int.add_bmod_right x (2 ^ w), hcast]
  exact bmod_of_mem hw (by omega) (by omega)

/-- **The upper end alone** is enough exactly for numbers that do not pass the lower end. -/
theorem saturateAbove_eq_iff (hw : 0 < w) {x : Int} (hlo : -2 ^ w ≤ x) :
    saturateAbove w x = saturate w x ↔ -2 ^ (w - 1) ≤ x := by
  have hpow := two_pow_half hw
  have hpos := half_pos w
  unfold saturateAbove
  by_cases hhi : 2 ^ (w - 1) - 1 ≤ x
  · -- From the upper end on, both give the upper end.
    rw [if_pos hhi, saturate_of_ge hhi]
    exact iff_of_true rfl (by omega)
  · rw [if_neg hhi]
    by_cases hin : -2 ^ (w - 1) ≤ x
    · rw [bmod_of_mem hw hin (by omega), saturate_of_mem hin (by omega)]
      exact iff_of_true rfl hin
    · -- The wrapped number is not negative, and the nearest one is.
      rw [bmod_of_below hw hlo (by omega), saturate_of_lt (by omega)]
      exact iff_of_false (by omega) hin

/-! ### Exact sums and differences -/

section Exact

variable (s t : BitVec w)

/-- A wider word keeps the unsigned value, as a signed one. -/
theorem toInt_setWidth_of_lt (hv : w < v) : (s.setWidth v).toInt = s.toNat := by
  rw [BitVec.toInt_setWidth]
  -- One bit more is enough to keep the sign bit clear.
  have hpow : 2 ^ (w + 1) ≤ 2 ^ v := Nat.pow_le_pow_right (by decide) hv
  rw [Nat.pow_succ] at hpow
  have hs := s.isLt
  exact Int.bmod_eq_of_le_mul_two (by omega) (by omega)

/-- Cutting wraps. -/
theorem toInt_setWidth_of_le (hv : v ≤ w) : (s.setWidth v).toInt = s.toInt.bmod (2 ^ v) := by
  rw [← BitVec.signExtend_eq_setWidth_of_le s hv, BitVec.toInt_signExtend_eq_toInt_bmod_of_le s hv]

/-- Addition is exact where the sum fits. -/
theorem toInt_add_exact {x y : BitVec v} (hlo : -2 ^ (v - 1) ≤ x.toInt + y.toInt)
    (hhi : x.toInt + y.toInt < 2 ^ (v - 1)) (hv : 0 < v) :
    (x + y).toInt = x.toInt + y.toInt := by
  rw [BitVec.toInt_add, bmod_of_mem hv hlo hhi]

/-- Subtraction is exact where the difference fits. -/
theorem toInt_sub_exact {x y : BitVec v} (hlo : -2 ^ (v - 1) ≤ x.toInt - y.toInt)
    (hhi : x.toInt - y.toInt < 2 ^ (v - 1)) (hv : 0 < v) :
    (x - y).toInt = x.toInt - y.toInt := by
  rw [BitVec.toInt_sub, bmod_of_mem hv hlo hhi]

/-- The range of `w` bits lies inside half of that of a greater width. -/
theorem two_pow_le_half (hv : w < v) : (2 : Int) ^ w ≤ 2 ^ (v - 1) := by
  exact_mod_cast Nat.pow_le_pow_right (show 0 < 2 by decide) (by omega : w ≤ v - 1)

/-- One bit more is enough for a sum. -/
theorem toInt_signExtend_add (hw : 0 < w) (hv : w < v) :
    (s.signExtend v + t.signExtend v).toInt = s.toInt + t.toInt := by
  -- The two terms stay below half of the greater range, so their sum does not leave it.
  have hs := s.le_toInt
  have hs' := s.toInt_lt
  have ht := t.le_toInt
  have ht' := t.toInt_lt
  have hle := two_pow_le_half hv
  have hpow := two_pow_half hw
  have hS : (s.signExtend v).toInt = s.toInt := BitVec.toInt_signExtend_of_le (by omega)
  have hT : (t.signExtend v).toInt = t.toInt := BitVec.toInt_signExtend_of_le (by omega)
  rw [toInt_add_exact (by omega) (by omega) (by omega), hS, hT]

/-- So it is for a difference. -/
theorem toInt_signExtend_sub (hw : 0 < w) (hv : w < v) :
    (s.signExtend v - t.signExtend v).toInt = s.toInt - t.toInt := by
  have hs := s.le_toInt
  have hs' := s.toInt_lt
  have ht := t.le_toInt
  have ht' := t.toInt_lt
  have hle := two_pow_le_half hv
  have hpow := two_pow_half hw
  have hS : (s.signExtend v).toInt = s.toInt := BitVec.toInt_signExtend_of_le (by omega)
  have hT : (t.signExtend v).toInt = t.toInt := BitVec.toInt_signExtend_of_le (by omega)
  rw [toInt_sub_exact (by omega) (by omega) (by omega), hS, hT]

/-- The unsigned difference needs one bit more than the operands. -/
theorem toInt_setWidth_sub (hv : w < v) :
    (s.setWidth v - t.setWidth v).toInt = (s.toNat : Int) - t.toNat := by
  have hs : (s.toNat : Int) < 2 ^ w := by exact_mod_cast s.isLt
  have ht : (t.toNat : Int) < 2 ^ w := by exact_mod_cast t.isLt
  have hle := two_pow_le_half hv
  have hS := toInt_setWidth_of_lt s hv
  have hT := toInt_setWidth_of_lt t hv
  rw [toInt_sub_exact (by omega) (by omega) (by omega), hS, hT]

/-- The unsigned sum needs two. -/
theorem toInt_setWidth_add (hv : w + 1 < v) :
    (s.setWidth v + t.setWidth v).toInt = (s.toNat : Int) + t.toNat := by
  have hs : (s.toNat : Int) < 2 ^ w := by exact_mod_cast s.isLt
  have ht : (t.toNat : Int) < 2 ^ w := by exact_mod_cast t.isLt
  have hle := two_pow_le_half hv
  rw [pow_succ] at hle
  have hS := toInt_setWidth_of_lt s (by omega : w < v)
  have hT := toInt_setWidth_of_lt t (by omega : w < v)
  have hpos := half_pos v
  rw [toInt_add_exact (by omega) (by omega) (by omega), hS, hT]

/-- The unsigned value of a signed number. -/
theorem toNat_eq_toInt (s : BitVec w) :
    (s.toNat : Int) = if s.toInt < 0 then s.toInt + 2 ^ w else s.toInt := by
  have hs := s.isLt
  have hcond := BitVec.toInt_eq_toNat_cond s
  have hcast : ((2 ^ w : Nat) : Int) = 2 ^ w := by push_cast; rfl
  split at hcond
  · rw [if_neg (by omega), hcond]
  · rw [if_pos (by omega), hcond]
    omega

/-- **The unsigned difference** in place of the signed one. Where the signs differ it is off by the
length of the range. -/
theorem saturateAbove_toNat_sub_iff (hw : 0 < w) :
    saturateAbove w ((s.toNat : Int) - t.toNat) = saturate w (s.toInt - t.toInt) ↔
      (0 ≤ s.toInt ∨ t.toInt < 0) ∧ s.toInt - t.toInt < 2 ^ (w - 1) := by
  have hs := s.le_toInt
  have hs' := s.toInt_lt
  have ht := t.le_toInt
  have ht' := t.toInt_lt
  have hpow := two_pow_half hw
  have hpos := half_pos w
  have hcast : ((2 ^ w : Nat) : Int) = 2 ^ w := by push_cast; rfl
  rw [toNat_eq_toInt s, toNat_eq_toInt t]
  generalize s.toInt = x at *
  generalize t.toInt = y at *
  unfold saturateAbove
  by_cases hx : x < 0
  · by_cases hy : y < 0
    · -- both negative
      have hsame : x + 2 ^ w - (y + 2 ^ w) = x - y := by omega
      rw [if_pos hx, if_pos hy, hsame]
      refine iff_of_true ?_ (by omega)
      exact (saturateAbove_eq_iff hw (by omega)).mpr (by omega)
    · -- The difference is negative, and what is tested is positive.
      rw [if_pos hx, if_neg hy]
      refine iff_of_false ?_ (by omega)
      by_cases hge : 2 ^ (w - 1) - 1 ≤ x + 2 ^ w - y
      · rw [if_pos hge]
        unfold saturate
        omega
      · rw [if_neg hge, bmod_of_mem hw (by omega) (by omega), saturate_of_lt (by omega)]
        omega
  · by_cases hy : y < 0
    · -- The difference is positive, and what is tested is negative.
      have hsub : x - (y + 2 ^ w) + ((2 ^ w : Nat) : Int) = x - y := by omega
      rw [if_neg hx, if_pos hy, if_neg (by omega), ← Int.add_bmod_right _ (2 ^ w), hsub]
      by_cases hlt : x - y < 2 ^ (w - 1)
      · rw [bmod_of_mem hw (by omega) hlt, saturate_of_mem (by omega) hlt]
        exact iff_of_true rfl (by omega)
      · have hwrap : (x - y).bmod (2 ^ w) = x - y - 2 ^ w := by
          rw [← Int.sub_bmod_right (x - y) (2 ^ w), hcast]
          exact bmod_of_mem hw (by omega) (by omega)
        rw [hwrap, saturate_of_ge (by omega)]
        exact iff_of_false (by omega) (by omega)
    · -- neither
      rw [if_neg hx, if_neg hy]
      refine iff_of_true ?_ (by omega)
      exact (saturateAbove_eq_iff hw (by omega)).mpr (by omega)

end Exact

end Lanes
