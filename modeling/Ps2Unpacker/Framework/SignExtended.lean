import Ps2Unpacker.Framework.Lanes

/-!
# Narrow values held sign-extended

A machine with wide registers keeps a narrow result by repeating its sign bit: a value of width `n`
is `SignExtended w` if it is the sign extension of its own low `w` bits. On such values the wide and
the narrow comparisons agree (`toInt_eq`, `ult_eq`), and the bitwise operations stay among them.

The proofs go through the bits: `signExtended_iff` says that the bits from `w` on repeat bit `w -
1`.
-/

namespace Lanes

variable {n w v : Nat}

/-- `x` is the sign extension of its low `w` bits. -/
def SignExtended (w : Nat) (x : BitVec n) : Prop := x = (x.setWidth w).signExtend n

/-- The bits from `w` on repeat bit `w - 1`. -/
theorem signExtended_iff {x : BitVec n} (hw : 0 < w) :
    SignExtended w x ↔ ∀ i, w ≤ i → i < n → x.getLsbD i = x.getLsbD (w - 1) := by
  -- Bit `w - 1` is the sign of the low `w` bits.
  have hmsb : (x.setWidth w).msb = x.getLsbD (w - 1) := by
    have hlast : w - 1 < w := by omega
    rw [BitVec.msb_eq_getLsbD_last, BitVec.getLsbD_setWidth, decide_eq_true hlast, Bool.true_and]
  constructor
  · intro h i hwi hin
    have hbit := congrArg (fun z => z.getLsbD i) h
    have hlt : ¬i < w := by omega
    rw [BitVec.getLsbD_signExtend, hmsb] at hbit
    simpa [hin, hlt] using hbit
  · intro h
    apply BitVec.eq_of_getLsbD_eq
    intro i hi
    rw [BitVec.getLsbD_signExtend, hmsb]
    by_cases hiw : i < w
    · simp [hi, hiw]
    · -- From `w` on both sides are the sign bit.
      rw [h i (by omega) hi]
      simp [hi, hiw]

/-- A value survives its sign extension. -/
theorem setWidth_signExtend (hw : w ≤ v) (x : BitVec w) : (x.signExtend v).setWidth w = x := by
  apply BitVec.eq_of_getLsbD_eq
  intro i hi
  have hiv : i < v := by omega
  rw [BitVec.getLsbD_setWidth, BitVec.getLsbD_signExtend]
  simp [hi, hiv]

namespace SignExtended

/-- A value that was extended from fewer bits is sign-extended. -/
theorem signExtend (y : BitVec v) (hv : 0 < v) (hvw : v ≤ w) :
    SignExtended w (y.signExtend n) := by
  rw [signExtended_iff (by omega)]
  intro i hwi hin
  rw [BitVec.getLsbD_signExtend, BitVec.getLsbD_signExtend]
  have h₁ : ¬i < v := by omega
  by_cases h₂ : w - 1 < v
  · -- Here `v = w`, and bit `w - 1` is the sign bit itself.
    have hlast : w - 1 = v - 1 := by omega
    have hn : v - 1 < n := by omega
    simp only [hlast, BitVec.msb_eq_getLsbD_last]
    have h₃ : v - 1 < v := by omega
    simp [hin, h₁, h₃, hn]
  · -- Both bits are past `y`.
    have hn : w - 1 < n := by omega
    simp [hin, h₁, h₂, hn]

/-- A zero-extended value whose sign bit at width `w` is clear. -/
theorem setWidth_iff {y : BitVec w} (hw : 0 < w) (hn : w < n) :
    SignExtended w (y.setWidth n) ↔ y.msb = false := by
  rw [signExtended_iff hw, BitVec.msb_eq_getLsbD_last]
  simp only [BitVec.getLsbD_setWidth]
  constructor
  · intro h
    -- Bit `w` is behind `y`, so the sign bit has to be clear like it.
    have hw := h w (Nat.le_refl w) hn
    have hlast : w - 1 < n := by omega
    have hout : y.getLsbD w = false := BitVec.getLsbD_of_ge y w (Nat.le_refl w)
    simpa [hn, hlast, hout] using hw.symm
  · intro h i hwi hin
    have hout : y.getLsbD i = false := BitVec.getLsbD_of_ge y i hwi
    rw [h, hout]
    simp

/-- A zero-extended value that is narrower than `w`. -/
theorem setWidth (y : BitVec v) (hvw : v < w) : SignExtended w (y.setWidth n) := by
  rw [signExtended_iff (by omega)]
  intro i hwi hin
  rw [BitVec.getLsbD_setWidth, BitVec.getLsbD_setWidth, BitVec.getLsbD_of_ge y i (by omega),
    BitVec.getLsbD_of_ge y (w - 1) (by omega)]
  simp

variable {x y : BitVec n}

/-- A value computed bit by bit from sign-extended ones. -/
theorem bitwise {z : BitVec n} (f : Bool → Bool → Bool) (hw : 0 < w) (hx : SignExtended w x)
    (hy : SignExtended w y) (hz : ∀ i, i < n → z.getLsbD i = f (x.getLsbD i) (y.getLsbD i)) :
    SignExtended w z := by
  rw [signExtended_iff hw] at *
  intro i hwi hin
  rw [hz i hin, hz (w - 1) (by omega), hx i hwi hin, hy i hwi hin]

/-- Intersections of sign-extended values are sign-extended. -/
theorem and (hw : 0 < w) (hx : SignExtended w x) (hy : SignExtended w y) :
    SignExtended w (x &&& y) :=
  bitwise Bool.and hw hx hy fun _ _ => BitVec.getLsbD_and

/-- So are unions. -/
theorem or (hw : 0 < w) (hx : SignExtended w x) (hy : SignExtended w y) :
    SignExtended w (x ||| y) :=
  bitwise Bool.or hw hx hy fun _ _ => BitVec.getLsbD_or

/-- So are symmetric differences. -/
theorem xor (hw : 0 < w) (hx : SignExtended w x) (hy : SignExtended w y) :
    SignExtended w (x ^^^ y) :=
  bitwise Bool.xor hw hx hy fun _ _ => BitVec.getLsbD_xor

/-- So are complements. -/
theorem not (hw : 0 < w) (hx : SignExtended w x) : SignExtended w (~~~x) :=
  bitwise (fun b _ => !b) hw hx hx fun i hi => by
    rw [BitVec.getLsbD_not, decide_eq_true hi, Bool.true_and]

/-- The wide signed value is the narrow one. -/
theorem toInt_eq (hwn : w ≤ n) (hx : SignExtended w x) : x.toInt = (x.setWidth w).toInt := by
  calc x.toInt = ((x.setWidth w).signExtend n).toInt := congrArg BitVec.toInt hx
    _ = (x.setWidth w).toInt := BitVec.toInt_signExtend_of_le hwn

/-- Equality may be decided on the narrow values. -/
theorem eq_iff (hx : SignExtended w x) (hy : SignExtended w y) :
    x = y ↔ x.setWidth w = y.setWidth w := by
  constructor
  · exact congrArg (BitVec.setWidth w)
  · intro h
    rw [hx, hy, h]

/-- The unsigned comparison may be decided on the narrow values, too. -/
theorem ult_eq (hwn : w ≤ n) (hx : SignExtended w x) (hy : SignExtended w y) :
    x.ult y = (x.setWidth w).ult (y.setWidth w) := by
  have hpow : 2 ^ w ≤ 2 ^ n := Nat.pow_le_pow_right (by decide) hwn
  -- Negative values move up by the same amount, past all others.
  have hval : ∀ {z : BitVec n}, SignExtended w z →
      z.toNat = (z.setWidth w).toNat +
        if 2 ^ (w - 1) ≤ (z.setWidth w).toNat then 2 ^ n - 2 ^ w else 0 := by
    intro z hz
    have hz' := (z.setWidth w).isLt
    have h := congrArg BitVec.toNat hz
    rw [BitVec.toNat_signExtend, BitVec.toNat_setWidth n, Nat.mod_eq_of_lt (by omega),
      BitVec.msb_eq_decide] at h
    simpa only [decide_eq_true_eq] using h
  have hx' := (x.setWidth w).isLt
  have hy' := (y.setWidth w).isLt
  unfold BitVec.ult
  rw [hval hx, hval hy, decide_eq_decide]
  -- Four cases of signs; the shift `2 ^ n - 2 ^ w` is opaque to both sides.
  split <;> split <;> omega

end SignExtended

/-- Writing the low half of a doubled lane with a non-negative value leaves it sign-extended exactly
if the high half was zero. -/
theorem signExtended_setLane_low (hw : 0 < w) (hn : w + w ≤ n) {u : BitVec w} (hu : u.msb = false)
    (x : BitVec n) :
    SignExtended w (lane (w + w) 0 (setLane 0 u x)) ↔ lane w 1 x = 0 := by
  -- The sign bit is that of `u`, and the bits above it are those of the high half.
  have hlow : (lane (w + w) 0 (setLane 0 u x)).getLsbD (w - 1) = false := by
    rw [BitVec.msb_eq_getLsbD_last] at hu
    have h₁ : w - 1 < w + w := by omega
    have h₂ : w - 1 < n := by omega
    have h₃ : w - 1 < w := by omega
    rw [getLsbD_lane, getLsbD_setLane]
    simp only [Nat.mul_zero, Nat.zero_add, Nat.sub_zero, h₁, h₂, h₃, Nat.zero_le, hu]
    rfl
  have hhigh : ∀ i, i < w →
      (lane (w + w) 0 (setLane 0 u x)).getLsbD (w + i) = (lane w 1 x).getLsbD i := by
    intro i hi
    have h₁ : w + i < w + w := by omega
    have h₂ : w + i < n := by omega
    have h₃ : ¬w + i < w := by omega
    rw [getLsbD_lane, getLsbD_setLane, getLsbD_lane]
    simp [h₁, h₂, hi]
  rw [signExtended_iff hw, hlow]
  constructor
  · -- If the bits above the sign bit repeat it, they are clear.
    intro h
    apply BitVec.eq_of_getLsbD_eq
    intro i hi
    rw [← hhigh i hi, h (w + i) (by omega) (by omega)]
    simp
  · intro h i hwi hin
    obtain ⟨k, rfl⟩ := Nat.exists_eq_add_of_le hwi
    rw [hhigh k (by omega), h]
    simp

end Lanes
