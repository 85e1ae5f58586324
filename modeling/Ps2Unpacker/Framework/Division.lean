import Ps2Unpacker.Framework.Saturation

/-!
# Division of words

The division of C truncates toward zero and leaves a remainder with the sign of the dividend
(`Truncates`). A quotient of words is a word again unless the least number is divided by minus one;
the remainder always is, and it is narrower than the divisor.

* `truncates_tdiv`: the quotient and the remainder of two integers.
* `ofInt_tdiv`, `ofInt_tmod` and their unsigned forms: what the operations on words compute.
* `signExtend_setWidth_srem`: the remainder by a narrow divisor fits the width of the divisor.
-/

namespace Lanes

variable {w v : Nat}

/-- `n` divided by `d` is `q`, truncated toward zero, and leaves `m`. -/
structure Truncates (n d q m : Int) : Prop where
  eq : n = q * d + m
  lt : m.natAbs < d.natAbs
  sign : m = 0 ∨ m.sign = n.sign

/-- The remainder is smaller than the divisor. -/
theorem natAbs_tmod_lt {d : Int} (hd : d ≠ 0) (n : Int) : (n.tmod d).natAbs < d.natAbs := by
  rw [Int.natAbs_tmod]
  exact Nat.mod_lt _ (Int.natAbs_pos.mpr hd)

/-- Division toward zero truncates. -/
theorem truncates_tdiv {d : Int} (hd : d ≠ 0) (n : Int) :
    Truncates n d (n.tdiv d) (n.tmod d) where
  eq := (Int.tdiv_mul_add_tmod n d).symm
  lt := natAbs_tmod_lt hd n
  sign := by
    -- Nothing is left exactly of a multiple.
    by_cases hdvd : d ∣ n
    · exact .inl (Int.tmod_eq_zero_of_dvd hdvd)
    · right
      rw [Int.sign_tmod, if_neg hdvd]

/-! ### Operations on words -/

section Words

variable (x y : BitVec w)

/-- The quotient wraps where it is not a word. -/
theorem ofInt_tdiv : BitVec.ofInt w (x.toInt.tdiv y.toInt) = x.sdiv y := by
  apply BitVec.eq_of_toInt_eq
  rw [BitVec.toInt_ofInt, BitVec.toInt_sdiv]

/-- The signed remainder of words is that of the integers. -/
theorem ofInt_tmod : BitVec.ofInt w (x.toInt.tmod y.toInt) = x.srem y := by
  rw [← BitVec.toInt_srem, BitVec.ofInt_toInt]

/-- The unsigned quotient of words is that of the integers. -/
theorem ofInt_tdiv_toNat : BitVec.ofInt w ((x.toNat : Int).tdiv y.toNat) = x / y := by
  rw [← Int.ofNat_tdiv, ← BitVec.toNat_udiv, BitVec.ofInt_natCast, BitVec.ofNat_toNat,
    BitVec.setWidth_eq]

/-- The unsigned remainder of words is that of the integers. -/
theorem ofInt_tmod_toNat : BitVec.ofInt w ((x.toNat : Int).tmod y.toNat) = x % y := by
  rw [← Int.ofNat_tmod, ← BitVec.toNat_umod, BitVec.ofInt_natCast, BitVec.ofNat_toNat,
    BitVec.setWidth_eq]

/-- The remainder by a divisor of `v` bits has `v` bits. -/
theorem signExtend_setWidth_srem (hv : 0 < v) (hle : v ≤ w) {d : BitVec v} (hd : d.toInt ≠ 0) :
    ((x.srem (d.signExtend w)).setWidth v).signExtend w = x.srem (d.signExtend w) := by
  have hdiv : (d.signExtend w).toInt = d.toInt := BitVec.toInt_signExtend_of_le hle
  have hrem : (x.srem (d.signExtend w)).toInt = x.toInt.tmod d.toInt := by
    rw [BitVec.toInt_srem, hdiv]
  -- Cutting to the width of the divisor changes nothing, since the remainder is narrower.
  have hlt := natAbs_tmod_lt hd x.toInt
  have hlo := d.le_toInt
  have hhi := d.toInt_lt
  apply BitVec.eq_of_toInt_eq
  rw [BitVec.toInt_signExtend_of_le hle, toInt_setWidth_of_le _ hle, hrem, bmod_of_mem hv]
  · omega
  · omega

end Words

end Lanes
