import Mathlib.Tactic.IntervalCases
import Ps2Unpacker.Framework.Saturation
import Ps2Unpacker.Semantics.HiLo

/-!
# Saturating instructions

The macros of `PADDS*` and `PSUBS*` compute the exact sum or difference of two lanes at twice the
width and test it against the upper end of the range. Their test of the lower end asks for values
that are past the upper end as well, so a sum below the range wraps. `PSUBSW` also takes its words
as unsigned. `PADDU*` and `PSUBU*` test the one end that an unsigned result can pass. `PMFHL` tests
its signed sources as unsigned numbers.

* `signed_saturation_iff`: the lanes for which the signed instructions saturate.
* `unsigned_saturation`: the unsigned ones always do.
* `PMFHL_saturation_iff`: the sources for which the two saturating moves do.
-/

namespace Ps2Unpacker

open Lanes CpuRegisters

namespace Handler

/-! ### The macros -/

section Macros

variable {w v : Nat} {max min : BitVec w} {bound lo hi temp : BitVec v}

/-- The test of the lower end never holds: what it asks for has passed the upper end. -/
theorem toInt_clampAdd (hw : 0 < w) (hv : w ≤ v) (hmax : max.toInt = 2 ^ (w - 1) - 1)
    (hbound : bound.toInt = 2 ^ (w - 1) - 1) (hlo : bound.toInt < lo.toInt) :
    (clampAdd w max min bound lo hi temp).toInt = saturateAbove w temp.toInt := by
  have hpos := half_pos w
  unfold clampAdd saturateAbove
  by_cases hgt : bound.toInt < temp.toInt
  · rw [if_pos (BitVec.slt_iff_toInt_lt.mpr hgt), hmax, if_pos (by omega)]
  · -- What is left is at most `bound`, and the second test asks for more than that.
    have hnot : ¬(temp.slt hi && lo.sle temp) = true := by
      rw [Bool.and_eq_true, BitVec.sle_iff_toInt_le]
      omega
    rw [if_neg (by rwa [BitVec.slt_iff_toInt_lt]), if_neg hnot, toInt_setWidth_of_le _ hv]
    -- At the bound itself both give the bound.
    by_cases heq : 2 ^ (w - 1) - 1 ≤ temp.toInt
    · rw [if_pos heq, show temp.toInt = 2 ^ (w - 1) - 1 by omega]
      exact bmod_of_mem hw (by omega) (by omega)
    · rw [if_neg heq]

/-- The difference is cut off above, and not below. -/
theorem toInt_clampSub (hv : w ≤ v) (hmax : max.toInt = 2 ^ (w - 1) - 1)
    (hbound : bound.toInt = 2 ^ (w - 1) - 1) (hlo : bound.toInt < lo.toInt) :
    (clampSub w max min bound lo hi temp).toInt = saturateAbove w temp.toInt := by
  unfold clampSub saturateAbove
  by_cases hge : bound.toInt ≤ temp.toInt
  · -- At the bound or above it.
    rw [if_pos (BitVec.sle_iff_toInt_le.mpr hge), hmax, if_pos (by omega)]
  · have hnot : ¬(temp.slt hi && lo.sle temp) = true := by
      -- The test against the lower bound never succeeds.
      rw [Bool.and_eq_true, BitVec.sle_iff_toInt_le]
      omega
    rw [if_neg (by rwa [BitVec.sle_iff_toInt_le]), if_neg hnot, toInt_setWidth_of_le _ hv,
      if_neg (by omega)]

/-- The sum of two lanes. -/
theorem clampAdd_iff (s t : BitVec w) (hw : 0 < w) (hv : w < v) (hmax : max.toInt = 2 ^ (w - 1) - 1)
    (hbound : bound.toInt = 2 ^ (w - 1) - 1) (hlo : bound.toInt < lo.toInt) :
    (clampAdd w max min bound lo hi (s.signExtend v + t.signExtend v)).toInt =
      saturate w (s.toInt + t.toInt) ↔ -2 ^ (w - 1) ≤ s.toInt + t.toInt := by
  have hs := s.le_toInt
  have ht := t.le_toInt
  have hpow := two_pow_half hw
  rw [toInt_clampAdd hw (by omega) hmax hbound hlo, toInt_signExtend_add s t hw hv]
  exact saturateAbove_eq_iff hw (by omega)

/-- The difference of two lanes. -/
theorem clampSub_iff (s t : BitVec w) (hw : 0 < w) (hv : w < v) (hmax : max.toInt = 2 ^ (w - 1) - 1)
    (hbound : bound.toInt = 2 ^ (w - 1) - 1) (hlo : bound.toInt < lo.toInt) :
    (clampSub w max min bound lo hi (s.signExtend v - t.signExtend v)).toInt =
      saturate w (s.toInt - t.toInt) ↔ -2 ^ (w - 1) ≤ s.toInt - t.toInt := by
  have hs := s.le_toInt
  have ht := t.toInt_lt
  have hpow := two_pow_half hw
  rw [toInt_clampSub (by omega) hmax hbound hlo, toInt_signExtend_sub s t hw hv]
  exact saturateAbove_eq_iff hw (by omega)

/-- The difference of two lanes that were read as unsigned. -/
theorem clampSub_unsigned_iff (s t : BitVec w) (hw : 0 < w) (hv : w < v)
    (hmax : max.toInt = 2 ^ (w - 1) - 1) (hbound : bound.toInt = 2 ^ (w - 1) - 1)
    (hlo : bound.toInt < lo.toInt) :
    (clampSub w max min bound lo hi (s.setWidth v - t.setWidth v)).toInt =
      saturate w (s.toInt - t.toInt) ↔
        (0 ≤ s.toInt ∨ t.toInt < 0) ∧ s.toInt - t.toInt < 2 ^ (w - 1) := by
  rw [toInt_clampSub (by omega) hmax hbound hlo, toInt_setWidth_sub s t hv]
  exact saturateAbove_toNat_sub_iff s t hw

end Macros

end Handler

/-! ### Signed saturation -/

/-- The additions and subtractions with signed saturation. -/
inductive SaturatingOp where
  | PADDSW | PSUBSW | PADDSH | PSUBSH | PADDSB | PSUBSB

namespace SaturatingOp

def op : SaturatingOp → RegOp
  | PADDSW => .PADDSW
  | PSUBSW => .PSUBSW
  | PADDSH => .PADDSH
  | PSUBSH => .PSUBSH
  | PADDSB => .PADDSB
  | PSUBSB => .PSUBSB

/-- The width of a lane. -/
def width : SaturatingOp → Nat
  | PADDSW | PSUBSW => 32
  | PADDSH | PSUBSH => 16
  | PADDSB | PSUBSB => 8

/-- The result before saturation. -/
def exact : SaturatingOp → Int → Int → Int
  | PADDSW, s, t | PADDSH, s, t | PADDSB, s, t => s + t
  | PSUBSW, s, t | PSUBSH, s, t | PSUBSB, s, t => s - t

/-- The operands for which the macro saturates: the result does not pass the lower end or, for
`PSUBSW`, which reads its words as unsigned, it passes no end and the signs do not lead astray. -/
def Fits : SaturatingOp → Int → Int → Prop
  | PSUBSW, s, t => (0 ≤ s ∨ t < 0) ∧ s - t < 2 ^ 31
  | o, s, t => -2 ^ (o.width - 1) ≤ o.exact s t

instance (o : SaturatingOp) (s t : Int) : Decidable (o.Fits s t) :=
  match o with
  | PSUBSW => inferInstanceAs (Decidable (_ ∧ _))
  | PADDSW | PADDSH | PSUBSH | PADDSB | PSUBSB => inferInstanceAs (Decidable (_ ≤ _))

/-- The instruction leaves the saturated results in all lanes of its destination. -/
def Saturates (o : SaturatingOp) (r : CpuRegisters) : Prop :=
  ∃ r', o.op.run r = some r' ∧ ∀ k, o.width * k < 128 →
    (lane o.width k (r'.GPR r.rd)).toInt =
      saturate o.width (o.exact (lane o.width k (r.GPR r.rs)).toInt
        (lane o.width k (r.GPR r.rt)).toInt)

/-- What one lane of the macro does decides about the instruction. -/
theorem saturates_iff {o : SaturatingOp} {r : CpuRegisters} {n : Nat}
    {f : BitVec o.width → BitVec o.width → BitVec o.width} (hrd : r.rd ≠ 0)
    (hrun : o.op.run r = some (r.setRdPerLane o.width f 0 n)) (hn : o.width * n = 128)
    (hf : ∀ s t, (f s t).toInt = saturate o.width (o.exact s.toInt t.toInt) ↔
      o.Fits s.toInt t.toInt) :
    o.Saturates r ↔ ∀ k, o.width * k < 128 →
      o.Fits (lane o.width k (r.GPR r.rs)).toInt (lane o.width k (r.GPR r.rt)).toInt := by
  -- Each lane of the result is that of the macro.
  have hlane : ∀ k, o.width * k < 128 →
      lane o.width k ((r.setRdPerLane o.width f 0 n).GPR r.rd) =
        f (lane o.width k (r.GPR r.rs)) (lane o.width k (r.GPR r.rt)) := fun k hk =>
    lane_GPR_setRdPerLane r hrd f (Nat.le_of_eq hn)
      (Nat.lt_of_mul_lt_mul_left (Nat.lt_of_lt_of_eq hk hn.symm))
  constructor
  · -- The instruction has one result, whose lanes the macro computed.
    rintro ⟨r', hr', hall⟩ k hk
    obtain rfl := Option.some.inj (hr'.symm.trans hrun)
    have hk' := hall k hk
    rw [hlane k hk] at hk'
    exact (hf _ _).mp hk'
  · -- The other direction takes the result of the macro.
    intro hall
    refine ⟨_, hrun, fun k hk => ?_⟩
    rw [hlane k hk]
    exact (hf _ _).mpr (hall k hk)

end SaturatingOp

open SaturatingOp in
/-- **Signed saturation.** All lanes of the destination hold the saturated results if and only if,
in every lane, the sum or difference does not pass the lower end of the range; for `PSUBSW`, if no
difference has a negative minuend and a nonnegative subtrahend or passes the upper end. -/
theorem signed_saturation_iff (o : SaturatingOp) (r : CpuRegisters) (hrd : r.rd ≠ 0) :
    o.Saturates r ↔ ∀ k, o.width * k < 128 →
      o.Fits (lane o.width k (r.GPR r.rs)).toInt (lane o.width k (r.GPR r.rt)).toInt := by
  -- The macros differ in their width and in the constants they test against; all of these start
  -- the lower test above the upper end.
  cases o with
  | PADDSW =>
    exact saturates_iff hrd rfl rfl fun s t =>
      Handler.clampAdd_iff (w := 32) s t (by decide) (by decide) rfl rfl (by decide)
  | PSUBSW =>
    exact saturates_iff hrd rfl rfl fun s t =>
      Handler.clampSub_unsigned_iff (w := 32) s t (by decide) (by decide) rfl rfl (by decide)
  | PADDSH =>
    exact saturates_iff hrd rfl rfl fun s t =>
      Handler.clampAdd_iff (w := 16) s t (by decide) (by decide) rfl rfl (by decide)
  | PSUBSH =>
    exact saturates_iff hrd rfl rfl fun s t =>
      Handler.clampSub_iff (w := 16) s t (by decide) (by decide) rfl rfl (by decide)
  | PADDSB =>
    exact saturates_iff hrd rfl rfl fun s t =>
      Handler.clampAdd_iff (w := 8) s t (by decide) (by decide) rfl rfl (by decide)
  | PSUBSB =>
    exact saturates_iff hrd rfl rfl fun s t =>
      Handler.clampSub_iff (w := 8) s t (by decide) (by decide) rfl rfl (by decide)

/-- `PADDSW r1, r2, r2` of ones. -/
theorem signed_saturation_ones :
    SaturatingOp.PADDSW.Saturates { CpuRegisters.zeroed 0 with
      code := 0x70420c08, GPR := fun _ => 0x00000001000000010000000100000001 } :=
  (signed_saturation_iff .PADDSW _ (by decide)).mpr fun k hk => by
    have hk' : k < 4 := by
      change 32 * k < 128 at hk
      omega
    interval_cases k <;> decide

/-- `PADDSW r1, r2, r2` of `-2 ^ 31` in all words. -/
theorem not_signed_saturation :
    ¬∀ (o : SaturatingOp) (r : CpuRegisters), r.rd ≠ 0 → o.Saturates r := by
  intro hall
  obtain ⟨r', hr', hlanes⟩ := hall .PADDSW { CpuRegisters.zeroed 0 with
    code := 0x70420c08, GPR := fun _ => 0x80000000800000008000000080000000 } (by decide)
  have hzero := hlanes 0 (by decide)
  rw [← Option.some.inj hr'] at hzero
  exact absurd hzero (by decide)

/-! ### Unsigned saturation -/

namespace Handler

section Unsigned

variable {w v : Nat}

/-- The sum of two lanes, at the upper end. -/
theorem toNat_clampAddU (s t : BitVec w) {max : BitVec v} (hv : w + 1 < v)
    (hmax : max.toInt = 2 ^ w - 1) :
    ((clampAddU w max (s.setWidth v + t.setWidth v)).toNat : Int) =
      min ((s.toNat : Int) + t.toNat) (2 ^ w - 1) := by
  have hs := s.isLt
  have ht := t.isLt
  have hcast : ((2 ^ w : Nat) : Int) = 2 ^ w := by push_cast; rfl
  have hsum := toInt_setWidth_add s t hv
  unfold clampAddU
  by_cases hgt : max.toInt < (s.setWidth v + t.setWidth v).toInt
  · -- past the upper end
    rw [if_pos (BitVec.slt_iff_toInt_lt.mpr hgt), BitVec.toNat_allOnes]
    omega
  · -- The wide sum is the exact one, and fits.
    have hnat : ((s.setWidth v + t.setWidth v).toNat : Int) = s.toNat + t.toNat := by
      rw [toNat_eq_toInt, hsum]
      exact if_neg (by omega)
    rw [if_neg (by rwa [BitVec.slt_iff_toInt_lt]), BitVec.toNat_setWidth,
      Nat.mod_eq_of_lt (by omega)]
    omega

/-- The difference of two lanes, at zero. -/
theorem toNat_clampSubU (s t : BitVec w) (hv : w < v) :
    ((clampSubU w (s.setWidth v - t.setWidth v)).toNat : Int) =
      max ((s.toNat : Int) - t.toNat) 0 := by
  have hs := s.isLt
  have hdiff := toInt_setWidth_sub s t hv
  have hzero : (0 : BitVec v).toInt = 0 := BitVec.toInt_zero
  unfold clampSubU
  by_cases hle : (s.setWidth v - t.setWidth v).toInt ≤ (0 : BitVec v).toInt
  · -- at or below zero
    rw [if_pos (BitVec.sle_iff_toInt_le.mpr hle)]
    change ((0#w).toNat : Int) = _
    rw [BitVec.toNat_ofNat, Nat.zero_mod]
    omega
  · -- above zero
    have hnat : ((s.setWidth v - t.setWidth v).toNat : Int) = s.toNat - t.toNat := by
      rw [toNat_eq_toInt, hdiff]
      exact if_neg (by omega)
    rw [if_neg (by rwa [BitVec.sle_iff_toInt_le]), BitVec.toNat_setWidth,
      Nat.mod_eq_of_lt (by omega)]
    omega

end Unsigned

end Handler

/-- The three pairs of an addition and a subtraction with unsigned saturation. -/
inductive UnsignedPair where
  | W | H | B

namespace UnsignedPair

/-- `PADDU` at this width. -/
def add : UnsignedPair → RegOp
  | W => .PADDUW
  | H => .PADDUH
  | B => .PADDUB

/-- `PSUBU` at this width. -/
def sub : UnsignedPair → RegOp
  | W => .PSUBUW
  | H => .PSUBUH
  | B => .PSUBUB

/-- The width of a lane. -/
def width : UnsignedPair → Nat
  | W => 32
  | H => 16
  | B => 8

/-- Lane `k` of a register as an unsigned number. -/
def value (p : UnsignedPair) (k : Nat) (x : U128) : Int := (lane p.width k x).toNat

/-- The instruction `o` leaves `f` of the lanes of its sources in the lanes of its destination. -/
def Computes (p : UnsignedPair) (o : RegOp) (f : Int → Int → Int) (r : CpuRegisters) : Prop :=
  ∃ r', o.run r = some r' ∧ ∀ k, p.width * k < 128 →
    p.value k (r'.GPR r.rd) = f (p.value k (r.GPR r.rs)) (p.value k (r.GPR r.rt))

/-- Lanes computed one by one are those of the instruction. -/
theorem computes_of_perLane {p : UnsignedPair} {o : RegOp} {f : Int → Int → Int}
    {r : CpuRegisters} {n : Nat} {g : BitVec p.width → BitVec p.width → BitVec p.width}
    (hrd : r.rd ≠ 0) (hrun : o.run r = some (r.setRdPerLane p.width g 0 n))
    (hn : p.width * n = 128) (hg : ∀ s t, ((g s t).toNat : Int) = f s.toNat t.toNat) :
    p.Computes o f r := by
  refine ⟨_, hrun, fun k hk => ?_⟩
  have hk' : k < n := Nat.lt_of_mul_lt_mul_left (Nat.lt_of_lt_of_eq hk hn.symm)
  unfold value
  rw [lane_GPR_setRdPerLane r hrd g (Nat.le_of_eq hn) hk', hg]

/-- The sum at each width. -/
theorem add_computes (p : UnsignedPair) {r : CpuRegisters} (hrd : r.rd ≠ 0) :
    p.Computes p.add (fun s t => min (s + t) (2 ^ p.width - 1)) r := by
  cases p with
  | W =>
    exact computes_of_perLane hrd rfl rfl fun s t =>
      Handler.toNat_clampAddU (w := 32) (v := 64) s t (by decide) rfl
  | H =>
    exact computes_of_perLane hrd rfl rfl fun s t =>
      Handler.toNat_clampAddU (w := 16) (v := 32) s t (by decide) rfl
  | B =>
    exact computes_of_perLane hrd rfl rfl fun s t =>
      Handler.toNat_clampAddU (w := 8) (v := 16) s t (by decide) rfl

/-- The difference at each width. -/
theorem sub_computes (p : UnsignedPair) {r : CpuRegisters} (hrd : r.rd ≠ 0) :
    p.Computes p.sub (fun s t => max (s - t) 0) r := by
  cases p with
  | W =>
    exact computes_of_perLane hrd rfl rfl fun s t =>
      Handler.toNat_clampSubU (w := 32) (v := 64) s t (by decide)
  | H =>
    exact computes_of_perLane hrd rfl rfl fun s t =>
      Handler.toNat_clampSubU (w := 16) (v := 32) s t (by decide)
  | B =>
    exact computes_of_perLane hrd rfl rfl fun s t =>
      Handler.toNat_clampSubU (w := 8) (v := 16) s t (by decide)

/-- The registers `q` are about to combine the result that `r'` holds for an instruction executed
in `r` with the second source of that instruction. -/
structure Follows (r r' q : CpuRegisters) : Prop where
  rd : q.rd ≠ 0
  rs : q.GPR q.rs = r'.GPR r.rd
  rt : q.GPR q.rt = r.GPR r.rt

end UnsignedPair

open UnsignedPair in
/-- **Unsigned saturation.** At each width the sum is cut off at the largest number and the
difference at zero, in all lanes and whatever registers coincide. Adding the second source to the
difference gives the larger one of the sources, and subtracting it from the sum the smaller one of
the first source and what is missing to the largest number. -/
theorem unsigned_saturation (p : UnsignedPair) (r : CpuRegisters) (hrd : r.rd ≠ 0) :
    p.Computes p.add (fun s t => min (s + t) (2 ^ p.width - 1)) r ∧
    p.Computes p.sub (fun s t => max (s - t) 0) r ∧
    (∀ r' q, p.sub.run r = some r' → Follows r r' q → ∃ q', p.add.run q = some q' ∧
      ∀ k, p.width * k < 128 →
        p.value k (q'.GPR q.rd) = max (p.value k (r.GPR r.rs)) (p.value k (r.GPR r.rt))) ∧
    ∀ r' q, p.add.run r = some r' → Follows r r' q → ∃ q', p.sub.run q = some q' ∧
      ∀ k, p.width * k < 128 →
        p.value k (q'.GPR q.rd) =
          min (p.value k (r.GPR r.rs)) (2 ^ p.width - 1 - p.value k (r.GPR r.rt)) := by
  -- An unsigned lane has `p.width` bits.
  have hrange : ∀ (k : Nat) (x : U128), 0 ≤ p.value k x ∧ p.value k x ≤ 2 ^ p.width - 1 := by
    intro k x
    have hlt := (lane p.width k x).isLt
    have hcast : ((2 ^ p.width : Nat) : Int) = 2 ^ p.width := by push_cast; rfl
    unfold value
    omega
  refine ⟨p.add_computes hrd, p.sub_computes hrd, fun r' q hr' hq => ?_, fun r' q hr' hq => ?_⟩
  · -- The subtraction leaves the excess of the first source over the second, or zero.
    obtain ⟨r'', hr'', hsub⟩ := p.sub_computes hrd
    obtain rfl := Option.some.inj (hr'.symm.trans hr'')
    obtain ⟨q', hq', hadd⟩ := p.add_computes hq.rd
    refine ⟨q', hq', fun k hk => ?_⟩
    have hs := hrange k (r.GPR r.rs)
    have ht := hrange k (r.GPR r.rt)
    rw [hadd k hk, hq.rs, hq.rt, hsub k hk]
    change min (max (_ - _) 0 + _) _ = max _ _
    omega
  · -- The addition loses what passes the largest number.
    obtain ⟨r'', hr'', hadd⟩ := p.add_computes hrd
    obtain rfl := Option.some.inj (hr'.symm.trans hr'')
    obtain ⟨q', hq', hsub⟩ := p.sub_computes hq.rd
    refine ⟨q', hq', fun k hk => ?_⟩
    have hs := hrange k (r.GPR r.rs)
    have ht := hrange k (r.GPR r.rt)
    rw [hsub k hk, hq.rs, hq.rt, hadd k hk]
    change max (min (_ + _) _ - _) 0 = min _ _
    omega

/-- The words 0 and 1 of `v0` and `v1`, and an instruction with these sources and `at` as its
destination. -/
def CpuRegisters.twoWords : CpuRegisters :=
  { CpuRegisters.zeroed 0 with
    code := 0x70430c28
    GPR := fun i => if i = 2 then 0x3fffffff0 else if i = 3 then 0x500000020 else 0 }

open UnsignedPair in
/-- The sum saturates in word 0 and the difference in word 1; from the difference the larger of the
words 1 comes back, and from the sum what is missing in word 0. -/
theorem unsigned_saturation_word : ∃ sum diff larger smaller,
    RegOp.PADDUW.run .twoWords = some sum ∧ W.value 0 (sum.GPR 1) = 0xffffffff ∧
    RegOp.PSUBUW.run .twoWords = some diff ∧ W.value 1 (diff.GPR 1) = 0 ∧
    RegOp.PADDUW.run { diff with code := 0x70230c28 } = some larger ∧
    W.value 1 (larger.GPR 1) = 5 ∧
    RegOp.PSUBUW.run { sum with code := 0x70230c68 } = some smaller ∧
    W.value 0 (smaller.GPR 1) = 0xffffffff - 0x20 := by
  obtain ⟨⟨sum, hsum, hsums⟩, ⟨diff, hdiff, hdiffs⟩, hmax, hmin⟩ :=
    unsigned_saturation W .twoWords (by decide)
  -- The second instruction names the same registers as the first one.
  obtain ⟨larger, hlarger, hlargest⟩ := hmax diff { diff with code := 0x70230c28 } hdiff (by
    cases hdiff
    exact ⟨by decide, rfl, rfl⟩)
  obtain ⟨smaller, hsmaller, hsmallest⟩ := hmin sum { sum with code := 0x70230c68 } hsum (by
    cases hsum
    exact ⟨by decide, rfl, rfl⟩)
  have hadd : ({ diff with code := 0x70230c28 } : CpuRegisters).rd = 1 :=
    show (0x70230c28 : U32).extractLsb' 11 5 = 1 by decide
  have hsub : ({ sum with code := 0x70230c68 } : CpuRegisters).rd = 1 :=
    show (0x70230c68 : U32).extractLsb' 11 5 = 1 by decide
  rw [hadd] at hlargest
  rw [hsub] at hsmallest
  exact ⟨sum, diff, larger, smaller, hsum, (hsums 0 (by decide)).trans (by decide), hdiff,
    (hdiffs 1 (by decide)).trans (by decide), hlarger, (hlargest 1 (by decide)).trans (by decide),
    hsmaller, (hsmallest 0 (by decide)).trans (by decide)⟩

/-! ### The saturating moves -/

/-- The doubleword `HI.UL[2k]:LO.UL[2k]`. -/
def CpuRegisters.hiLoDoubleword (r : CpuRegisters) (k : Nat) : U64 :=
  UL (2 * k) r.HI ++ UL (2 * k) r.LO

namespace Handler

/-- A negative word passes for a large one, and any other that is not too large for a negative one.
-/
theorem toInt_PMFHL_CLAMP_iff (x : U32) :
    (PMFHL_CLAMP x).toInt = saturate 16 x.toInt ↔ 2 ^ 15 ≤ x.toInt := by
  have hx := toNat_eq_toInt x
  have hlo := x.le_toInt
  unfold PMFHL_CLAMP
  by_cases hgt : x > 0x00007fff
  · -- Large as an unsigned number: large as a signed one, or negative.
    have hnat : 0x7fff < x.toNat := hgt
    have hmax : (0x7fff : U16).toInt = 2 ^ 15 - 1 := rfl
    rw [if_pos hgt, hmax, saturate_eq_max_iff (w := 16)]
    omega
  · -- All that is left passes for a number below the lower end.
    have hnat : ¬0x7fff < x.toNat := hgt
    have hlt : x < 0xffff8000 := by
      change x.toNat < 0xffff8000
      omega
    have hmin : (0x8000 : U16).toInt = -2 ^ 15 := rfl
    rw [if_neg hgt, if_pos hlt, hmin, saturate_eq_min_iff (w := 16)]
    omega

/-- The accumulator is the high word before the low one. -/
theorem accumulator_eq_append (r : CpuRegisters) (k : Nat) :
    accumulator r (2 * k) = r.hiLoDoubleword k := by
  unfold accumulator CpuRegisters.hiLoDoubleword
  apply BitVec.eq_of_getLsbD_eq
  intro i hi
  rw [BitVec.getLsbD_append, BitVec.getLsbD_or, BitVec.getLsbD_shiftLeft, BitVec.getLsbD_setWidth,
    BitVec.getLsbD_setWidth]
  -- Bit by bit, in the lower word and in the upper one.
  by_cases hlow : i < 32
  · simp [hlow, hi]
  · have hbit : (UL (2 * k) r.LO).getLsbD i = false := BitVec.getLsbD_of_ge _ i (by omega)
    have hsub : i - 32 < 64 := by omega
    simp [hlow, hi, hbit, hsub]

/-- The doubleword saturates exactly at the upper bound and above. -/
theorem toInt_PMFHL_SLW_iff (r : CpuRegisters) (k : Nat) :
    (PMFHL_SLW r (2 * k)).toInt = saturate 32 (r.hiLoDoubleword k).toInt ↔
      2 ^ 31 - 1 ≤ (r.hiLoDoubleword k).toInt := by
  unfold PMFHL_SLW
  rw [accumulator_eq_append]
  generalize r.hiLoDoubleword k = x
  have hx := toNat_eq_toInt x
  have hlo := x.le_toInt
  -- Both tests compare without sign.
  by_cases hge : x ≥ 0x000000007fffffff
  · have hnat : 0x7fffffff ≤ x.toNat := hge
    have hmax : (0x000000007fffffff : U64).toInt = 2 ^ 31 - 1 := rfl
    rw [if_pos hge, hmax, saturate_eq_max_iff (w := 32)]
  · have hnat : ¬0x7fffffff ≤ x.toNat := hge
    -- Whatever is below the first bound is below the second one.
    have hle : x ≤ 0xffffffff80000000 := by
      change x.toNat ≤ 0xffffffff80000000
      omega
    have hmin : (0xffffffff80000000 : U64).toInt = -2 ^ 31 := rfl
    rw [if_neg hge, if_pos hle, hmin, saturate_eq_min_iff (w := 32)]
    omega

end Handler

/-- `PMFHL` leaves the numbers `xs`, saturated to `w` bits, in the lanes of width `v` of its
destination. -/
def MovesSaturated (r : CpuRegisters) (w v : Nat) {u : Nat} (xs : List (BitVec u)) : Prop :=
  ∃ r', RegOp.PMFHL.run r = some r' ∧ ∀ k x, xs[k]? = some x →
    (lane v k (r'.GPR r.rd)).toInt = saturate w x.toInt

/-- What a move of values computed one by one does. -/
theorem movesSaturated_iff {r : CpuRegisters} {w v u : Nat} {xs : List (BitVec u)}
    {vs : List (BitVec v)} {P : BitVec u → Prop} (hrd : r.rd ≠ 0)
    (hrun : RegOp.PMFHL.run r = some (r.setRdLanes vs)) (hfit : v * vs.length ≤ 128)
    (hvs : ∀ (k : Nat) (x : BitVec u), xs[k]? = some x →
      ∃ y : BitVec v, vs[k]? = some y ∧ (y.toInt = saturate w x.toInt ↔ P x)) :
    MovesSaturated r w v xs ↔ ∀ x ∈ xs, P x := by
  constructor
  · -- Position by position.
    rintro ⟨r', hr', hall⟩ x hx
    obtain rfl := Option.some.inj (hr'.symm.trans hrun)
    -- A member of the list has a position.
    obtain ⟨k, hk⟩ := List.mem_iff_getElem?.mp hx
    obtain ⟨y, hy, hiff⟩ := hvs k x hk
    have hk' := hall k x hk
    rw [lane_GPR_setRdLanes r hrd hfit hy] at hk'
    exact hiff.mp hk'
  · intro hall
    refine ⟨_, hrun, fun k x hx => ?_⟩
    obtain ⟨y, hy, hiff⟩ := hvs k x hx
    rw [lane_GPR_setRdLanes r hrd hfit hy]
    exact hiff.mpr (hall x (List.mem_of_getElem? hx))

/-- **The saturating moves.** `PMFHL.SH` saturates if and only if every source word is too large for
a halfword, and `PMFHL.SLW` if and only if both doublewords have at least the largest value of a
word. -/
theorem PMFHL_saturation_iff (r : CpuRegisters) (hrd : r.rd ≠ 0) :
    (r.saField = 4 →
      (MovesSaturated r 16 16 r.hiLoWords ↔ ∀ x ∈ r.hiLoWords, 2 ^ 15 ≤ x.toInt)) ∧
    (r.saField = 2 →
      (MovesSaturated r 32 64 [r.hiLoDoubleword 0, r.hiLoDoubleword 1] ↔
        ∀ x ∈ [r.hiLoDoubleword 0, r.hiLoDoubleword 1], 2 ^ 31 - 1 ≤ x.toInt)) := by
  refine ⟨fun hsa => ?_, fun hsa => ?_⟩
  · -- `PMFHL.SH`, one halfword for each word
    have hrun : RegOp.PMFHL.run r = some (r.setRdLanes (r.hiLoWords.map Handler.PMFHL_CLAMP)) := by
      change some (Handler.PMFHL r) = _
      unfold Handler.PMFHL
      rw [hsa]
      rfl
    refine movesSaturated_iff hrd hrun (show 16 * 8 ≤ 128 by decide) fun k x hx => ⟨_, ?_,
      Handler.toInt_PMFHL_CLAMP_iff x⟩
    rw [List.getElem?_map, hx]
    rfl
  · -- `PMFHL.SLW`, one doubleword for each doubleword of the accumulators
    have hrun : RegOp.PMFHL.run r =
        some (r.setRdLanes [Handler.PMFHL_SLW r 0, Handler.PMFHL_SLW r 2]) := by
      change some (Handler.PMFHL r) = _
      unfold Handler.PMFHL
      rw [hsa]
      rfl
    have hvs : ∀ (k : Nat) (x : U64), [r.hiLoDoubleword 0, r.hiLoDoubleword 1][k]? = some x →
        ∃ y : U64, [Handler.PMFHL_SLW r 0, Handler.PMFHL_SLW r 2][k]? = some y ∧
          (y.toInt = saturate 32 x.toInt ↔ 2 ^ 31 - 1 ≤ x.toInt) := by
      -- There are two positions.
      intro k x hx
      rcases k with _ | _ | k
      · obtain rfl : r.hiLoDoubleword 0 = x := Option.some.inj hx
        exact ⟨_, rfl, Handler.toInt_PMFHL_SLW_iff r 0⟩
      · obtain rfl : r.hiLoDoubleword 1 = x := Option.some.inj hx
        exact ⟨_, rfl, Handler.toInt_PMFHL_SLW_iff r 1⟩
      · cases hx
    exact movesSaturated_iff hrd hrun (Nat.le_refl 128) hvs

/-- `PMFHL.SH r1` of `0x8000` in all words. -/
theorem PMFHL_saturation_large :
    MovesSaturated { CpuRegisters.zeroed 0 with
      code := 0x70000930, HI := 0x00008000000080000000800000008000,
      LO := 0x00008000000080000000800000008000 } 16 16
      [0x8000, 0x8000, 0x8000, 0x8000, 0x8000, 0x8000, 0x8000, (0x8000 : U32)] :=
  ((PMFHL_saturation_iff { CpuRegisters.zeroed 0 with
      code := 0x70000930, HI := 0x00008000000080000000800000008000,
      LO := 0x00008000000080000000800000008000 } (by decide)).1 (by decide)).mpr fun x hx => by
    obtain rfl : x = 0x8000 := List.eq_of_mem_replicate (n := 8) hx
    decide

/-- `PMFHL.SH r1` of zeros. -/
theorem not_PMFHL_saturation :
    ¬∀ r : CpuRegisters, r.rd ≠ 0 →
      (r.saField = 4 → MovesSaturated r 16 16 r.hiLoWords) ∧
      (r.saField = 2 → MovesSaturated r 32 64 [r.hiLoDoubleword 0, r.hiLoDoubleword 1]) := by
  intro hall
  obtain ⟨r', hr', hmoves⟩ :=
    (hall { CpuRegisters.zeroed 0 with code := 0x70000930 } (by decide)).1 (by decide)
  have hzero := hmoves 0 0 (by decide)
  rw [← Option.some.inj hr'] at hzero
  exact absurd hzero (by decide)

end Ps2Unpacker
