import Ps2Unpacker.Framework.SignExtended
import Ps2Unpacker.Semantics.Lanewise

/-!
# The halves of `HI` and `LO`

Pipeline `d` of the multiplier owns doubleword `d` of `HI` and of `LO`. A result of 64 bits goes
there in two halves, each sign-extended; the accumulate instructions put it together again from the
low words.

* `storeProduct_LO`, `storeWide_LO` and their likes for `HI`: what the tails of the handlers write.
* `accumulator_of_halves`: putting the halves together gives the result back.
* `halves_inj`: a result is determined by its halves.
-/

namespace Ps2Unpacker

open Lanes CpuRegisters

/-- The eight words of `LO` and `HI`, in the order of the halfwords of a register that are
multiplied into them or that they are cut down to. -/
def CpuRegisters.hiLoWords (r : CpuRegisters) : List U32 :=
  [UL 0 r.LO, UL 1 r.LO, UL 0 r.HI, UL 1 r.HI, UL 2 r.LO, UL 3 r.LO, UL 2 r.HI, UL 3 r.HI]

namespace Handler

/-! ### Halves of a result -/

/-- The low word of a result, as `LO` holds it. -/
def lowHalf (v : U64) : U64 := (v.setWidth 32).signExtend 64

/-- The high word of a result, as `HI` holds it. -/
def highHalf (v : U64) : U64 := ((v >>> 32).setWidth 32).signExtend 64

/-- The two words of an accumulator put together. -/
def combine (lo hi : U32) : U64 := lo.setWidth 64 ||| hi.setWidth 64 <<< 32

/-- The words of a doubleword, combined. -/
theorem combine_words (v : U64) : combine (v.setWidth 32) ((v >>> 32).setWidth 32) = v := by
  unfold combine
  apply BitVec.eq_of_getLsbD_eq
  intro i hi
  simp only [BitVec.getLsbD_or, BitVec.getLsbD_shiftLeft, BitVec.getLsbD_setWidth,
    BitVec.getLsbD_ushiftRight]
  -- A bit of the low word is its own, one of the high word was moved down and up again.
  by_cases hlow : i < 32
  · simp [hlow, hi]
  · have h₁ : i - 32 < 32 := by omega
    have h₂ : 32 + (i - 32) = i := by omega
    have h₃ : i - 32 < 64 := by omega
    simp [hlow, hi, h₁, h₂, h₃]

/-- A result is determined by its halves. -/
theorem halves_inj {v u : U64} (hlo : lowHalf v = lowHalf u) (hhi : highHalf v = highHalf u) :
    v = u := by
  -- Each half is a word, extended.
  have hlow := congrArg (BitVec.setWidth 32) hlo
  have hhigh := congrArg (BitVec.setWidth 32) hhi
  unfold lowHalf at hlow
  unfold highHalf at hhigh
  rw [setWidth_signExtend (by decide), setWidth_signExtend (by decide)] at hlow hhigh
  rw [← combine_words v, ← combine_words u, hlow, hhigh]

/-! ### What the tails write -/

section Tails

variable (r : CpuRegisters) (d : Nat) (v : U64)

/-- The low half of a product goes to `LO`, the high half to `HI`. -/
theorem storeProduct_LO : (storeProduct r d v).LO = Lanes.setLane d (lowHalf v) r.LO :=
  setRdAt_LO _ 0 _

theorem storeProduct_HI : (storeProduct r d v).HI = Lanes.setLane d (highHalf v) r.HI :=
  setRdAt_HI _ 0 _

/-- The same at doubleword `d`, for both halves. -/
theorem storeWide_LO : (storeWide r d v).LO = Lanes.setLane d (lowHalf v) r.LO :=
  setRdAt_LO _ d _

theorem storeWide_HI : (storeWide r d v).HI = Lanes.setLane d (highHalf v) r.HI :=
  setRdAt_HI _ d _

end Tails

/-- Word `2 * d` of the half that was written. -/
theorem UL_setLane {d : Nat} (hd : d < 2) (x : U128) (v : U64) :
    UL (2 * d) (Lanes.setLane d v x) = v.setWidth 32 := by
  have hlane : lane 64 d (Lanes.setLane d v x) = v := lane_setLane_self d v x (by omega)
  have hword : (lane 64 d (Lanes.setLane d v x)).setWidth 32 = UL (2 * d) (Lanes.setLane d v x) :=
    setWidth_lane _ (by decide) (by omega)
  rw [← hword, hlane]

/-- **The accumulator** of a pipeline after a result was stored. -/
theorem accumulator_of_halves {r : CpuRegisters} {d : Nat} (hd : d < 2) {v : U64} {x y : U128}
    (hLO : r.LO = Lanes.setLane d (lowHalf v) x) (hHI : r.HI = Lanes.setLane d (highHalf v) y) :
    accumulator r (2 * d) = v := by
  -- The words that are read back are the halves that were written.
  have hlo : UL (2 * d) r.LO = v.setWidth 32 := by
    rw [hLO, UL_setLane hd]
    exact setWidth_signExtend (by decide) _
  have hhi : UL (2 * d) r.HI = (v >>> 32).setWidth 32 := by
    rw [hHI, UL_setLane hd]
    exact setWidth_signExtend (by decide) _
  change combine (UL (2 * d) r.LO) (UL (2 * d) r.HI) = v
  rw [hlo, hhi, combine_words]

/-! ### Divisions -/

section Divisions

variable {r : CpuRegisters} {d s : Nat}

/-- A division by zero writes nothing. -/
theorem divideInto_of_zero (h : UL s (r.GPR r.rt) = 0) : divideInto r d s = some r := if_pos h

/-- Where there is a quotient, it is written with the remainder. -/
theorem divideInto_of_divides (hne : UL s (r.GPR r.rt) ≠ 0)
    (h : divides (UL s (r.GPR r.rs)) (UL s (r.GPR r.rt)) = true) :
    divideInto r d s = some ((r.setLOLane d
        (((UL s (r.GPR r.rs)).sdiv (UL s (r.GPR r.rt))).signExtend 64)).setHILane d
      (((UL s (r.GPR r.rs)).srem (UL s (r.GPR r.rt))).signExtend 64)) := by
  unfold divideInto
  rw [if_neg hne, if_pos h]

/-- Where there is none, the handler goes wrong. -/
theorem divideInto_of_not_divides (hne : UL s (r.GPR r.rt) ≠ 0)
    (h : ¬divides (UL s (r.GPR r.rs)) (UL s (r.GPR r.rt)) = true) : divideInto r d s = none := by
  unfold divideInto
  rw [if_neg hne, if_neg h]

/-- An unsigned division by zero writes nothing either. -/
theorem divideIntoU_of_zero (h : UL s (r.GPR r.rt) = 0) : divideIntoU r d s = r := if_pos h

/-- Any other unsigned division has a quotient. -/
theorem divideIntoU_of_ne (hne : UL s (r.GPR r.rt) ≠ 0) :
    divideIntoU r d s = (r.setLOLane d
        ((UL s (r.GPR r.rs) / UL s (r.GPR r.rt)).setWidth 64)).setHILane d
      ((UL s (r.GPR r.rs) % UL s (r.GPR r.rt)).setWidth 64) := by
  unfold divideIntoU
  rw [if_neg hne]

end Divisions

end Handler

end Ps2Unpacker
