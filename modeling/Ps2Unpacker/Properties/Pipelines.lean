import Ps2Unpacker.Semantics.HiLo

/-!
# The two pipelines

The instructions of pipeline 1 are written out a second time in `MMI.c`, with the upper halves of
`HI` and `LO` in the place of the lower ones. `swapHiLo` exchanges the halves; conjugating an
instruction of pipeline 0 with it gives the one of pipeline 1, on every register.

* `storeProduct_swapHiLo`, `divideInto_swapHiLo`: the two tails.
* `pipeline_mirror`: the ten pairs.
-/

namespace Ps2Unpacker

open Lanes CpuRegisters Handler

/-! ### Exchanging the halves -/

/-- The two doublewords exchanged. -/
def swapHalves (x : U128) : U128 := UD 0 x ++ UD 1 x

/-- The halves of `HI` and of `LO` exchanged. -/
def CpuRegisters.swapHiLo (r : CpuRegisters) : CpuRegisters :=
  { r with HI := swapHalves r.HI, LO := swapHalves r.LO }

section Swap

variable (x : U128) (r : CpuRegisters)

/-- The low half after the exchange is the high one before. -/
theorem UD_zero_swapHalves : UD 0 (swapHalves x) = UD 1 x := by
  -- Bit by bit: the halves are exchanged by an append.
  apply BitVec.eq_of_getLsbD_eq
  intro i hi
  unfold swapHalves
  rw [getLsbD_lane, BitVec.getLsbD_append]
  simp [hi]

/-- And the high half the low one. -/
theorem UD_one_swapHalves : UD 1 (swapHalves x) = UD 0 x := by
  apply BitVec.eq_of_getLsbD_eq
  intro i hi
  unfold swapHalves
  rw [getLsbD_lane, BitVec.getLsbD_append]
  simp [hi]

/-- A register is determined by its doublewords. -/
theorem ext_UD {x y : U128} (h₀ : UD 0 x = UD 0 y) (h₁ : UD 1 x = UD 1 y) : x = y := by
  refine ext_lanes (w := 64) (m := 2) rfl fun k hk => ?_
  match k, hk with
  | 0, _ => exact h₀
  | 1, _ => exact h₁

/-- The exchange is its own inverse. -/
theorem swapHalves_swapHalves : swapHalves (swapHalves x) = x :=
  ext_UD (by rw [UD_zero_swapHalves, UD_one_swapHalves])
    (by rw [UD_one_swapHalves, UD_zero_swapHalves])

/-- A write to the lower half of the exchanged register is one to the upper half. -/
theorem swapHalves_setLane (v : U64) :
    swapHalves (Lanes.setLane 0 v (swapHalves x)) = Lanes.setLane 1 v x := by
  apply ext_UD
  · have hother : UD 0 (Lanes.setLane 1 v x) = UD 0 x := lane_setLane_of_ne v x (by decide)
    have hother' : UD 1 (Lanes.setLane 0 v (swapHalves x)) = UD 1 (swapHalves x) :=
      lane_setLane_of_ne v _ (by decide)
    rw [UD_zero_swapHalves, hother, hother', UD_one_swapHalves]
  · have hself : UD 1 (Lanes.setLane 1 v x) = v := lane_setLane_self 1 v x
    have hself' : UD 0 (Lanes.setLane 0 v (swapHalves x)) = v := lane_setLane_self 0 v _
    rw [UD_one_swapHalves, hself, hself']

/-- The writes to `LO` and `HI` of a tail. -/
theorem setHiLo_swapHiLo (lo hi : U64) :
    ((r.swapHiLo.setLOLane 0 lo).setHILane 0 hi).swapHiLo = (r.setLOLane 1 lo).setHILane 1 hi := by
  change { r with
    HI := swapHalves (Lanes.setLane 0 hi (swapHalves r.HI))
    LO := swapHalves (Lanes.setLane 0 lo (swapHalves r.LO)) } = _
  rw [swapHalves_setLane, swapHalves_setLane]
  rfl

/-- Writing to the low half of `HI` between two exchanges is writing to its high half. -/
theorem setHILane_swapHiLo (v : U64) : (r.swapHiLo.setHILane 0 v).swapHiLo = r.setHILane 1 v := by
  change { r with
    HI := swapHalves (Lanes.setLane 0 v (swapHalves r.HI))
    LO := swapHalves (swapHalves r.LO) } = _
  rw [swapHalves_setLane, swapHalves_swapHalves]
  rfl

theorem setLOLane_swapHiLo (v : U64) : (r.swapHiLo.setLOLane 0 v).swapHiLo = r.setLOLane 1 v := by
  change { r with
    HI := swapHalves (swapHalves r.HI)
    LO := swapHalves (Lanes.setLane 0 v (swapHalves r.LO)) } = _
  rw [swapHalves_setLane, swapHalves_swapHalves]
  rfl

theorem setRd_swapHiLo (v : U64) : (r.setRd v).swapHiLo = r.swapHiLo.setRd v := by
  unfold CpuRegisters.setRd CpuRegisters.setRdAt
  by_cases hrd : r.rd = 0
  · rw [if_pos hrd, if_pos (show r.swapHiLo.rd = 0 from hrd)]
  · rw [if_neg hrd, if_neg (show r.swapHiLo.rd ≠ 0 from hrd)]
    rfl

/-- So `HI` and `LO` come back. -/
theorem swapHiLo_swapHiLo : r.swapHiLo.swapHiLo = r := by
  unfold CpuRegisters.swapHiLo
  rw [swapHalves_swapHalves, swapHalves_swapHalves]

/-! ### The tails -/

theorem storeProduct_swapHiLo (v : U64) :
    (storeProduct r.swapHiLo 0 v).swapHiLo = storeProduct r 1 v := by
  -- What goes to `rd` is the low half, wherever it was put.
  have hlo₀ : UD 0 ((r.swapHiLo.setLOLane 0 (lowHalf v)).setHILane 0 (highHalf v)).LO = lowHalf v :=
    lane_setLane_self 0 _ _
  have hlo₁ : UD 1 ((r.setLOLane 1 (lowHalf v)).setHILane 1 (highHalf v)).LO = lowHalf v :=
    lane_setLane_self 1 _ _
  change (((r.swapHiLo.setLOLane 0 (lowHalf v)).setHILane 0 (highHalf v)).setRd
      (UD 0 ((r.swapHiLo.setLOLane 0 (lowHalf v)).setHILane 0 (highHalf v)).LO)).swapHiLo =
    ((r.setLOLane 1 (lowHalf v)).setHILane 1 (highHalf v)).setRd
      (UD 1 ((r.setLOLane 1 (lowHalf v)).setHILane 1 (highHalf v)).LO)
  rw [hlo₀, hlo₁, setRd_swapHiLo, setHiLo_swapHiLo]

/-- The accumulator of pipeline 0 in the exchanged registers is that of pipeline 1. -/
theorem accumulator_swapHiLo : accumulator r.swapHiLo 0 = accumulator r 2 := by
  have hword : ∀ y : U128, UL 0 (swapHalves y) = UL 2 y := by
    intro y
    have hlow : UL 0 (swapHalves y) = (UD 0 (swapHalves y)).setWidth 32 :=
      (setWidth_lane_zero _ (by decide)).symm
    have hhigh : UL 2 y = (UD 1 y).setWidth 32 := (setWidth_lane y (by decide) (by decide)).symm
    rw [hlow, hhigh, UD_zero_swapHalves]
  change (UL 0 (swapHalves r.LO)).setWidth 64 ||| (UL 0 (swapHalves r.HI)).setWidth 64 <<< 32 = _
  rw [hword, hword]
  rfl

/-- The operands of a division are not exchanged. -/
theorem divideInto_swapHiLo :
    (divideInto r.swapHiLo 0 0).map CpuRegisters.swapHiLo = divideInto r 1 0 := by
  -- Nothing is written for a zero divisor; undefined on one side is undefined on the other.
  by_cases hd : UL 0 (r.GPR r.rt) = 0
  · rw [divideInto_of_zero (r := r.swapHiLo) hd, divideInto_of_zero hd, Option.map_some,
      swapHiLo_swapHiLo]
  · by_cases hdiv : divides (UL 0 (r.GPR r.rs)) (UL 0 (r.GPR r.rt)) = true
    · rw [divideInto_of_divides (r := r.swapHiLo) hd hdiv, divideInto_of_divides hd hdiv,
        Option.map_some, setHiLo_swapHiLo]
      rfl
    · rw [divideInto_of_not_divides (r := r.swapHiLo) hd hdiv, divideInto_of_not_divides hd hdiv,
        Option.map_none]

/-- **The unsigned division**, by zero too. -/
theorem divideIntoU_swapHiLo : (divideIntoU r.swapHiLo 0 0).swapHiLo = divideIntoU r 1 0 := by
  by_cases hd : UL 0 (r.GPR r.rt) = 0
  · rw [divideIntoU_of_zero (r := r.swapHiLo) hd, divideIntoU_of_zero hd, swapHiLo_swapHiLo]
  · rw [divideIntoU_of_ne (r := r.swapHiLo) hd, divideIntoU_of_ne hd, setHiLo_swapHiLo]
    rfl

end Swap

/-! ### The pairs -/

/-- The instructions that both pipelines have, by their name for pipeline 0. -/
inductive PipelinePair where
  | MULT | MULTU | DIV | DIVU | MADD | MADDU | MFHI | MFLO | MTHI | MTLO

namespace PipelinePair

def zero : PipelinePair → RegOp
  | MULT => .MULT
  | MULTU => .MULTU
  | DIV => .DIV
  | DIVU => .DIVU
  | MADD => .MADD
  | MADDU => .MADDU
  | MFHI => .MFHI
  | MFLO => .MFLO
  | MTHI => .MTHI
  | MTLO => .MTLO

def one : PipelinePair → RegOp
  | MULT => .MULT1
  | MULTU => .MULTU1
  | DIV => .DIV1
  | DIVU => .DIVU1
  | MADD => .MADD1
  | MADDU => .MADDU1
  | MFHI => .MFHI1
  | MFLO => .MFLO1
  | MTHI => .MTHI1
  | MTLO => .MTLO1

end PipelinePair

/-- **Pipeline 1 mirrors pipeline 0**: its instruction is the other one between two exchanges of the
halves, also where a division is undefined. -/
theorem pipeline_mirror (p : PipelinePair) (r : CpuRegisters) :
    p.one.run r = (p.zero.run r.swapHiLo).map CpuRegisters.swapHiLo := by
  -- A result that is computed from the general registers alone.
  have hproduct : ∀ v, some (storeProduct r 1 v) =
      (some (storeProduct r.swapHiLo 0 v)).map CpuRegisters.swapHiLo := by
    intro v
    rw [Option.map_some, storeProduct_swapHiLo]
  cases p with
  | MULT => exact hproduct (product r 0)
  | MULTU => exact hproduct (productU r 0)
  | DIV => exact (divideInto_swapHiLo r).symm
  | DIVU => exact congrArg some (divideIntoU_swapHiLo r).symm
  | MADD =>
    refine (hproduct (accumulator r 2 + product r 0)).trans ?_
    rw [← accumulator_swapHiLo]
    rfl
  | MADDU =>
    refine (hproduct (accumulator r 2 + productU r 0)).trans ?_
    rw [← accumulator_swapHiLo]
    rfl
  | MFHI =>
    -- The moves read or write one half.
    change some (r.setRd (UD 1 r.HI)) = some (r.swapHiLo.setRd (UD 0 (swapHalves r.HI))).swapHiLo
    rw [setRd_swapHiLo, swapHiLo_swapHiLo, UD_zero_swapHalves]
  | MFLO =>
    change some (r.setRd (UD 1 r.LO)) = some (r.swapHiLo.setRd (UD 0 (swapHalves r.LO))).swapHiLo
    rw [setRd_swapHiLo, swapHiLo_swapHiLo, UD_zero_swapHalves]
  | MTHI => exact congrArg some (setHILane_swapHiLo r _).symm
  | MTLO => exact congrArg some (setLOLane_swapHiLo r _).symm

end Ps2Unpacker
