import Ps2Unpacker.Framework.Accumulator
import Ps2Unpacker.Semantics.HiLo

/-!
# Sequences of multiply and accumulate instructions

`MULT` and `MULTU` replace the accumulator of their pipeline, `MADD` and `MADDU` add to it; the
accumulator is split over `HI` and `LO`, each half held sign-extended. Over any interleaving of the
eight instructions of the two pipelines the accumulators behave as two numbers modulo `2 ^ 64`.

* `MulInstr.step_spec`: one instruction, on the accumulator of its pipeline and on the other one.
* `runAll_accumulator`: any sequence, by induction from that.
* `multiply_accumulate`: the closed form, and what a single instruction leaves in the two halves.
-/

namespace Ps2Unpacker

open CProg Lanes CpuRegisters Handler

/-! ### The instructions -/

/-- The multiplications of the two pipelines. -/
inductive MulOp where
  | MULT | MULTU | MADD | MADDU | MULT1 | MULTU1 | MADD1 | MADDU1

namespace MulOp

def op : MulOp → RegOp
  | MULT => .MULT
  | MULTU => .MULTU
  | MADD => .MADD
  | MADDU => .MADDU
  | MULT1 => .MULT1
  | MULTU1 => .MULTU1
  | MADD1 => .MADD1
  | MADDU1 => .MADDU1

/-- The pipeline, which is the doubleword of `HI` and `LO` it owns. -/
def pipeline : MulOp → Nat
  | MULT | MULTU | MADD | MADDU => 0
  | MULT1 | MULTU1 | MADD1 | MADDU1 => 1

/-- The product replaces the accumulator. -/
def resets : MulOp → Bool
  | MULT | MULTU | MULT1 | MULTU1 => true
  | MADD | MADDU | MADD1 | MADDU1 => false

/-- The operands are signed. -/
def signed : MulOp → Bool
  | MULT | MADD | MULT1 | MADD1 => true
  | MULTU | MADDU | MULTU1 | MADDU1 => false

/-- The product of the words 0 of the operands, as an integer. -/
def product (m : MulOp) (r : CpuRegisters) : Int :=
  if m.signed then (UL 0 (r.GPR r.rs)).toInt * (UL 0 (r.GPR r.rt)).toInt
  else (UL 0 (r.GPR r.rs)).toNat * (UL 0 (r.GPR r.rt)).toNat

/-- There are two pipelines. -/
theorem pipeline_lt (m : MulOp) : m.pipeline < 2 := by
  cases m <;> decide

end MulOp

/-- The dispatch of an instruction word, for the handlers that compute on registers. -/
def dispatch (code : U32) (r : CpuRegisters) : Option CpuRegisters :=
  match decode code with
  | .register o => o.run { r with code := code }
  | _ => none

/-- An instruction word of one of the multiplications. -/
structure MulInstr where
  op : MulOp
  code : U32
  decodes : decode code = .register op.op

/-- Run a sequence. -/
def runAll : List MulInstr → CpuRegisters → Option CpuRegisters
  | [], r => some r
  | i :: is, r => (dispatch i.code r).bind (runAll is)

/-- The products that pipeline `p` computes in the course of the run, each from the operands read at
its step. -/
def contributions (p : Nat) : List MulInstr → CpuRegisters → List (Contribution Int)
  | [], _ => []
  | i :: is, r =>
    let later := ((dispatch i.code r).map (contributions p is)).getD []
    if i.op.pipeline = p then ⟨i.op.resets, i.op.product { r with code := i.code }⟩ :: later
    else later

/-! ### One instruction -/

/-- What a multiplication stores: its product, or the sum with the accumulator. -/
def MulOp.result (m : MulOp) (r : CpuRegisters) : U64 :=
  if m.resets then BitVec.ofInt 64 (m.product r)
  else accumulator r (2 * m.pipeline) + BitVec.ofInt 64 (m.product r)

section Step

variable (r : CpuRegisters)

/-- The product of the signed words. -/
theorem product_eq_ofInt : Handler.product r 0 =
    BitVec.ofInt 64 ((UL 0 (r.GPR r.rs)).toInt * (UL 0 (r.GPR r.rt)).toInt) := by
  rw [BitVec.ofInt_mul]
  rfl

/-- The product of the unsigned words. -/
theorem productU_eq_ofInt : Handler.productU r 0 =
    BitVec.ofInt 64 ((UL 0 (r.GPR r.rs)).toNat * (UL 0 (r.GPR r.rt)).toNat) := by
  rw [BitVec.ofInt_mul, BitVec.ofInt_natCast, BitVec.ofInt_natCast, BitVec.ofNat_toNat,
    BitVec.ofNat_toNat]
  rfl

/-- The eight handlers are one: store the result in the pipeline's halves. -/
theorem MulOp.run_eq (m : MulOp) : m.op.run r = some (storeProduct r m.pipeline (m.result r)) := by
  -- The handlers multiply as `U64` or `S64`, the instruction on integers.
  have hs := product_eq_ofInt r
  have hu := productU_eq_ofInt r
  cases m with
  | MULT => exact congrArg (fun v => some (storeProduct r 0 v)) hs
  | MULTU => exact congrArg (fun v => some (storeProduct r 0 v)) hu
  | MADD => exact congrArg (fun v => some (storeProduct r 0 (accumulator r 0 + v))) hs
  | MADDU => exact congrArg (fun v => some (storeProduct r 0 (accumulator r 0 + v))) hu
  | MULT1 => exact congrArg (fun v => some (storeProduct r 1 v)) hs
  | MULTU1 => exact congrArg (fun v => some (storeProduct r 1 v)) hu
  | MADD1 => exact congrArg (fun v => some (storeProduct r 1 (accumulator r 2 + v))) hs
  | MADDU1 => exact congrArg (fun v => some (storeProduct r 1 (accumulator r 2 + v))) hu

/-- What one instruction does to the halves of `HI` and `LO`. -/
structure MulInstr.Steps (i : MulInstr) (r r' : CpuRegisters) : Prop where
  accumulator : Handler.accumulator r' (2 * i.op.pipeline) = i.op.result { r with code := i.code }
  HI : UD i.op.pipeline r'.HI = highHalf (i.op.result { r with code := i.code })
  LO : UD i.op.pipeline r'.LO = lowHalf (i.op.result { r with code := i.code })
  otherHI : ∀ q, q ≠ i.op.pipeline → UD q r'.HI = UD q r.HI
  otherLO : ∀ q, q ≠ i.op.pipeline → UD q r'.LO = UD q r.LO

/-- **One instruction**. -/
theorem MulInstr.step_spec (i : MulInstr) : ∃ r', dispatch i.code r = some r' ∧ i.Steps r r' := by
  have hp := i.op.pipeline_lt
  let x : CpuRegisters := { r with code := i.code }
  refine ⟨storeProduct x i.op.pipeline (i.op.result x), ?_, ?_⟩
  · unfold dispatch
    rw [i.decodes]
    exact i.op.run_eq x
  · exact
      -- Each half is one lane of its register: the own lane is new, the others stay.
      { accumulator := accumulator_of_halves hp (storeProduct_LO _ _ _) (storeProduct_HI _ _ _)
        HI := by rw [storeProduct_HI]; exact lane_setLane_self _ _ _ (by omega)
        LO := by rw [storeProduct_LO]; exact lane_setLane_self _ _ _ (by omega)
        otherHI := fun q hq => by rw [storeProduct_HI]; exact lane_setLane_of_ne _ _ hq
        otherLO := fun q hq => by rw [storeProduct_LO]; exact lane_setLane_of_ne _ _ hq }

/-- The accumulator of the other pipeline. -/
theorem MulInstr.Steps.accumulator_of_ne {i : MulInstr} {r r' : CpuRegisters} (h : i.Steps r r')
    {p : Nat} (hp : p ≠ i.op.pipeline) :
    Handler.accumulator r' (2 * p) = Handler.accumulator r (2 * p) := by
  have hword : ∀ x : U128, UL (2 * p) x = (UD p x).setWidth 32 := fun x =>
    (setWidth_lane x (by decide) (by omega)).symm
  unfold Handler.accumulator
  rw [hword, hword, hword, hword, h.otherHI p hp, h.otherLO p hp]

end Step

/-! ### Sequences -/

/-- **Any sequence** runs, and takes each accumulator through the products of its pipeline. -/
theorem runAll_accumulator (is : List MulInstr) :
    ∀ r, ∃ r', runAll is r = some r' ∧ ∀ p, accumulator r' (2 * p) =
      accumulate (accumulator r (2 * p))
        ((contributions p is r).map fun c => c.map (BitVec.ofInt 64)) := by
  -- On the sequence: the first instruction changes one of the accumulators, by its product.
  induction is with
  | nil => exact fun r => ⟨r, rfl, fun _ => rfl⟩
  | cons i is ih =>
    intro r
    obtain ⟨r₁, hstep, hspec⟩ := i.step_spec r
    obtain ⟨r', hrun, hacc⟩ := ih r₁
    refine ⟨r', ?_, fun p => ?_⟩
    · unfold runAll
      rw [hstep]
      exact hrun
    · unfold contributions
      rw [hacc p, hstep]
      by_cases hp : i.op.pipeline = p
      · -- Its own accumulator starts over or takes the product up.
        subst hp
        rw [if_pos rfl, hspec.accumulator, List.map_cons, accumulate_cons]
        rfl
      · rw [if_neg hp, hspec.accumulator_of_ne (Ne.symm hp)]
        rfl

/-- **Multiply and accumulate sequences.** The accumulator of pipeline `p`, words `2 * p` of `HI`
and `LO`, is the last product that replaced it, or its initial value, plus the products added since,
modulo `2 ^ 64`. An instruction leaves the half of the other pipeline alone and its own half
sign-extended. -/
theorem multiply_accumulate (is : List MulInstr) (r : CpuRegisters) :
    (∃ r', runAll is r = some r' ∧ ∀ p,
      accumulator r' (2 * p) = BitVec.ofInt 64
        (lastReset ((accumulator r (2 * p)).toNat : Int) (contributions p is r) +
          (sinceReset (contributions p is r)).sum)) ∧
    -- Each of the instructions, from any state.
    ∀ (i : MulInstr) (x : CpuRegisters), ∃ x', dispatch i.code x = some x' ∧
      UD (1 - i.op.pipeline) x'.HI = UD (1 - i.op.pipeline) x.HI ∧
      UD (1 - i.op.pipeline) x'.LO = UD (1 - i.op.pipeline) x.LO ∧
      SignExtended 32 (UD i.op.pipeline x'.HI) ∧ SignExtended 32 (UD i.op.pipeline x'.LO) := by
  constructor
  · obtain ⟨r', hrun, hacc⟩ := runAll_accumulator is r
    refine ⟨r', hrun, fun p => ?_⟩
    -- The initial value, as an integer.
    have hinit : accumulator r (2 * p) = BitVec.ofInt 64 ((accumulator r (2 * p)).toNat : Int) := by
      rw [BitVec.ofInt_natCast, BitVec.ofNat_toNat, BitVec.setWidth_eq]
    rw [hacc p, ← accumulate_eq, ← accumulate_map (fun a b => BitVec.ofInt_add a b), ← hinit]
  · intro i x
    obtain ⟨x', hstep, hspec⟩ := i.step_spec x
    have hother : 1 - i.op.pipeline ≠ i.op.pipeline := by omega
    refine ⟨x', hstep, hspec.otherHI _ hother, hspec.otherLO _ hother, ?_, ?_⟩
    · -- The two words written are sign extended by the handler.
      rw [hspec.HI]
      exact SignExtended.signExtend _ (by decide) (by decide)
    · rw [hspec.LO]
      exact SignExtended.signExtend _ (by decide) (by decide)

/-- `mult a0, v0, v1`, `madd1 a0, v0, v1` and `maddu a0, v0, v1`. -/
def mulThree : List MulInstr :=
  [⟨.MULT, 0x00432018, rfl⟩, ⟨.MADD1, 0x70432020, rfl⟩, ⟨.MADDU, 0x70432001, rfl⟩]

/-- On the operands -3 and 5: the pipeline 0 adds the unsigned product to the signed one, and the
pipeline 1 the signed product to its accumulator 7. -/
theorem multiply_accumulate_three :
    ∃ r', runAll mulThree ({ CpuRegisters.zeroed 0 with
        GPR := fun i => if i = 2 then 0xFFFFFFFD else if i = 3 then 5 else 0
        LO := 7#128 <<< 64 } : CpuRegisters) = some r' ∧
      accumulator r' 0 = BitVec.ofInt 64 (-15 + 4294967293 * 5) ∧
      accumulator r' 2 = BitVec.ofInt 64 (7 - 15) := by
  obtain ⟨⟨r', hrun, hacc⟩, -⟩ := multiply_accumulate mulThree { CpuRegisters.zeroed 0 with
    GPR := fun i => if i = 2 then 0xFFFFFFFD else if i = 3 then 5 else 0
    LO := 7#128 <<< 64 }
  refine ⟨r', hrun, (hacc 0).trans ?_, (hacc 1).trans ?_⟩
  · decide
  · decide

end Ps2Unpacker
