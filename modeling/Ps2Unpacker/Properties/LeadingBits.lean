import Ps2Unpacker.Framework.LeadingBits
import Ps2Unpacker.Framework.Scan
import Ps2Unpacker.Semantics.Lanewise

/-!
# Counting leading bits

`PLZCW` counts, in each of the two low words of its source, the bits below the sign that equal it.
The handler does so with a loop that counts down from bit 30, leaves with `break` at the first bit
that differs from the sign, and ends at `-1` if there is none. `Handler.PLZCW` has this loop as a
recursion on the number of bits that are left; here it is also written as the loop of the source,
with its `int` index and a bound on the turns.

* `plzcwScan_eq_ok`: the loop stops behind the leading run, after at most 32 tests.
* `plzcwProgram_eq_ok`: the program with the loops does what the handler does.
* `leading_bit_count`: the numbers it leaves.
-/

namespace Ps2Unpacker

open CProg Lanes CpuRegisters

/-! ### The loop of the source -/

/-- `for (i = 30; i >= 0; i--) if (((GPR.r[_Rs_].UL[n] >> i) & 0x1) != sign) break;`, which gives
the last value of `i`. -/
def plzcwScan (n : Nat) (sign : U32) (fuel : Nat) : Prog CpuRegisters Int :=
  Prog.scan (fun r i =>
    some (decide (0 ≤ i) && decide ((UL n (r.GPR r.rs) >>> i.toNat) &&& 1 = sign)))
    (fun i => i - 1) fuel 30

/-- `_PLZCW(n)`. -/
def plzcw (fuel n : Nat) : Prog CpuRegisters Unit := do
  let r ← Prog.get
  let i ← plzcwScan n (UL n (r.GPR r.rs) >>> 31) fuel
  Prog.modify fun r => r.setLane r.rd n (BitVec.ofInt 32 (30 - i))

/-- `PLZCW`, with at most `fuel` turns of each loop. -/
def plzcwProgram (fuel : Nat) : Prog CpuRegisters Unit := do
  let r ← Prog.get
  if r.rd = 0 then pure ()
  else do
    plzcw fuel 0
    plzcw fuel 1

section Loop

variable {r : CpuRegisters} {x : U32} {fuel n m : Nat}

/-- Counting down. -/
theorem iterate_pred (k : Nat) (i : Int) : (fun i : Int => i - 1)^[k] i = i - k := by
  induction k with
  | zero => simp
  | succ k ih =>
    rw [Function.iterate_succ_apply', ih]
    omega

/-- **The loop** leaves the index of the first bit behind the run, `-1` if there is none. -/
theorem plzcwScan_eq_ok (h : LeadingRun (UL n (r.GPR r.rs)) m) (hfuel : m < fuel) :
    plzcwScan n (UL n (r.GPR r.rs) >>> 31) fuel r = .ok (30 - (m : Int)) r := by
  have hm := h.lt
  unfold plzcwScan
  refine Prog.scan_eq_ok.mpr ⟨rfl, m, hfuel, (iterate_pred m 30).symm, fun k hk => ?_, ?_⟩
  · -- Bit `30 - k` belongs to the run.
    have hindex : ((30 : Int) - k).toNat = 30 - k := by omega
    have hge : (0 : Int) ≤ 30 - k := by omega
    have hbit := (ushiftRight_and_one_eq_iff (by omega)).mpr (h.same k hk)
    rw [iterate_pred, hindex, decide_eq_true hge, Bool.true_and]
    exact congrArg some (decide_eq_true hbit)
  · -- Either the run is the whole word or the bit behind it differs.
    by_cases hlast : m + 1 < 32
    · have hindex : ((30 : Int) - m).toNat = 30 - m := by omega
      have hbit := mt (ushiftRight_and_one_eq_iff (by omega)).mp (h.stop hlast)
      rw [hindex]
      exact congrArg some ((congrArg (_ && ·) (decide_eq_false hbit)).trans (Bool.and_false _))
    · have hlt : ¬(0 : Int) ≤ 30 - m := by omega
      rw [decide_eq_false hlt, Bool.false_and]

/-- The index is `-1` for the two constant words only. -/
theorem plzcwScan_eq_neg_one_iff (hfuel : 32 ≤ fuel) :
    plzcwScan n (UL n (r.GPR r.rs) >>> 31) fuel r = .ok (-1) r ↔
      UL n (r.GPR r.rs) = 0 ∨ UL n (r.GPR r.rs) = BitVec.allOnes 32 := by
  have hrun := leadingRun_leadingBits (by decide) (UL n (r.GPR r.rs))
  have hlt := hrun.lt
  rw [← leadingRun_last_iff (by decide), plzcwScan_eq_ok hrun (by omega)]
  constructor
  · -- The index is 31 less the number of leading bits.
    intro h
    injection h with hindex
    have hlast : leadingBits (UL n (r.GPR r.rs)) = 31 := by omega
    rwa [hlast] at hrun
  · intro h
    rw [hrun.unique h]
    rfl

/-- The recursion of the handler stops there too; `m` bits are left below `b`. -/
theorem plzcwLoop_of_run : ∀ {b m : Nat}, m ≤ b → b < 32 →
    (∀ j, j < m → x.getLsbD (b - 1 - j) = x.msb) → (m < b → x.getLsbD (b - 1 - m) ≠ x.msb) →
    Handler.plzcwLoop x b = b - m := by
  intro b
  induction b with
  | zero => exact fun _ _ _ _ => (Nat.zero_sub _).symm
  | succ b ih =>
    intro m hm hb hsame hstop
    unfold Handler.plzcwLoop
    cases m with
    -- The bit below `b` differs, and the recursion stops.
    | zero =>
      have hbit := mt (ushiftRight_and_one_eq_iff (by omega)).mp (hstop (Nat.succ_pos b))
      exact if_pos hbit
    -- The bit equals the top one, and the recursion goes on below it.
    | succ m =>
      have hbit := (ushiftRight_and_one_eq_iff (by omega)).mpr (hsame 0 (Nat.succ_pos m))
      refine (if_neg (not_not.mpr hbit)).trans ?_
      rw [Nat.succ_sub_succ]
      -- The others are those of the run below bit `b`.
      refine ih (by omega) (by omega) (fun j hj => ?_) fun hlt => ?_
      · rw [show b - 1 - j = b + 1 - 1 - (j + 1) by omega]
        exact hsame (j + 1) (by omega)
      · rw [show b - 1 - m = b + 1 - 1 - (m + 1) by omega]
        exact hstop (by omega)

/-- From bit 31 on, the recursion stops behind the leading run. -/
theorem plzcwLoop_eq (h : LeadingRun x m) : Handler.plzcwLoop x 31 = 31 - m := by
  have hm := h.lt
  exact plzcwLoop_of_run (by omega) (by decide) h.same fun hlt => h.stop (by omega)

/-- One word. -/
theorem plzcw_eq_ok (h : LeadingRun (UL n (r.GPR r.rs)) m) (hfuel : m < fuel) :
    plzcw fuel n r = .ok () (r.setLane r.rd n (BitVec.ofNat 32 m)) := by
  have hcount : (30 - (30 - (m : Int))) = m := by omega
  unfold plzcw
  rw [Prog.get_bind, Prog.bind_ok_of (plzcwScan_eq_ok h hfuel), Prog.modify_apply, hcount]
  rfl

/-- Word 1 of the source is read after word 0 of the destination was written. -/
theorem UL_one_GPR_setLane (r : CpuRegisters) (v : U32) :
    UL 1 ((r.setLane r.rd 0 v).GPR r.rs) = UL 1 (r.GPR r.rs) :=
  lane_GPR_setLane r r.rd r.rs 0 1 v (.inr (by decide))

/-- The handler, with the numbers it leaves. -/
theorem PLZCW_eq (hrd : r.rd ≠ 0) {m₀ m₁ : Nat} (h₀ : LeadingRun (UL 0 (r.GPR r.rs)) m₀)
    (h₁ : LeadingRun (UL 1 (r.GPR r.rs)) m₁) :
    Handler.PLZCW r =
      (r.setLane r.rd 0 (BitVec.ofNat 32 m₀)).setLane r.rd 1 (BitVec.ofNat 32 m₁) := by
  have hcount : ∀ {x : U32} {m : Nat}, LeadingRun x m → 31 - Handler.plzcwLoop x 31 = m := by
    intro x m h
    have hm := h.lt
    rw [plzcwLoop_eq h]
    omega
  unfold Handler.PLZCW CpuRegisters.setRdPerLane
  rw [if_neg hrd]
  change (r.setLane r.rd 0
    (BitVec.ofNat 32 (31 - Handler.plzcwLoop (UL 0 (r.GPR r.rs)) 31))).setLane r.rd 1
    (BitVec.ofNat 32 (31 - Handler.plzcwLoop (UL 1 ((r.setLane r.rd 0 _).GPR r.rs)) 31)) = _
  rw [UL_one_GPR_setLane, hcount h₀, hcount h₁]

/-- **The program with the loops** does what the handler does; 32 tests are enough. -/
theorem plzcwProgram_eq_ok (hfuel : 32 ≤ fuel) :
    plzcwProgram fuel r = .ok () (Handler.PLZCW r) := by
  unfold plzcwProgram
  rw [Prog.get_bind]
  -- With `rd = 0` neither does anything.
  split
  · rename_i hrd
    unfold Handler.PLZCW CpuRegisters.setRdPerLane
    rw [if_pos hrd]
    rfl
  · rename_i hrd
    have h₀ := leadingRun_leadingBits (by decide) (UL 0 (r.GPR r.rs))
    have h₁ := leadingRun_leadingBits (by decide) (UL 1 (r.GPR r.rs))
    have hlt₀ := h₀.lt
    have hlt₁ := h₁.lt
    -- The second word of the source is read after the first word of `rd` was written.
    have hsecond : LeadingRun (UL 1 ((r.setLane r.rd 0 (BitVec.ofNat 32
        (leadingBits (UL 0 (r.GPR r.rs))))).GPR r.rs)) (leadingBits (UL 1 (r.GPR r.rs))) := by
      rw [UL_one_GPR_setLane]
      exact h₁
    rw [Prog.bind_ok_of (plzcw_eq_ok h₀ (by omega))]
    exact (plzcw_eq_ok hsecond (by omega)).trans (congrArg _ (PLZCW_eq hrd h₀ h₁).symm)

end Loop

/-! ### The numbers -/

/-- **The leading-bit count**: the loops of `PLZCW` end, and it leaves in each of the two low words
of its destination the number of bits below the sign that equal it, and the other words as they
were. -/
theorem leading_bit_count {r : CpuRegisters} (hrd : r.rd ≠ 0) :
    ∃ r', RegOp.PLZCW.run r = some r' ∧
      (∀ fuel, 32 ≤ fuel → plzcwProgram fuel r = .ok () r') ∧
      (∀ k, k < 2 → LeadingRun (UL k (r.GPR r.rs)) (UL k (r'.GPR r.rd)).toNat) ∧
      UD 1 (r'.GPR r.rd) = UD 1 (r.GPR r.rd) := by
  refine ⟨Handler.PLZCW r, rfl, fun fuel hfuel => plzcwProgram_eq_ok hfuel, fun k hk => ?_, ?_⟩
  · have hrun := leadingRun_leadingBits (by decide) (UL k (r.GPR r.rs))
    have hlt := hrun.lt
    have hword : UL k ((Handler.PLZCW r).GPR r.rd) =
        BitVec.ofNat 32 (31 - Handler.plzcwLoop (UL k (r.GPR r.rs)) 31) :=
      lane_GPR_setRdPerLane r hrd _ (by decide) hk
    have hcount : 31 - (31 - leadingBits (UL k (r.GPR r.rs))) =
        leadingBits (UL k (r.GPR r.rs)) := by omega
    rw [hword, plzcwLoop_eq hrun, hcount, BitVec.toNat_ofNat, Nat.mod_eq_of_lt (by omega)]
    exact hrun
  · -- The two words end below the upper doubleword.
    apply BitVec.eq_of_getLsbD_eq
    intro i hi
    unfold Handler.PLZCW CpuRegisters.setRdPerLane
    rw [if_neg hrd, perLane_eq, setGPR_GPR_self, getLsbD_lane, getLsbD_lane,
      getLsbD_mapLanes_of_le _ _ _ _ _ (by omega)]

/-- `PLZCW r1, r1` of `0xff000000` and `0x0000ffff`. -/
theorem leading_bit_count_in_place : ∃ r', RegOp.PLZCW.run { CpuRegisters.zeroed 0 with
      code := 0x70200804, GPR := fun _ => 0x0000ffffff000000 } = some r' ∧
    UL 0 (r'.GPR 1) = 7 ∧ UL 1 (r'.GPR 1) = 15 := by
  obtain ⟨r', hr', -, hwords, -⟩ := leading_bit_count (r := { CpuRegisters.zeroed 0 with
    code := 0x70200804, GPR := fun _ => 0x0000ffffff000000 }) (by decide)
  have hzero : LeadingRun (UL 0 0x0000ffffff000000) 7 := ⟨by decide, by decide, by decide⟩
  have hone : LeadingRun (UL 1 0x0000ffffff000000) 15 := ⟨by decide, by decide, by decide⟩
  exact ⟨r', hr', BitVec.eq_of_toNat_eq ((hwords 0 (by decide)).unique hzero),
    BitVec.eq_of_toNat_eq ((hwords 1 (by decide)).unique hone)⟩

end Ps2Unpacker
