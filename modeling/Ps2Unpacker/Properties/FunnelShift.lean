import Ps2Unpacker.Framework.Merge
import Ps2Unpacker.Properties.Aliasing
import Ps2Unpacker.Properties.Pipelines

/-!
# The funnel shift

`QFSRV` shifts the 256 bits of its two sources to the right by up to 127 bits and keeps the low 128
of them. The handler puts each doubleword of the result together from two doublewords of the
sources, one shifted to the right and its neighbour shifted to the left by what is missing to 64
bits. For an amount of 64 nothing is missing, and the second shift is one by the whole width.

* `QFSRV_zero`, `QFSRV_low`, `QFSRV_high`: the three cases, for a destination apart from the
  sources.
* `funnel_shift_iff`: the handler shifts as described exactly for the other amounts.
-/

namespace Ps2Unpacker

open Lanes CpuRegisters Handler

/-- The low 128 bits of the two registers, shifted to the right. -/
def funnel (s t : U128) (amount : Nat) : U128 := ((s ++ t) >>> amount).setWidth 128

section Funnel

variable {r : CpuRegisters}

/-- The doublewords of the two registers as lanes of their concatenation. -/
theorem lane_append_low (s t : U128) {k : Nat} (hk : k < 2) :
    lane 64 k (s ++ t) = UD k t := by
  rw [lane_append (m := 2) rfl, if_pos hk]

/-- The upper doublewords of the pair are those of `s`. -/
theorem lane_append_high (s t : U128) (k : Nat) : lane 64 (k + 2) (s ++ t) = UD k s := by
  rw [lane_append (m := 2) rfl, if_neg (by omega), Nat.add_sub_cancel]

/-- A doubleword of the funnel is one of the shifted pair. -/
theorem UD_funnel (s t : U128) (amount : Nat) {k : Nat} (hk : k < 2) :
    UD k (funnel s t amount) = lane 64 k ((s ++ t) >>> amount) := by
  apply BitVec.eq_of_getLsbD_eq
  intro i hi
  have hlow : 64 * k + i < 128 := by omega
  unfold funnel
  rw [getLsbD_lane, getLsbD_lane, BitVec.getLsbD_setWidth]
  simp [hlow]

/-- Below 64, doubleword `k` comes from the doublewords `k` and `k + 1`. -/
theorem UD_funnel_low (s t : U128) {n k : Nat} (hn : n < 64) (hk : k < 2) :
    UD k (funnel s t n) =
      lane 64 k (s ++ t) >>> n ||| lane 64 (k + 1) (s ++ t) <<< (64 - n) := by
  rw [UD_funnel s t n hk, lane_ushiftRight_of_lt k (s ++ t) hn]

/-- From 64 on, it comes from the doublewords `k + 1` and `k + 2`. -/
theorem UD_funnel_high (s t : U128) {n k : Nat} (hn : n < 64) (hk : k < 2) :
    UD k (funnel s t (64 + n)) =
      lane 64 (k + 1) (s ++ t) >>> n ||| lane 64 (k + 2) (s ++ t) <<< (64 - n) := by
  -- A shift by 64 moves every doubleword down by one; the rest of the shift is below 64.
  have hshift : ∀ j, lane 64 j ((s ++ t) >>> 64) = lane 64 (j + 1) (s ++ t) := fun j =>
    lane_ushiftRight j 1 (s ++ t)
  rw [UD_funnel s t _ hk, BitVec.shiftRight_add, lane_ushiftRight_of_lt k _ hn, hshift, hshift]

/-! ### The three cases of the handler -/

variable {v₀ v₁ : U64}

/-- Two doublewords assigned to a register are its halves. -/
theorem UD_zero_GPR_pair (r : CpuRegisters) (d : Reg) :
    UD 0 (((r.setLane d 0 v₀).setLane d 1 v₁).GPR d) = v₀ := by
  rw [UD_GPR_setLane d d (by decide), if_neg fun h => absurd h.2 (by decide),
    UD_GPR_setLane d d (by decide), if_pos ⟨rfl, rfl⟩]

theorem UD_one_GPR_pair (r : CpuRegisters) (d : Reg) :
    UD 1 (((r.setLane d 0 v₀).setLane d 1 v₁).GPR d) = v₁ := by
  rw [UD_GPR_setLane d d (by decide), if_pos ⟨rfl, rfl⟩]

/-- Without a shift the second source is copied. -/
theorem QFSRV_copies (hrd : r.rd ≠ 0) (hsa : r.sa = 0) :
    ∃ r', QFSRV r = some r' ∧ r'.GPR r.rd = funnel (r.GPR r.rs) (r.GPR r.rt) r.sa.toNat := by
  -- The upper doubleword of the source is read after the lower one of `rd` was written.
  have hsource : UD 1 ((r.setLane r.rd 0 (UD 0 (r.GPR r.rt))).GPR r.rt) = UD 1 (r.GPR r.rt) := by
    rw [UD_GPR_setLane _ _ (by decide), if_neg fun h => absurd h.2 (by decide)]
  -- The low half of the pair is the second source.
  have hresult : funnel (r.GPR r.rs) (r.GPR r.rt) 0 = r.GPR r.rt := by
    unfold funnel
    apply BitVec.eq_of_getLsbD_eq
    intro i hi
    rw [BitVec.getLsbD_setWidth, BitVec.ushiftRight_zero, BitVec.getLsbD_append]
    simp [hi]
  unfold QFSRV
  rw [if_neg hrd, if_pos hsa]
  refine ⟨_, rfl, ?_⟩
  rw [hsource, hsa]
  change _ = funnel _ _ 0
  rw [hresult]
  exact ext_UD (UD_zero_GPR_pair r r.rd) (UD_one_GPR_pair r r.rd)

/-- Below 64, with the sources apart from the destination. -/
theorem QFSRV_below (hrd : r.rd ≠ 0) (hs : r.rs ≠ r.rd) (ht : r.rt ≠ r.rd) (hne : r.sa ≠ 0)
    (hlt : r.sa < 64) :
    ∃ r', QFSRV r = some r' ∧ r'.GPR r.rd = funnel (r.GPR r.rs) (r.GPR r.rt) r.sa.toNat := by
  obtain ⟨r', hr', h₀, h₁⟩ := QFSRV_low hrd hne hlt
  have hn : r.sa.toNat < 64 := hlt
  have hleft : (64 - r.sa).toNat = 64 - r.sa.toNat := by bv_omega
  -- The sources are not overwritten on the way, so both doublewords are read as they were.
  rw [if_neg ht, hleft] at h₀
  rw [if_neg hs, hleft] at h₁
  refine ⟨r', hr', ext_UD ?_ ?_⟩
  · -- Either doubleword is put together from two neighbours of the pair.
    rw [h₀, UD_funnel_low _ _ hn (by decide), lane_append_low _ _ (by decide),
      lane_append_low _ _ (by decide)]
  · rw [h₁, UD_funnel_low _ _ hn (by decide), lane_append_low _ _ (by decide),
      lane_append_high _ _ 0]

/-- Above 64. -/
theorem QFSRV_above (hrd : r.rd ≠ 0) (hs : r.rs ≠ r.rd) (hgt : 64 < r.sa) (hlt : r.sa < 128) :
    ∃ r', QFSRV r = some r' ∧ r'.GPR r.rd = funnel (r.GPR r.rs) (r.GPR r.rt) r.sa.toNat := by
  obtain ⟨r', hr', h₀, h₁⟩ := QFSRV_high hrd hgt hlt
  have hn : (r.sa - 64).toNat < 64 := by bv_omega
  -- The amount is 64 and the amount by which the handler shifts.
  have hamount : r.sa.toNat = 64 + (r.sa - 64).toNat := by bv_omega
  have hleft : (128 - r.sa).toNat = 64 - (r.sa - 64).toNat := by bv_omega
  rw [if_neg hs, hleft] at h₀ h₁
  refine ⟨r', hr', ext_UD ?_ ?_⟩
  · rw [h₀, hamount, UD_funnel_high _ _ hn (by decide), lane_append_low _ _ (by decide),
      lane_append_high _ _ 0]
  · rw [h₁, hamount, UD_funnel_high _ _ hn (by decide), lane_append_high _ _ 0,
      lane_append_high _ _ 1]

/-- **The funnel shift** is computed, without a shift by the whole width, if and only if the amount
is not 64. -/
theorem funnel_shift_iff (hrd : r.rd ≠ 0) (hs : r.rd ≠ r.rs) (ht : r.rd ≠ r.rt) (hsa : r.sa < 128) :
    (∃ r', RegOp.QFSRV.run r = some r' ∧
      r'.GPR r.rd = funnel (r.GPR r.rs) (r.GPR r.rt) r.sa.toNat) ↔ r.sa ≠ 64 := by
  constructor
  · -- For 64 the handler is undefined,
    rintro ⟨r', hr', -⟩ h64
    have hnone := QFSRV_sixtyFour hrd h64
    change QFSRV r = some r' at hr'
    rw [hnone] at hr'
    cases hr'
  · -- and for any other amount it is in one of its three branches.
    intro h64
    by_cases hzero : r.sa = 0
    · exact QFSRV_copies hrd hzero
    · by_cases hlow : r.sa < 64
      · exact QFSRV_below hrd hs.symm ht.symm hzero hlow
      · exact QFSRV_above hrd hs.symm (by bv_omega) hsa

/-- `QFSRV r1, r2, r3` by 32 bits, of ones in all words. -/
theorem funnel_shift_word : ∃ r', RegOp.QFSRV.run { CpuRegisters.zeroed 0 with
      code := 0x70430ee8, sa := 32, GPR := fun _ => 0x00000001000000010000000100000001 } = some r' ∧
    r'.GPR 1 = 0x00000001000000010000000100000001 := by
  obtain ⟨r', hr', hvalue⟩ := (funnel_shift_iff (r := { CpuRegisters.zeroed 0 with
      code := 0x70430ee8, sa := 32, GPR := fun _ => 0x00000001000000010000000100000001 })
    (by decide) (by decide) (by decide) (by decide)).mpr (by decide)
  exact ⟨r', hr', hvalue.trans (by decide)⟩

/-- `QFSRV r1, r2, r3` by 64 bits. -/
theorem not_funnel_shift :
    ¬∀ r : CpuRegisters, r.rd ≠ 0 → r.rd ≠ r.rs → r.rd ≠ r.rt → r.sa < 128 →
      ∃ r', RegOp.QFSRV.run r = some r' ∧
        r'.GPR r.rd = funnel (r.GPR r.rs) (r.GPR r.rt) r.sa.toNat := by
  intro hall
  obtain ⟨r', hr', -⟩ := hall { CpuRegisters.zeroed 0 with code := 0x70430ee8, sa := 64 }
    (by decide) (by decide) (by decide) (by decide)
  cases hr'

end Funnel

end Ps2Unpacker
