import Mathlib.Order.Bounds.Basic
import Ps2Unpacker.Properties.RangeSafety

/-!
# The alignment of the low address

With `-a`, `main` moves the low address it found down to the alignment: if the address meets the
mask `align - 1`, it adds `align`, clears the bits of the mask and takes `align` away again. The
masks stand for a remainder. They are one for every address only if `align` is a power of two, and
the address 1 already tells the two cases apart.

* `alignLo_eq`: what is taken away are the bits of the mask in `lo + align`.
* `alignLo_isGreatest_iff`: when that is the greatest multiple of `align` that is not above `lo`.
* `MasksRemainder.of_two_pow`, `MasksRemainder.exists_two_pow`: a power of two masks the remainder
  of every address, and what masks the remainder of 1 is a power of two.
* `lowAligned_iff_masksRemainder`: the low address of one memory.
* `low_aligned_iff`: the alignments for which the low address is right for every memory and tags.
-/

namespace Ps2Unpacker

open CProg Lanes

/-! ### The masks -/

/-- `alignLo` as one subtraction. -/
theorem alignLo_eq (align lo : U32) :
    alignLo align lo =
      if lo &&& (align - 1) = 0 then lo else lo - ((lo + align) &&& (align - 1)) := by
  unfold alignLo
  by_cases hzero : lo &&& (align - 1) = 0
  · rw [if_pos hzero, if_neg (not_not.mpr hzero)]
  · -- What `align` adds it takes away again.
    rw [if_neg hzero, if_pos hzero, and_neg_eq_sub]
    bv_omega

/-- The bits that the mask takes out of `lo` are the remainder by `align`. -/
def MasksRemainder (align lo : U32) : Prop :=
  if lo &&& (align - 1) = 0 then align.toNat ∣ lo.toNat
  else ((lo + align) &&& (align - 1)).toNat = lo.toNat % align.toNat

/-- The greatest multiple below `z` is `z` less its remainder. -/
theorem isGreatest_multiple {a z : Nat} : IsGreatest {m | a ∣ m ∧ m ≤ z} (z - z % a) := by
  refine ⟨⟨Nat.dvd_sub_mod z, Nat.sub_le z _⟩, ?_⟩
  rintro m ⟨⟨q, rfl⟩, hm⟩
  have hdiv := Nat.div_add_mod z a
  rcases Nat.eq_zero_or_pos a with rfl | ha
  · rw [Nat.zero_mul]
    exact Nat.zero_le _
  · have hq : q ≤ z / a := (Nat.le_div_iff_mul_le ha).mpr (by rwa [Nat.mul_comm])
    have hmul := Nat.mul_le_mul_left a hq
    omega

/-- **The alignment** is right exactly where the masks are remainders. -/
theorem alignLo_isGreatest_iff (align lo : U32) :
    IsGreatest {m | align.toNat ∣ m ∧ m ≤ lo.toNat} (alignLo align lo).toNat ↔
      MasksRemainder align lo := by
  have hgreatest := isGreatest_multiple (a := align.toNat) (z := lo.toNat)
  -- There is one greatest multiple, and it is `lo` less its remainder.
  have hiff : IsGreatest {m | align.toNat ∣ m ∧ m ≤ lo.toNat} (alignLo align lo).toNat ↔
      (alignLo align lo).toNat = lo.toNat - lo.toNat % align.toNat :=
    ⟨fun h => h.unique hgreatest, fun h => h ▸ hgreatest⟩
  have hle := Nat.mod_le lo.toNat align.toNat
  rw [hiff, alignLo_eq]
  unfold MasksRemainder
  split
  · -- No bit of the mask is set: `lo` stays, and is right if it is a multiple.
    rw [Nat.dvd_iff_mod_eq_zero]
    omega
  · -- Otherwise both sides are differences from `lo`.
    have hlo := lo.isLt
    have hmask := ((lo + align) &&& (align - 1)).isLt
    rw [BitVec.toNat_sub]
    omega

/-- A power of two masks the remainder. -/
theorem MasksRemainder.of_two_pow {align : U32} {k : Nat} (hk : align.toNat = 2 ^ k) (lo : U32) :
    MasksRemainder align lo := by
  unfold MasksRemainder
  split
  · rename_i hzero
    rw [hk, Nat.dvd_iff_mod_eq_zero, ← and_sub_one_toNat hk, hzero]
    rfl
  · -- The remainder by a power of two is not changed by wrapping, nor by one more `align`.
    have hdvd : 2 ^ k ∣ 2 ^ 32 := by
      refine Nat.pow_dvd_pow 2 ?_
      have hlt := align.isLt
      rw [hk] at hlt
      exact Nat.le_of_lt ((Nat.pow_lt_pow_iff_right (by decide)).mp hlt)
    rw [and_sub_one_toNat hk, BitVec.toNat_add, Nat.mod_mod_of_dvd _ hdvd, hk, Nat.add_mod_right]

/-- If one more than an even number meets the mask of the number in the last bit only, the number is
a power of two. -/
theorem exists_two_pow_of_even {n : Nat} (hpos : 0 < n) (heven : n % 2 = 0)
    (hmask : (1 + n) &&& (n - 1) = 1) : ∃ k, n = 2 ^ k := by
  -- Without their last bits the two are `n / 2` and its predecessor.
  have hhalf : (n / 2) &&& (n / 2 - 1) = 0 := by
    have hdiv := congrArg (· / 2) hmask
    simp only [Nat.and_div_two] at hdiv
    rwa [show (1 + n) / 2 = n / 2 by omega, show (n - 1) / 2 = n / 2 - 1 by omega] at hdiv
  obtain ⟨k, hk⟩ := (Nat.and_sub_one_eq_zero_iff_isPowerOfTwo (by omega)).mp hhalf
  exact ⟨k + 1, by omega⟩

/-- An odd alignment other than 1 has the last bit not in its mask, so that the address 1 is taken
for a multiple; an even one that is no power of two has another bit outside it. -/
theorem MasksRemainder.exists_two_pow {align : U32} (hpos : 1 ≤ align.toNat)
    (h : MasksRemainder align 1) : ∃ k, align.toNat = 2 ^ k := by
  have hlt := align.isLt
  have hone : (1 : U32).toNat = 1 := rfl
  have hpred : (align - 1).toNat = align.toNat - 1 := by
    rw [BitVec.toNat_sub, hone]
    omega
  have hlast : ((1 : U32) &&& (align - 1)).toNat = (align.toNat - 1) % 2 := by
    rw [BitVec.toNat_and, hpred, hone, Nat.and_comm, Nat.and_one_is_mod]
  unfold MasksRemainder at h
  split at h
  · rename_i hzero
    -- The alignment divides 1.
    exact ⟨0, Nat.dvd_one.mp h⟩
  · rename_i hne
    have hodd : (align.toNat - 1) % 2 = 1 := by
      have hnz : (align.toNat - 1) % 2 ≠ 0 := fun hz =>
        hne (BitVec.eq_of_toNat_eq (hlast.trans hz))
      omega
    refine exists_two_pow_of_even (by omega) (by omega) ?_
    -- An even alignment is at most `2 ^ 32 - 2`, so the sum does not wrap.
    rw [BitVec.toNat_and, BitVec.toNat_add, hpred, hone, Nat.mod_eq_of_lt (by omega),
      Nat.mod_eq_of_lt (show 1 < align.toNat by omega)] at h
    exact h

/-! ### The low address -/

section Low

variable (opts : Options) {s : Machine} {B : Nat} {z : U32}

/-- Going down from `x`, the loop stops at one byte only. -/
theorem StopsBelow.unique {x C : Nat} (h : StopsBelow s x B) (h' : StopsBelow s x C) : B = C := by
  rcases Nat.lt_trichotomy B C with hlt | heq | hlt
  · have hle := h'.le
    exact absurd (h.written (C - 1) (by omega) (by omega)) h'.below
  · exact heq
  · have hle := h.le
    exact absurd (h'.written (B - 1) (by omega) (by omega)) h.below

/-- There is one first byte that is not zero. -/
theorem FirstNonzero.unique {y y' : Nat} (h : FirstNonzero s B y) (h' : FirstNonzero s B y') :
    y = y' := by
  -- Of two, the smaller one would be a zero in front of the other.
  rcases Nat.lt_trichotomy y y' with hlt | heq | hlt
  · exact absurd h.nonzero (h'.zero y h.le hlt)
  · exact heq
  · exact absurd h'.nonzero (h.zero y' h'.le hlt)

/-- The search for the low address ends, with the greatest multiple of the alignment that is not
above `z`. -/
def LowAligned (opts : Options) (s : Machine) (z : U32) : Prop :=
  ∃ fuel lo, findLo opts fuel s.bouncePc s = .ok lo s ∧
    IsGreatest {m | opts.align.toNat ∣ m ∧ m ≤ z.toNat} lo.toNat

/-- The searches end, so the property is one of the mask. -/
theorem lowAligned_iff_masksRemainder (hlo : opts.lo = 0)
    (hstop : StopsBelow s s.bouncePc.toNat B) (hfirst : FirstNonzero s B z.toNat) :
    LowAligned opts s z ↔ MasksRemainder opts.align z := by
  have hbase : LowBase opts s (alignLo opts.align z) :=
    (if_pos hlo).mpr ⟨B, z, hstop, hfirst, rfl⟩
  rw [← alignLo_isGreatest_iff]
  constructor
  · rintro ⟨fuel, lo, hrun, hgreatest⟩
    -- A search that ends ends with the base that the two loops determine.
    have hlow := (lowBase_of_findLo hrun).2
    unfold LowBase at hlow
    rw [if_pos hlo] at hlow
    obtain ⟨C, z', hstop', hfirst', rfl⟩ := hlow
    -- The two loops stop where they have to.
    obtain rfl := hstop.unique hstop'
    obtain rfl := BitVec.eq_of_toNat_eq (hfirst.unique hfirst')
    exact hgreatest
  · exact fun h => ⟨2 ^ 32, alignLo opts.align z, findLo_of_lowBase hbase, h⟩

/-- `-a align` is honoured: for every memory, tags and entry point, with `z` the first nonzero byte
from the start of the written bytes below the entry point, the low address is aligned. -/
def HonoursAlign (align : U32) : Prop :=
  ∀ (opts : Options) (s : Machine) (B : Nat) (z : U32), opts.align = align → opts.lo = 0 →
    StopsBelow s s.bouncePc.toNat B → FirstNonzero s B z.toNat → LowAligned opts s z

/-- If a block starts at the entry point, and not with a zero, both loops stop there. -/
theorem unpacked_first {memory : Fin MEMSIZE → U8} {E : U32} {L : Nat} (hpos : 0 < E.toNat)
    (hEL : E.toNat ≤ L) (hL : L < MEMSIZE)
    (hne : (Machine.unpacked memory E.toNat L E).NonzeroAt E.toNat) :
    StopsBelow (Machine.unpacked memory E.toNat L E) E.toNat E.toNat ∧
      FirstNonzero (Machine.unpacked memory E.toNat L E) E.toNat E.toNat := by
  have run := @unpacked_run _ _ memory E (Nat.le_refl E.toNat) hEL hL
  -- Between the start of the block and the entry point there is no byte.
  exact ⟨⟨Nat.le_refl _, fun i hlo hhi => by omega, hpos, by omega, run.below hpos⟩,
    Nat.le_refl _, fun i hlo hhi => by omega, hne⟩

/-- **The low address is aligned**, for every memory and tags, if and only if the alignment is a
power of two. -/
theorem low_aligned_iff {align : U32} (hpos : 1 ≤ align.toNat) :
    HonoursAlign align ↔ ∃ k, align.toNat = 2 ^ k := by
  constructor
  · intro h
    -- The written bytes `[1, 3]`, of which the first is not zero, with the entry point 1.
    obtain ⟨hstop, hfirst⟩ := @unpacked_first (program 0 [0x00000100]) 1 3 (by decide) (by decide)
      (by decide) ⟨by decide, by decide⟩
    have hlow := h { align } _ 1 1 rfl rfl hstop hfirst
    have hmasks := (lowAligned_iff_masksRemainder { align } (z := 1) rfl hstop hfirst).mp hlow
    exact hmasks.exists_two_pow hpos
  · rintro ⟨k, hk⟩ opts s B z rfl hlo hstop hfirst
    exact (lowAligned_iff_masksRemainder opts hlo hstop hfirst).mpr (.of_two_pow hk z)

/-- Every memory with the alignment 16, and not every memory with the alignment 12. -/
theorem low_aligned_sixteen : HonoursAlign 16 ∧ ¬HonoursAlign 12 := by
  refine ⟨(low_aligned_iff (by decide)).mpr ⟨4, rfl⟩, fun h => ?_⟩
  obtain ⟨k, hk⟩ := (low_aligned_iff (by decide)).mp h
  have hk' : 12 = 2 ^ k := hk
  have hle : k ≤ 3 := by
    by_contra hlt
    have hpow := Nat.pow_le_pow_right (n := 2) (by decide) (show 4 ≤ k by omega)
    omega
  interval_cases k <;> omega

/-- The written bytes 1, 2, 3, 4 at `0x200`, with the alignment 12, whose mask misses `0x200`. -/
theorem not_low_aligned :
    ¬∀ (opts : Options) (s : Machine) (B : Nat) (z : U32), opts.lo = 0 → 1 ≤ opts.align.toNat →
      StopsBelow s s.bouncePc.toNat B → FirstNonzero s B z.toNat → LowAligned opts s z := by
  intro hall
  obtain ⟨hstop, hfirst⟩ := @unpacked_first (program 0x200 [0x04030201]) 0x200 0x203 (by decide)
    (by decide) (by decide) ⟨by decide, by decide⟩
  have hmasks := (lowAligned_iff_masksRemainder { align := 12 } (z := 0x200) rfl hstop
    hfirst).mp (hall _ _ _ 0x200 rfl (by decide) hstop hfirst)
  have hdvd : 12 ∣ 0x200 := (if_pos (by decide)).mp hmasks
  omega

end Low

end Ps2Unpacker
