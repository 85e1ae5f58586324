import Ps2Unpacker.Machine.Main
import Ps2Unpacker.Semantics.Exec

/-!
# The automatic range

After the emulation, `main` looks for the block of written bytes around the entry point: down and up
from the entry point as long as the neighbour is tagged as written, then from both ends to the first
byte that is not zero; the low address is aligned down. The low address is inclusive and the high
one exclusive, but the upward loop leaves `hi_base` at the *last written byte* and the loop after it
looks at `hi_base - 1`, so the last byte of the block is never dumped.

* `scanLo_eq_ok`, `scanHi_eq_ok`: what the loops return, in terms of the block.
* `alignLo_toNat`: the alignment, for a power of two.
* `block_dumped_iff`: no nonzero byte of the block is lost exactly if its last byte is zero.
* `entry_dumped_iff`: exactly when the range contains the entry point.
* `not_block_dumped`, `not_entry_dumped`: without the conditions this fails.
-/

namespace Ps2Unpacker

open CProg Lanes

/-! ### Memory and tags by index -/

/-- Byte `i` of memory exists and is tagged as written. -/
def Machine.WrittenAt (s : Machine) (i : Nat) : Prop := ∃ h : i < MEMSIZE, s.Written ⟨i, h⟩

/-- Byte `i` of memory exists and is not zero. -/
def Machine.NonzeroAt (s : Machine) (i : Nat) : Prop := ∃ h : i < MEMSIZE, s.memory ⟨i, h⟩ ≠ 0

/-- `has_write(i)`. -/
def Machine.tagAt (s : Machine) (i : Nat) : Option Bool :=
  if h : i < MEMSIZE then some (decide (s.Written ⟨i, h⟩)) else none

/-- `is_zero(i)`. -/
def Machine.zeroAt (s : Machine) (i : Nat) : Option Bool :=
  if h : i < MEMSIZE then some (decide (s.memory ⟨i, h⟩ = 0)) else none

variable {s s' : Machine} {i : Nat}

/-- A value under a condition, negated. -/
theorem exists_not_iff {c : Prop} {p : c → Prop} : (∃ h, ¬p h) ↔ c ∧ ¬∃ h, p h :=
  ⟨fun ⟨h, hp⟩ => ⟨h, fun ⟨_, hp'⟩ => hp hp'⟩, fun ⟨h, hp⟩ => ⟨h, fun hp' => hp ⟨h, hp'⟩⟩⟩

section Lookup

variable {c : Prop} [Decidable c] {p : c → Prop} [∀ h, Decidable (p h)]

/-- A lookup that may be out of range, and is true. -/
theorem lookup_eq_true : (if h : c then some (decide (p h)) else none) = some true ↔ ∃ h, p h := by
  split
  · rename_i h
    simp [h]
  · rename_i h
    simp [h]

/-- The same for false: the index is in range. -/
theorem lookup_eq_false :
    (if h : c then some (decide (p h)) else none) = some false ↔ ∃ h, ¬p h := by
  split
  · rename_i h
    simp [h]
  · rename_i h
    simp [h]

end Lookup

/-- The tag says written. -/
theorem tagAt_eq_true : s.tagAt i = some true ↔ s.WrittenAt i := lookup_eq_true

/-- The tag is there and says not written. -/
theorem tagAt_eq_false : s.tagAt i = some false ↔ i < MEMSIZE ∧ ¬s.WrittenAt i :=
  lookup_eq_false.trans exists_not_iff

/-- The byte is there and is zero. -/
theorem zeroAt_eq_true : s.zeroAt i = some true ↔ i < MEMSIZE ∧ ¬s.NonzeroAt i := by
  unfold Machine.NonzeroAt
  rw [← exists_not_iff]
  simp only [not_not]
  exact lookup_eq_true

/-- The byte is there and is not zero. -/
theorem zeroAt_eq_false : s.zeroAt i = some false ↔ s.NonzeroAt i := lookup_eq_false

theorem tagAt_of_le (h : MEMSIZE ≤ i) : s.tagAt i = none := dif_neg (by omega)

theorem zeroAt_of_le (h : MEMSIZE ≤ i) : s.zeroAt i = none := dif_neg (by omega)

/-- Written bytes are in memory. -/
theorem Machine.WrittenAt.lt (h : s.WrittenAt i) : i < MEMSIZE := h.1

/-- So are nonzero ones. -/
theorem Machine.NonzeroAt.lt (h : s.NonzeroAt i) : i < MEMSIZE := h.1

/-- The lookups of the loops, by number. -/
theorem hasWrite_eq_tagAt (s : Machine) (x : U32) : hasWrite s x = s.tagAt x.toNat := rfl

/-- The same for bytes. -/
theorem isZero_eq_zeroAt (s : Machine) (x : U32) : isZero s x = s.zeroAt x.toNat := rfl

/-- The neighbour below, as a function of the index; below zero lies the end of the address space.
-/
theorem neighbour_below (p : Nat → Option Bool) (hp : p (2 ^ 32 - 1) = none) (x : U32) :
    p (x - 1).toNat = if x.toNat = 0 then none else p (x.toNat - 1) := by
  have hx := x.isLt
  have hone : (1 : U32).toNat = 1 := rfl
  rw [BitVec.toNat_sub, hone]
  by_cases h0 : x.toNat = 0
  · rw [if_pos h0, h0, ← hp]
    rfl
  · have hsub : (2 ^ 32 - 1 + x.toNat) % 2 ^ 32 = x.toNat - 1 := by omega
    rw [if_neg h0, hsub]

/-! ### The four loops -/

/-- Going down from `x` over written bytes, the first byte that is not written is below `B`. -/
structure StopsBelow (s : Machine) (x B : Nat) : Prop where
  le : B ≤ x
  written : ∀ i, B ≤ i → i < x → s.WrittenAt i
  pos : 0 < B
  inside : B ≤ MEMSIZE
  below : ¬s.WrittenAt (B - 1)

/-- Going up from `x` over written bytes, the first byte that is not written is `u`. -/
structure StopsAbove (s : Machine) (x u : Nat) : Prop where
  le : x ≤ u
  written : ∀ i, x ≤ i → i < u → s.WrittenAt i
  inside : u < MEMSIZE
  above : ¬s.WrittenAt u

section Loops

variable {fuel B L : Nat} {E x y : U32}

/-- The loop down over written bytes. -/
theorem scanWrittenDown_eq_ok :
    Prog.scan (fun s lo => hasWrite s (lo - 1)) (fun lo => lo - 1) fuel E s = .ok y s' ↔
      s' = s ∧ E.toNat - y.toNat < fuel ∧ StopsBelow s E.toNat y.toNat := by
  rw [Prog.scanDown_eq_ok (f := fun i => if i = 0 then none else s.tagAt (i - 1))
    (fun x => neighbour_below s.tagAt (tagAt_of_le (by decide)) x) (by simp)]
  refine and_congr_right fun _ => ?_
  constructor
  · rintro ⟨hle, hfuel, hbefore, hstop⟩
    -- At 0 the loop tests byte `2 ^ 32 - 1`, which is out of range.
    have hpos : y.toNat ≠ 0 := by
      intro h0
      rw [if_pos h0] at hstop
      cases hstop
    rw [if_neg hpos, tagAt_eq_false] at hstop
    refine ⟨hfuel, hle, fun i hlo hhi => ?_, by omega, by omega, hstop.2⟩
    -- The loop went on at `i + 1` because byte `i` is written.
    have hgo := hbefore (i + 1) (by omega) (by omega)
    rwa [if_neg (by omega), Nat.add_sub_cancel, tagAt_eq_true] at hgo
  · rintro ⟨hfuel, hstop⟩
    have hpos := hstop.pos
    have hinside := hstop.inside
    refine ⟨hstop.le, hfuel, fun i hlo hhi => ?_, ?_⟩
    · rw [if_neg (by omega), tagAt_eq_true]
      exact hstop.written _ (by omega) (by omega)
    · rw [if_neg (by omega), tagAt_eq_false]
      exact ⟨by omega, hstop.below⟩

/-- The loop down to the start of the block. -/
theorem scanStart_eq_ok (run : IsRun s.WrittenAt B E.toNat L) :
    Prog.scan (fun s lo => hasWrite s (lo - 1)) (fun lo => lo - 1) fuel E s = .ok y s' ↔
      s' = s ∧ y.toNat = B ∧ 0 < B ∧ E.toNat - B < fuel := by
  have hEL := run.le_hi
  have hBE := run.lo_le
  have hlt := (run.all _ hBE hEL).lt
  rw [scanWrittenDown_eq_ok]
  refine and_congr_right fun _ => ?_
  constructor
  · rintro ⟨hfuel, hstop⟩
    -- The point where the loop stops bounds the same run.
    have run' : IsRun s.WrittenAt y.toNat E.toNat L := by
      refine ⟨hstop.le, hEL, fun i hlo hhi => ?_, fun _ => hstop.below, run.above⟩
      -- Below the entry point the loop has passed the bytes, above it they are in the run.
      rcases Nat.lt_or_ge i E.toNat with hi | hi
      · exact hstop.written i hlo hi
      · exact run.all i (by omega) hhi
    obtain ⟨hB, -⟩ := run.unique run'
    exact ⟨hB.symm, hB ▸ hstop.pos, by omega⟩
  · rintro ⟨rfl, hpos, hfuel⟩
    exact ⟨hfuel, hBE, fun i hlo hhi => run.all i hlo (by omega), hpos, by omega, run.below hpos⟩

/-- The loop up to the first byte that is not zero. -/
theorem scanFirst_eq_ok :
    Prog.scan isZero (fun lo => lo + 1) fuel x s = .ok y s' ↔
      s' = s ∧ x.toNat ≤ y.toNat ∧ y.toNat - x.toNat < fuel ∧
        (∀ i, x.toNat ≤ i → i < y.toNat → ¬s.NonzeroAt i) ∧ s.NonzeroAt y.toNat := by
  have hx := x.isLt
  -- The test is undefined past the end of memory, so the loop cannot wrap.
  rw [Prog.scanUp_eq_ok (f := s.zeroAt) (isZero_eq_zeroAt s)
    ⟨2 ^ 32 - 1, by omega, by omega, by rw [zeroAt_of_le (by decide)]; simp⟩]
  refine and_congr_right fun _ => and_congr_right fun hle => and_congr_right fun _ => ?_
  rw [zeroAt_eq_false]
  constructor
  · -- Every byte passed was tested and found zero.
    rintro ⟨hbefore, hstop⟩
    exact ⟨fun i hlo hhi => (zeroAt_eq_true.mp (hbefore i hlo hhi)).2, hstop⟩
  · rintro ⟨hbefore, hstop⟩
    have hlt := hstop.lt
    exact ⟨fun i hlo hhi => zeroAt_eq_true.mpr ⟨by omega, hbefore i hlo hhi⟩, hstop⟩

/-- The loop up over written bytes, by the index it tests: from the byte above `E`, which is byte
zero for the last address. -/
theorem scanWrittenUp_eq_ok :
    Prog.scan (fun s hi => hasWrite s (hi + 1)) (fun hi => hi + 1) fuel E s = .ok y s' ↔
      s' = s ∧ (y + 1).toNat - (E + 1).toNat < fuel ∧ StopsAbove s (E + 1).toNat (y + 1).toNat := by
  have hE := (E + 1).isLt
  have hindex : Prog.scan (fun s hi => hasWrite s (hi + 1)) (fun hi => hi + 1) fuel E s = .ok y s' ↔
      Prog.scan hasWrite (fun hi => hi + 1) fuel (E + 1) s = .ok (y + 1) s' :=
    Prog.scan_semiconj (g := fun x => x + 1) (fun x => rfl) fun x y h =>
      (BitVec.add_left_inj 1).mp h
  -- The lookup is undefined past the end of memory, so the tested index does not wrap.
  rw [hindex, Prog.scanUp_eq_ok (f := s.tagAt) (hasWrite_eq_tagAt s)
    ⟨2 ^ 32 - 1, by omega, by omega, by rw [tagAt_of_le (by decide)]; simp⟩]
  refine and_congr_right fun _ => ?_
  constructor
  · rintro ⟨hle, hfuel, hbefore, hstop⟩
    obtain ⟨hinside, habove⟩ := tagAt_eq_false.mp hstop
    exact ⟨hfuel, hle, fun i hlo hhi => tagAt_eq_true.mp (hbefore i hlo hhi), hinside, habove⟩
  · rintro ⟨hfuel, hstop⟩
    exact ⟨hstop.le, hfuel, fun i hlo hhi => tagAt_eq_true.mpr (hstop.written i hlo hhi),
      tagAt_eq_false.mpr ⟨hstop.inside, hstop.above⟩⟩

/-- The loop up to the end of the block. -/
theorem scanEnd_eq_ok (run : IsRun s.WrittenAt B E.toNat L) :
    Prog.scan (fun s hi => hasWrite s (hi + 1)) (fun hi => hi + 1) fuel E s = .ok y s' ↔
      s' = s ∧ y.toNat = L ∧ L + 1 < MEMSIZE ∧ L - E.toNat < fuel := by
  have hsize := MEMSIZE_eq
  have hBE := run.lo_le
  have hEL := run.le_hi
  have hlt := (run.all _ hBE hEL).lt
  have hy := y.isLt
  have hone : (1 : U32).toNat = 1 := rfl
  have hE1 : (E + 1).toNat = E.toNat + 1 := by
    rw [BitVec.toNat_add, hone]
    omega
  have hy1 : (y + 1).toNat = (y.toNat + 1) % 2 ^ 32 := BitVec.toNat_add y 1
  rw [scanWrittenUp_eq_ok, hE1]
  refine and_congr_right fun _ => ?_
  constructor
  · rintro ⟨hfuel, hstop⟩
    have hinside := hstop.inside
    -- It stopped above the first index it tested, so the index did not wrap to 0.
    have hle := hstop.le
    have hyv : (y + 1).toNat = y.toNat + 1 := by omega
    rw [hyv] at hstop hfuel
    have run' : IsRun s.WrittenAt B E.toNat y.toNat := by
      refine ⟨hBE, by omega, fun i hlo hhi => ?_, run.below, hstop.above⟩
      rcases Nat.le_total i E.toNat with hi | hi
      · exact run.all i hlo (by omega)
      · rcases Nat.eq_or_lt_of_le hi with heq | hlt'
        · exact run.all i hlo (by omega)
        · exact hstop.written i hlt' (by omega)
    -- Again the run is the only one.
    obtain ⟨-, hL⟩ := run.unique run'
    exact ⟨hL.symm, by omega, by omega⟩
  · rintro ⟨rfl, hL, hfuel⟩
    have hyv : (y + 1).toNat = y.toNat + 1 := by omega
    rw [hyv]
    exact ⟨by omega, by omega, fun i hlo hhi => run.all i (by omega) (by omega), hL, run.above⟩

/-- The loop down to the byte behind the last one that is not zero. -/
theorem scanLast_eq_ok :
    Prog.scan (fun s hi => isZero s (hi - 1)) (fun hi => hi - 1) fuel x s = .ok y s' ↔
      s' = s ∧ y.toNat ≤ x.toNat ∧ x.toNat ≤ MEMSIZE ∧ x.toNat - y.toNat < fuel ∧
        (∀ i, y.toNat ≤ i → i < x.toNat → ¬s.NonzeroAt i) ∧
        0 < y.toNat ∧ s.NonzeroAt (y.toNat - 1) := by
  rw [Prog.scanDown_eq_ok (f := fun i => if i = 0 then none else s.zeroAt (i - 1))
    (fun x => neighbour_below s.zeroAt (zeroAt_of_le (by decide)) x) (by simp)]
  refine and_congr_right fun _ => and_congr_right fun hle => ?_
  constructor
  · rintro ⟨hfuel, hbefore, hstop⟩
    -- At 0 there is no byte below, so the loop did not stop there.
    have hpos : y.toNat ≠ 0 := by
      intro h0
      rw [if_pos h0] at hstop
      cases hstop
    rw [if_neg hpos, zeroAt_eq_false] at hstop
    have hzero : ∀ i, y.toNat ≤ i → i < x.toNat → i < MEMSIZE ∧ ¬s.NonzeroAt i := by
      intro i hlo hhi
      have hgo := hbefore (i + 1) (by omega) (by omega)
      rwa [if_neg (by omega), Nat.add_sub_cancel, zeroAt_eq_true] at hgo
    -- The first test looks at the byte below `x`.
    have hx : x.toNat ≤ MEMSIZE := by
      rcases Nat.eq_or_lt_of_le hle with heq | hlt
      · have := hstop.lt
        omega
      · have := (hzero (x.toNat - 1) (by omega) (by omega)).1
        omega
    exact ⟨hx, hfuel, fun i hlo hhi => (hzero i hlo hhi).2, by omega, hstop⟩
  · rintro ⟨hx, hfuel, hbefore, hpos, hstop⟩
    refine ⟨hfuel, fun i hlo hhi => ?_, by rw [if_neg (by omega), zeroAt_eq_false]; exact hstop⟩
    rw [if_neg (by omega), zeroAt_eq_true]
    exact ⟨by omega, hbefore _ (by omega) (by omega)⟩

/-- The low end before the alignment: the first nonzero byte from the start of the block on. -/
theorem scanLo_eq_ok (run : IsRun s.WrittenAt B E.toNat L) :
    scanLo fuel E s = .ok y s' ↔
      s' = s ∧ 0 < B ∧ B ≤ y.toNat ∧ (∀ i, B ≤ i → i < y.toNat → ¬s.NonzeroAt i) ∧
        s.NonzeroAt y.toNat ∧ E.toNat - B < fuel ∧ y.toNat - B < fuel := by
  unfold scanLo
  rw [Prog.bind_eq_ok]
  constructor
  · rintro ⟨x, s₁, h₁, h₂⟩
    -- The first loop ends at `B`, and the second one starts there.
    obtain ⟨rfl, rfl, hpos, hfuel⟩ := (scanStart_eq_ok run).mp h₁
    obtain ⟨rfl, hle, hfuel', hbefore, hstop⟩ := scanFirst_eq_ok.mp h₂
    exact ⟨rfl, hpos, hle, hbefore, hstop, hfuel, hfuel'⟩
  · rintro ⟨rfl, hpos, hle, hbefore, hstop, hfuel, hfuel'⟩
    have hB : (BitVec.ofNat 32 B).toNat = B := by
      have hE := E.isLt
      have hBE := run.lo_le
      rw [BitVec.toNat_ofNat, Nat.mod_eq_of_lt (by omega)]
    refine ⟨BitVec.ofNat 32 B, s', (scanStart_eq_ok run).mpr ⟨rfl, hB, hpos, hfuel⟩, ?_⟩
    rw [scanFirst_eq_ok, hB]
    exact ⟨rfl, hle, hfuel', hbefore, hstop⟩

/-- The high end: one more than the last nonzero byte *below the end* of the block. -/
theorem scanHi_eq_ok (run : IsRun s.WrittenAt B E.toNat L) :
    scanHi fuel E s = .ok y s' ↔
      s' = s ∧ L + 1 < MEMSIZE ∧ y.toNat ≤ L ∧ (∀ i, y.toNat ≤ i → i < L → ¬s.NonzeroAt i) ∧
        -- The start of the block as a word.
        0 < y.toNat ∧ s.NonzeroAt (y.toNat - 1) ∧ L - E.toNat < fuel ∧ L - y.toNat < fuel := by
  unfold scanHi
  rw [Prog.bind_eq_ok]
  constructor
  · rintro ⟨x, s₁, h₁, h₂⟩
    -- The first loop ends at `L`, which the second one does not test.
    obtain ⟨rfl, rfl, hL, hfuel⟩ := (scanEnd_eq_ok run).mp h₁
    obtain ⟨rfl, hle, -, hfuel', hbefore, hpos, hstop⟩ := scanLast_eq_ok.mp h₂
    exact ⟨rfl, hL, hle, hbefore, hpos, hstop, hfuel, hfuel'⟩
  · rintro ⟨rfl, hL, hle, hbefore, hpos, hstop, hfuel, hfuel'⟩
    have hLn : (BitVec.ofNat 32 L).toNat = L := by
      have hsize := MEMSIZE_eq
      rw [BitVec.toNat_ofNat, Nat.mod_eq_of_lt (by omega)]
    refine ⟨BitVec.ofNat 32 L, s', (scanEnd_eq_ok run).mpr ⟨rfl, hLn, hL, hfuel⟩, ?_⟩
    rw [scanLast_eq_ok, hLn]
    exact ⟨rfl, hle, by omega, hfuel', hbefore, hpos, hstop⟩

end Loops

/-! ### The alignment -/

/-- **The alignment** rounds down to a multiple of a power of two. -/
theorem alignLo_toNat {align lo : U32} {k : Nat} (hk : align.toNat = 2 ^ k)
    (hlt : lo.toNat + 2 ^ k < 2 ^ 32) :
    (alignLo align lo).toNat = lo.toNat / 2 ^ k * 2 ^ k := by
  have hdiv := Nat.div_add_mod lo.toNat (2 ^ k)
  have hcomm := Nat.mul_comm (2 ^ k) (lo.toNat / 2 ^ k)
  have hlow := and_sub_one_toNat hk lo
  unfold alignLo
  by_cases hzero : lo &&& (align - 1) = 0
  · -- Already a multiple.
    rw [if_neg (not_not.mpr hzero)]
    have hmod : lo.toNat % 2 ^ k = 0 := by
      rw [← hlow, hzero]
      rfl
    omega
  · -- Rounded up by adding the unit and clearing the remainder, then one unit down.
    rw [if_pos hzero]
    have hsum : (lo + align).toNat = lo.toNat + 2 ^ k := by
      rw [BitVec.toNat_add, hk, Nat.mod_eq_of_lt hlt]
    have hup : ((lo + align) &&& -align).toNat = lo.toNat / 2 ^ k * 2 ^ k + 2 ^ k := by
      rw [and_neg_toNat hk, hsum, Nat.add_mod_right]
      omega
    have hle : align ≤ (lo + align) &&& -align := by
      rw [BitVec.le_def, hup, hk]
      omega
    rw [BitVec.toNat_sub_of_le hle, hup, hk, Nat.add_sub_cancel]

/-! ### The range -/

section Range

variable {opts : Options} {fuel : Nat} {lo hi : U32}

/-- Without `-l` and `-i`, the range is what the loops return. -/
theorem findRange_eq_ok (hlo : opts.lo = 0) (hhi : opts.hi = 0) :
    findRange opts fuel s = .ok (lo, hi) s' ↔
      s' = s ∧ ∃ z, scanLo fuel s.bouncePc s = .ok z s ∧ lo = alignLo opts.align z ∧
        scanHi fuel s.bouncePc s = .ok hi s := by
  unfold findRange findLo findHi
  rw [Prog.get_bind, if_pos hlo, Prog.bind_eq_ok, if_pos hhi]
  constructor
  · rintro ⟨x, s₁, h₁, h₂⟩
    obtain ⟨z, s₂, hz, hx⟩ := Prog.bind_eq_ok.mp h₁
    -- The loops for the low end leave the state alone, and so do those for the high end.
    obtain rfl := Prog.scan_scan_state hz
    obtain ⟨rfl, rfl⟩ := Prog.pure_eq_ok.mp hx
    obtain ⟨y, s₃, hy, hend⟩ := Prog.bind_eq_ok.mp h₂
    obtain rfl := Prog.scan_scan_state hy
    cases hend
    exact ⟨rfl, z, hz, rfl, hy⟩
  · rintro ⟨rfl, z, hz, rfl, hy⟩
    refine ⟨alignLo opts.align z, s', Prog.bind_eq_ok.mpr ⟨z, s', hz, rfl⟩, ?_⟩
    exact Prog.bind_eq_ok.mpr ⟨hi, s', hy, rfl⟩

/-- The byte at `a` is among those `main` dumps. -/
def Dumped (s : Machine) (lo hi : U32) (a : Nat) : Prop :=
  lo.toNat ≤ a ∧ a < hi.toNat ∧ ∃ data, dumpSection lo (hi - lo) s = .ok data s ∧
    ∃ h : a < MEMSIZE, data[a - lo.toNat]? = some (s.memory ⟨a, h⟩)

/-- A copy inside memory delivers its bytes. -/
theorem dumpSection_of_le (s : Machine) (hle : lo.toNat ≤ hi.toNat) (hhi : hi.toNat ≤ MEMSIZE) :
    ∃ data, dumpSection lo (hi - lo) s = .ok data s ∧ data.length = hi.toNat - lo.toNat ∧
      ∀ a (h : a < MEMSIZE), lo.toNat ≤ a → a < hi.toNat →
        data[a - lo.toNat]? = some (s.memory ⟨a, h⟩) := by
  have hsize : (hi - lo).toNat = hi.toNat - lo.toNat :=
    BitVec.toNat_sub_of_le (BitVec.le_def.mpr hle)
  unfold dumpSection
  rw [Prog.get_bind]
  by_cases hzero : hi - lo = 0
  · have hempty : hi.toNat - lo.toNat = 0 := by rw [← hsize, hzero]; rfl
    rw [if_pos hzero]
    -- The length is that of the range, so the index is in the list.
    refine ⟨[], rfl, hempty.symm, fun a h hlo hhi => by omega⟩
  · rw [if_neg hzero, if_pos (by omega)]
    refine ⟨_, rfl, by simp [hsize], fun a h hlo hhi => ?_⟩
    have hk : a - lo.toNat < (hi - lo).toNat := by omega
    have ha : lo.toNat + (a - lo.toNat) = a := by omega
    simp only [List.getElem?_map, List.getElem?_range hk, Option.map_some, ha, dif_pos h]

/-- Of a range in memory every byte is dumped. -/
theorem dumped_iff (s : Machine) {a : Nat} (hhi : hi.toNat ≤ MEMSIZE) :
    Dumped s lo hi a ↔ lo.toNat ≤ a ∧ a < hi.toNat := by
  constructor
  · rintro ⟨h₁, h₂, -⟩
    exact ⟨h₁, h₂⟩
  · rintro ⟨h₁, h₂⟩
    obtain ⟨data, hdata, -, hget⟩ := dumpSection_of_le s
      (Nat.le_of_lt (Nat.lt_of_le_of_lt h₁ h₂)) hhi
    exact ⟨h₁, h₂, data, hdata, by omega, hget a (by omega) h₁ h₂⟩

variable {B L k : Nat}

/-- The range of a block, in terms of its first and last nonzero bytes. -/
theorem findRange_of_run (hlo : opts.lo = 0) (hhi : opts.hi = 0) (halign : opts.align.toNat = 2 ^ k)
    (run : IsRun s.WrittenAt B s.bouncePc.toNat L) :
    (∃ fuel, findRange opts fuel s = .ok (lo, hi) s) ↔
      0 < B ∧ L + 1 < MEMSIZE ∧
      (∃ z, B ≤ z ∧ (∀ i, B ≤ i → i < z → ¬s.NonzeroAt i) ∧ s.NonzeroAt z ∧
        lo.toNat = z / 2 ^ k * 2 ^ k) ∧
      hi.toNat ≤ L ∧ (∀ i, hi.toNat ≤ i → i < L → ¬s.NonzeroAt i) ∧
      0 < hi.toNat ∧ s.NonzeroAt (hi.toNat - 1) := by
  have hsize := MEMSIZE_eq
  -- An aligned address does not wrap: memory ends below `2 ^ 25` and the alignment is at most `2 ^
  -- 31`.
  have hpow : 2 ^ k ≤ 2 ^ 31 := by
    have hlt := opts.align.isLt
    rw [halign] at hlt
    exact Nat.pow_le_pow_right (by decide)
      (Nat.le_of_lt_succ ((Nat.pow_lt_pow_iff_right (by decide)).mp hlt))
  have hround : ∀ z : U32, z.toNat < MEMSIZE →
      (alignLo opts.align z).toNat = z.toNat / 2 ^ k * 2 ^ k :=
    fun z hz => alignLo_toNat halign (by omega)
  constructor
  · -- Read off the four loops.
    rintro ⟨fuel, h⟩
    obtain ⟨-, z, hz, rfl, hscan⟩ := (findRange_eq_ok hlo hhi).mp h
    obtain ⟨-, hB, hle, hbefore, hstop, -⟩ := (scanLo_eq_ok run).mp hz
    obtain ⟨-, hL, hhiL, hafter, hpos, hlast, -⟩ := (scanHi_eq_ok run).mp hscan
    exact ⟨hB, hL, ⟨z.toNat, hle, hbefore, hstop, hround z hstop.lt⟩, hhiL, hafter, hpos, hlast⟩
  · rintro ⟨hB, hL, ⟨z, hle, hbefore, hstop, hval⟩, hhiL, hafter, hpos, hlast⟩
    have hlt := hstop.lt
    have hz : (BitVec.ofNat 32 z).toNat = z := by
      rw [BitVec.toNat_ofNat, Nat.mod_eq_of_lt (by omega)]
    have hE := run.lo_le
    have hE' := run.le_hi
    -- No loop takes more turns than memory has bytes.
    refine ⟨MEMSIZE, (findRange_eq_ok hlo hhi).mpr ⟨rfl, BitVec.ofNat 32 z, ?_, ?_, ?_⟩⟩
    · rw [scanLo_eq_ok run, hz]
      exact ⟨rfl, hB, hle, hbefore, hstop, by omega, by omega⟩
    · apply BitVec.eq_of_toNat_eq
      rw [hround _ (by omega), hz, hval]
    · rw [scanHi_eq_ok run]
      exact ⟨rfl, hL, hhiL, hafter, hpos, hlast, by omega, by omega⟩

/-- The range for given first and last nonzero bytes. -/
theorem exists_findRange (hlo : opts.lo = 0) (hhi : opts.hi = 0) (halign : opts.align.toNat = 2 ^ k)
    (run : IsRun s.WrittenAt B s.bouncePc.toNat L) (hB : 0 < B) (hL : L + 1 < MEMSIZE) {z y : Nat}
    (hBz : B ≤ z) (hbefore : ∀ i, B ≤ i → i < z → ¬s.NonzeroAt i) (hz : s.NonzeroAt z)
    (hpos : 0 < y) (hyL : y ≤ L) (hafter : ∀ i, y ≤ i → i < L → ¬s.NonzeroAt i)
    (hy : s.NonzeroAt (y - 1)) :
    ∃ fuel lo hi, findRange opts fuel s = .ok (lo, hi) s ∧ lo.toNat = z / 2 ^ k * 2 ^ k ∧
      hi.toNat = y := by
  have hsize := MEMSIZE_eq
  have hzlt := hz.lt
  -- Rounding down cannot leave memory.
  have hdown : z / 2 ^ k * 2 ^ k ≤ z := Nat.div_mul_le_self z _
  have hlon : (BitVec.ofNat 32 (z / 2 ^ k * 2 ^ k)).toNat = z / 2 ^ k * 2 ^ k := by
    rw [BitVec.toNat_ofNat, Nat.mod_eq_of_lt (by omega)]
  have hhin : (BitVec.ofNat 32 y).toNat = y := by
    rw [BitVec.toNat_ofNat, Nat.mod_eq_of_lt (by omega)]
  obtain ⟨fuel, hrange⟩ : ∃ fuel, findRange opts fuel s =
      .ok (BitVec.ofNat 32 (z / 2 ^ k * 2 ^ k), BitVec.ofNat 32 y) s :=
    (findRange_of_run hlo hhi halign run).mpr
    ⟨hB, hL, ⟨z, hBz, hbefore, hz, hlon⟩, by rw [hhin]; exact hyL, by rw [hhin]; exact hafter,
      by rw [hhin]; exact hpos, by rw [hhin]; exact hy⟩
  exact ⟨fuel, _, _, hrange, hlon, hhin⟩

/-- The end of the range is in the block. -/
theorem hi_le_of_findRange (hlo : opts.lo = 0) (hhi : opts.hi = 0)
    (run : IsRun s.WrittenAt B s.bouncePc.toNat L)
    (h : findRange opts fuel s = .ok (lo, hi) s) : hi.toNat ≤ L ∧ L < MEMSIZE := by
  obtain ⟨-, z, -, -, hscan⟩ := (findRange_eq_ok hlo hhi).mp h
  -- `L` itself has a byte above it that was tested.
  obtain ⟨-, hL, hle, -⟩ := (scanHi_eq_ok run).mp hscan
  exact ⟨hle, by omega⟩

/-- An aligned address is not above an address `e` exactly if the address itself is below the next
multiple after `e`. -/
theorem alignDown_le_iff {z e : Nat} :
    z / 2 ^ k * 2 ^ k ≤ e ↔ z < e / 2 ^ k * 2 ^ k + 2 ^ k := by
  have hpos : 0 < 2 ^ k := Nat.two_pow_pos k
  rw [← Nat.le_div_iff_mul_le hpos, ← Nat.lt_succ_iff, Nat.div_lt_iff_lt_mul hpos, Nat.succ_mul]

/-! ### The block -/

/-- Every nonzero byte of `[B, L]` is among the bytes dumped with the automatic range. -/
def BlockDumped (opts : Options) (s : Machine) (B L : Nat) : Prop :=
  ∃ fuel lo hi, findRange opts fuel s = .ok (lo, hi) s ∧
    ∀ a, B ≤ a → a ≤ L → s.NonzeroAt a → Dumped s lo hi a

/-- **No unpacked byte is lost** exactly if the last byte of the block is zero: for every memory and
tags, without `-l` and `-i`, for every alignment that is a power of two, and the block `[B, L]` of
written bytes around the entry point, inside memory and not all zero. -/
theorem block_dumped_iff (hlo : opts.lo = 0) (hhi : opts.hi = 0) (halign : opts.align.toNat = 2 ^ k)
    (run : IsRun s.WrittenAt B s.bouncePc.toNat L) (hB : 0 < B) (hL : L + 1 < MEMSIZE)
    (hne : ∃ a, B ≤ a ∧ a ≤ L ∧ s.NonzeroAt a) :
    BlockDumped opts s B L ↔ ¬s.NonzeroAt L := by
  have hBL := Nat.le_trans run.lo_le run.le_hi
  constructor
  · -- The high end is at most `L` and exclusive.
    rintro ⟨fuel, lo, hi, hrange, hall⟩ hlast
    obtain ⟨hle, -⟩ := hi_le_of_findRange hlo hhi run hrange
    obtain ⟨-, hlt, -⟩ := hall L hBL (Nat.le_refl L) hlast
    omega
  · -- The range runs from the first to the last nonzero byte of the block.
    intro hlast
    obtain ⟨a, hBa, haL, ha⟩ := hne
    have haL' : a < L := Nat.lt_of_le_of_ne haL (fun h => hlast (h ▸ ha))
    obtain ⟨z, hBz, hza, hbefore, hz⟩ := exists_first hBa ha
    obtain ⟨y, hay, hyL, hafter, hy⟩ := exists_last haL' ha
    have hdown : z / 2 ^ k * 2 ^ k ≤ z := Nat.div_mul_le_self z _
    obtain ⟨fuel, lo, hi, hrange, hlon, hhin⟩ :=
      exists_findRange hlo hhi halign run hB hL hBz hbefore
      hz (by omega) hyL hafter hy
    refine ⟨fuel, lo, hi, hrange, fun b hBb hbL hb => ?_⟩
    rw [dumped_iff s (by omega), hlon, hhin]
    -- A nonzero byte is neither before the first nor behind the last.
    have hzb : z ≤ b := by
      by_contra hlt
      exact hbefore b hBb (by omega) hb
    have hby : b < y := by
      by_contra hge
      have hbne : b ≠ L := fun h => hlast (h ▸ hb)
      exact hafter b (by omega) (by omega) hb
    omega

/-- A machine whose written bytes are those from `B` to `L`, with the entry point `E`. -/
def Machine.unpacked (memory : Fin MEMSIZE → U8) (B L : Nat) (E : U32) : Machine :=
  { Machine.start memory 0 false with
    tags := fun m => if B ≤ m.val ∧ m.val ≤ L then 2 else 0
    bouncePc := E }

/-- **An unpacked block** is a run. -/
theorem unpacked_run {memory : Fin MEMSIZE → U8} {E : U32} (hBE : B ≤ E.toNat) (hEL : E.toNat ≤ L)
    (hL : L < MEMSIZE) : IsRun (Machine.unpacked memory B L E).WrittenAt B E.toNat L := by
  have hwritten : ∀ i, (Machine.unpacked memory B L E).WrittenAt i ↔
      i < MEMSIZE ∧ B ≤ i ∧ i ≤ L := by
    intro i
    unfold Machine.WrittenAt Machine.Written Machine.unpacked
    rw [← exists_prop]
    refine exists_congr fun h => ?_
    change (if B ≤ i ∧ i ≤ L then (2 : U8) else 0) &&& 2 ≠ 0 ↔ _
    by_cases hi : B ≤ i ∧ i ≤ L
    · simp [hi]
    · simp [hi]
  refine ⟨hBE, hEL, fun i hlo hhi => (hwritten i).mpr ⟨by omega, hlo, hhi⟩, fun hpos h => ?_,
    fun h => ?_⟩
  · obtain ⟨-, hlo, -⟩ := (hwritten _).mp h
    omega
  · obtain ⟨-, -, hhi⟩ := (hwritten _).mp h
    omega

/-- The block `[0x200, 0x203]` with the bytes 1, 2, 3, 0. -/
theorem block_dumped_iff_zero_end :
    BlockDumped {} (Machine.unpacked (program 0x200 [0x00030201]) 0x200 0x203 0x200) 0x200
      0x203 := by
  -- The byte the loop skips is zero here.
  have hlast : program 0x200 [0x00030201] ⟨0x203, by decide⟩ = 0 := by decide
  refine (block_dumped_iff (k := 4) rfl rfl rfl (unpacked_run ?_ ?_ ?_) ?_ ?_ ?_).mpr
    (fun h => h.2 hlast)
  · decide
  · decide
  · decide
  · decide
  · decide
  · exact ⟨0x200, by decide, by decide, by decide, by decide⟩

/-- Without the condition: of the block `[0x200, 0x203]` with the bytes 1, 2, 3, 4 the last is lost.
-/
theorem not_block_dumped :
    ¬∀ (opts : Options) (s : Machine) (k B L : Nat), opts.lo = 0 → opts.hi = 0 →
      opts.align.toNat = 2 ^ k → IsRun s.WrittenAt B s.bouncePc.toNat L → 0 < B → L + 1 < MEMSIZE →
      (∃ a, B ≤ a ∧ a ≤ L ∧ s.NonzeroAt a) → BlockDumped opts s B L := by
  intro hall
  have run := @unpacked_run 0x200 0x203 (program 0x200 [0x04030201]) 0x200 (by decide) (by decide)
    (by decide)
  obtain ⟨fuel, lo, hi, hrange, hdump⟩ := hall {}
    (Machine.unpacked (program 0x200 [0x04030201]) 0x200 0x203 0x200) 4 0x200 0x203 rfl rfl rfl run
    (by decide) (by decide) ⟨0x200, by decide, by decide, by decide, by decide⟩
  -- If the last byte were dumped, the end would be behind it.
  obtain ⟨-, hlt, -⟩ := hdump 0x203 (by decide) (by decide) ⟨by decide, by decide⟩
  obtain ⟨hle, -⟩ := hi_le_of_findRange rfl rfl run hrange
  omega

/-! ### The entry point -/

/-- The entry point is among the bytes dumped with the automatic range. -/
def EntryDumped (opts : Options) (s : Machine) : Prop :=
  ∃ fuel lo hi, findRange opts fuel s = .ok (lo, hi) s ∧ Dumped s lo hi s.bouncePc.toNat

/-- **The dump contains the entry point** exactly if the block of written bytes around it lies
inside memory, some byte from the entry point to before the end of the block is not zero, and some
byte from the start of the block to the end of the aligned unit of the entry point is not zero. -/
theorem entry_dumped_iff (hlo : opts.lo = 0) (hhi : opts.hi = 0) (halign : opts.align.toNat = 2 ^ k)
    (hE : s.WrittenAt s.bouncePc.toNat) :
    EntryDumped opts s ↔ ∃ B L, IsRun s.WrittenAt B s.bouncePc.toNat L ∧ 0 < B ∧ L + 1 < MEMSIZE ∧
      (∃ a, s.bouncePc.toNat ≤ a ∧ a < L ∧ s.NonzeroAt a) ∧
      (∃ a, B ≤ a ∧ a < s.bouncePc.toNat / 2 ^ k * 2 ^ k + 2 ^ k ∧ s.NonzeroAt a) := by
  have hsize := MEMSIZE_eq
  constructor
  · -- Above the last byte of memory nothing is written, so there is a block.
    rintro ⟨fuel, lo, hi, hrange, hdump⟩
    obtain ⟨B, L, run⟩ := exists_isRun hE fun i (hi : MEMSIZE ≤ i) h => absurd h.lt (by omega)
    obtain ⟨hB, hL, ⟨z, hBz, -, hz, hval⟩, hhiL, -, hpos, hlast⟩ :=
      (findRange_of_run hlo hhi halign run).mp ⟨fuel, hrange⟩
    obtain ⟨hle, hlt, -⟩ := hdump
    rw [hval, alignDown_le_iff] at hle
    exact ⟨B, L, run, hB, hL, ⟨hi.toNat - 1, by omega, by omega, hlast⟩, z, hBz, hle, hz⟩
  · -- The two nonzero bytes keep the trimming loops from passing the entry point.
    rintro ⟨B, L, run, hB, hL, ⟨a, hEa, haL, ha⟩, b, hBb, hbE, hb⟩
    obtain ⟨z, hBz, hzb, hbefore, hz⟩ := exists_first hBb hb
    obtain ⟨y, hay, hyL, hafter, hy⟩ := exists_last haL ha
    obtain ⟨fuel, lo, hi, hrange, hlon, hhin⟩ :=
      exists_findRange hlo hhi halign run hB hL hBz hbefore
      hz (by omega) hyL hafter hy
    refine ⟨fuel, lo, hi, hrange, ?_⟩
    rw [dumped_iff s (by omega), hlon, hhin, alignDown_le_iff]
    omega

/-- The block `[0x200, 0x203]` with the bytes 1, 2, 3, 4 and its start as entry point. -/
theorem entry_dumped_iff_start :
    EntryDumped {} (Machine.unpacked (program 0x200 [0x04030201]) 0x200 0x203 0x200) := by
  have run := @unpacked_run 0x200 0x203 (program 0x200 [0x04030201]) 0x200 (by decide) (by decide)
    (by decide)
  refine (entry_dumped_iff (k := 4) rfl rfl rfl ⟨by decide, by decide⟩).mpr
    ⟨0x200, 0x203, run, by decide, by decide, ?_, ?_⟩
  · exact ⟨0x200, by decide, by decide, by decide, by decide⟩
  · exact ⟨0x200, by decide, by decide, by decide, by decide⟩

/-- Without the condition: the block `[0x200, 0x2ff]` starts with zero bytes, its first nonzero byte
is at `0x280`, and the range starts there, behind the entry point `0x200`. -/
theorem not_entry_dumped :
    ¬∀ (opts : Options) (s : Machine) (k : Nat), opts.lo = 0 → opts.hi = 0 →
      opts.align.toNat = 2 ^ k → s.WrittenAt s.bouncePc.toNat → EntryDumped opts s := by
  intro hall
  have run := @unpacked_run 0x200 0x2ff (program 0x280 [0x03e00008]) 0x200 (by decide) (by decide)
    (by decide)
  obtain ⟨fuel, lo, hi, hrange, hle, -, -⟩ := hall {}
    (Machine.unpacked (program 0x280 [0x03e00008]) 0x200 0x2ff 0x200) 4 rfl rfl rfl
    (run.all _ run.lo_le run.le_hi)
  obtain ⟨-, -, ⟨z, hBz, -, ⟨hz, hne⟩, hval⟩, -⟩ :=
    (findRange_of_run (k := 4) rfl rfl rfl run).mp ⟨fuel, hrange⟩
  -- The range contains the entry point only if it starts before `0x280`.
  have hsmall : z < 0x280 := by
    rw [hval, alignDown_le_iff] at hle
    exact Nat.lt_of_lt_of_le hle (by decide)
  -- Memory is zero below `0x280`.
  refine hne ?_
  change (if 0x280 ≤ z ∧ z < 0x280 + 4 * 1 then _ else (0 : U8)) = 0
  rw [if_neg (by omega)]

end Range

end Ps2Unpacker
