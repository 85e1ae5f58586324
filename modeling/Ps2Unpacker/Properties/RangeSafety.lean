import Ps2Unpacker.Properties.Range

/-!
# The range search and the bounds of memory

Nothing but the data stops the four loops of the range search: they go on until `has_write` or
`is_zero` is false, and both are array lookups. This file says for which memory contents, tags,
entry points and options they stop inside the arrays, with a range that can be dumped.

* `scanLo_of_ok`, `scanLo_of_stops`: the loops for the low end, for any entry point.
* `scanHi_of_ok`, `scanHi_of_stops`: the loops for the high end.
* `range_in_memory_iff`: exactly when the search stays in memory and its range is in order.
* `not_range_in_memory`: without the condition this fails.
-/

namespace Ps2Unpacker

open CProg

/-- The range search ends, each lookup it makes is inside its array, and the range it finds is in
order and inside memory. A lookup outside the array is undefined, so it would not return. -/
def RangeInMemory (opts : Options) (s : Machine) : Prop :=
  ∃ fuel lo hi, findRange opts fuel s = .ok (lo, hi) s ∧ lo.toNat ≤ hi.toNat ∧ hi.toNat ≤ MEMSIZE

/-- `z` is the first byte from `B` on that is not zero. -/
structure FirstNonzero (s : Machine) (B z : Nat) : Prop where
  le : B ≤ z
  zero : ∀ i, B ≤ i → i < z → ¬s.NonzeroAt i
  nonzero : s.NonzeroAt z

/-- `y - 1` is the last byte below `x` that is not zero. -/
structure LastNonzero (s : Machine) (x y : Nat) : Prop where
  pos : 0 < y
  le : y ≤ x
  zero : ∀ i, y ≤ i → i < x → ¬s.NonzeroAt i
  nonzero : s.NonzeroAt (y - 1)

variable {s s' : Machine} {fuel : Nat} {E lo hi : U32}

/-! ### The low end -/

/-- What the search for the low end returns. -/
theorem scanLo_of_ok (h : scanLo fuel E s = .ok lo s') :
    s' = s ∧ ∃ B, StopsBelow s E.toNat B ∧ FirstNonzero s B lo.toNat := by
  -- The two loops, one after the other.
  obtain ⟨x, s₁, h₁, h₂⟩ := Prog.bind_eq_ok.mp h
  obtain ⟨rfl, -, hstop⟩ := scanWrittenDown_eq_ok.mp h₁
  obtain ⟨rfl, hle, -, hzero, hne⟩ := scanFirst_eq_ok.mp h₂
  exact ⟨rfl, x.toNat, hstop, hle, hzero, hne⟩

/-- No loop takes more turns than there are words. -/
theorem scanLo_of_stops {B : Nat} (hstop : StopsBelow s E.toNat B)
    (hfirst : FirstNonzero s B lo.toNat) :
    scanLo (2 ^ 32) E s = .ok lo s := by
  have hE := E.isLt
  have hlo := lo.isLt
  have hBE := hstop.le
  -- `B` is at most the entry point, so it is the value of a word.
  have hB : (BitVec.ofNat 32 B).toNat = B := by
    rw [BitVec.toNat_ofNat, Nat.mod_eq_of_lt (by omega)]
  unfold scanLo
  refine Prog.bind_eq_ok.mpr ⟨BitVec.ofNat 32 B, s, scanWrittenDown_eq_ok.mpr ?_,
    scanFirst_eq_ok.mpr ?_⟩
  · rw [hB]
    exact ⟨rfl, by omega, hstop⟩
  · rw [hB]
    exact ⟨rfl, hfirst.le, by omega, hfirst.zero, hfirst.nonzero⟩

/-! ### The high end -/

/-- What the search for the high end returns. -/
theorem scanHi_of_ok (h : scanHi fuel E s = .ok hi s') :
    s' = s ∧ ∃ u, StopsAbove s (E + 1).toNat u ∧ LastNonzero s (u - 1) hi.toNat := by
  obtain ⟨x, s₁, h₁, h₂⟩ := Prog.bind_eq_ok.mp h
  obtain ⟨rfl, -, hstop⟩ := scanWrittenUp_eq_ok.mp h₁
  obtain ⟨rfl, hle, hx, -, hzero, hpos, hne⟩ := scanLast_eq_ok.mp h₂
  -- `x` is below the end of memory, so its successor does not wrap.
  have hval : (x + 1).toNat - 1 = x.toNat := by
    have hsize := MEMSIZE_eq
    have hone : (1 : U32).toNat = 1 := rfl
    rw [BitVec.toNat_add, hone]
    omega
  refine ⟨rfl, (x + 1).toNat, hstop, ?_⟩
  rw [hval]
  exact ⟨hpos, hle, hzero, hne⟩

/-- It returns there, on fuel that does for every memory. -/
theorem scanHi_of_stops {u : Nat} (hstop : StopsAbove s (E + 1).toNat u)
    (hlast : LastNonzero s (u - 1) hi.toNat) : scanHi (2 ^ 32) E s = .ok hi s := by
  have hsize := MEMSIZE_eq
  have hu := hstop.inside
  have hpos := hlast.pos
  have hle := hlast.le
  -- `u` is in memory and positive, so neither `u` nor `u - 1` wraps.
  have hx : (BitVec.ofNat 32 (u - 1)).toNat = u - 1 := by
    rw [BitVec.toNat_ofNat, Nat.mod_eq_of_lt (by omega)]
  have hx1 : (BitVec.ofNat 32 (u - 1) + 1).toNat = u := by
    have hone : (1 : U32).toNat = 1 := rfl
    rw [BitVec.toNat_add, hx, hone]
    omega
  unfold scanHi
  refine Prog.bind_eq_ok.mpr ⟨BitVec.ofNat 32 (u - 1), s, scanWrittenUp_eq_ok.mpr ?_,
    scanLast_eq_ok.mpr ?_⟩
  · rw [hx1]
    exact ⟨rfl, by omega, hstop⟩
  · rw [hx]
    exact ⟨rfl, hle, by omega, by omega, hlast.zero, hpos, hlast.nonzero⟩

/-! ### The range -/

section Range

variable {opts : Options}

/-- The low end: that of `-l`, or the aligned address of the first byte that is not zero, from the
start of the written bytes below the entry point on. -/
def LowBase (opts : Options) (s : Machine) (lo : U32) : Prop :=
  if opts.lo = 0 then
    ∃ B z, StopsBelow s s.bouncePc.toNat B ∧ FirstNonzero s B z.toNat ∧ lo = alignLo opts.align z
  else lo = opts.lo

/-- The high end for the low end `lo`: that of `-i`, in order and inside memory, or a byte that is
not zero, not below `lo - 1`, and before the last of the written bytes above the entry point. -/
def HighBase (opts : Options) (s : Machine) (lo : U32) : Prop :=
  if opts.hi = 0 then
    ∃ u a, StopsAbove s (s.bouncePc + 1).toNat u ∧ a + 1 < u ∧ s.NonzeroAt a ∧ lo.toNat ≤ a + 1
  else lo.toNat ≤ opts.hi.toNat ∧ opts.hi.toNat ≤ MEMSIZE

/-- The low end is the option, or the rounded first nonzero byte. -/
theorem lowBase_of_findLo (h : findLo opts fuel s.bouncePc s = .ok lo s') :
    s' = s ∧ LowBase opts s lo := by
  unfold findLo at h
  unfold LowBase
  split at h
  · -- Without `-l` the loops run, and the result is aligned.
    rename_i hlo
    obtain ⟨z, s₁, hz, hend⟩ := Prog.bind_eq_ok.mp h
    obtain ⟨rfl, B, hstop, hfirst⟩ := scanLo_of_ok hz
    obtain ⟨rfl, rfl⟩ := Prog.pure_eq_ok.mp hend
    rw [if_pos hlo]
    exact ⟨rfl, B, z, hstop, hfirst, rfl⟩
  · -- With it, the option is the end.
    rename_i hlo
    obtain ⟨rfl, rfl⟩ := Prog.pure_eq_ok.mp h
    rw [if_neg hlo]
    exact ⟨rfl, rfl⟩

/-- And the other way round. -/
theorem findLo_of_lowBase (h : LowBase opts s lo) :
    findLo opts (2 ^ 32) s.bouncePc s = .ok lo s := by
  unfold LowBase at h
  unfold findLo
  split at h
  · rename_i hlo
    obtain ⟨B, z, hstop, hfirst, rfl⟩ := h
    rw [if_pos hlo, Prog.bind_ok_of (scanLo_of_stops hstop hfirst), Prog.pure_apply]
  · rename_i hlo
    rw [if_neg hlo, h, Prog.pure_apply]

/-- The last nonzero byte is at least as high as any other. -/
theorem highBase_of_findHi (h : findHi opts fuel s.bouncePc s = .ok hi s')
    (hle : lo.toNat ≤ hi.toNat) (hsize : hi.toNat ≤ MEMSIZE) : s' = s ∧ HighBase opts s lo := by
  unfold findHi at h
  unfold HighBase
  split at h
  · rename_i hhi
    obtain ⟨rfl, u, hstop, hlast⟩ := scanHi_of_ok h
    -- The byte below `hi` is the one the search stopped at.
    have hpos := hlast.pos
    have hu := hlast.le
    rw [if_pos hhi]
    exact ⟨rfl, u, hi.toNat - 1, hstop, by omega, hlast.nonzero, by omega⟩
  · rename_i hhi
    obtain ⟨rfl, rfl⟩ := Prog.pure_eq_ok.mp h
    rw [if_neg hhi]
    exact ⟨rfl, hle, hsize⟩

/-- If some byte of the block is nonzero, the search ends in memory. -/
theorem findHi_of_highBase (h : HighBase opts s lo) :
    ∃ hi, findHi opts (2 ^ 32) s.bouncePc s = .ok hi s ∧ lo.toNat ≤ hi.toNat ∧
      hi.toNat ≤ MEMSIZE := by
  unfold HighBase at h
  unfold findHi
  split at h
  · rename_i hhi
    obtain ⟨u, a, hstop, hau, ha, hle⟩ := h
    have hu := hstop.inside
    -- Some byte below the last written one is not zero, so there is a last such byte.
    obtain ⟨y, hay, hyu, hzero, hy⟩ := exists_last (show a < u - 1 by omega) ha
    have hyn : (BitVec.ofNat 32 y).toNat = y := by
      have hsize := MEMSIZE_eq
      rw [BitVec.toNat_ofNat, Nat.mod_eq_of_lt (by omega)]
    have hlast : LastNonzero s (u - 1) (BitVec.ofNat 32 y).toNat := by
      rw [hyn]
      exact ⟨by omega, hyu, hzero, hy⟩
    refine ⟨BitVec.ofNat 32 y, ?_, by omega, by omega⟩
    rw [if_pos hhi, scanHi_of_stops hstop hlast]
  · rename_i hhi
    rw [if_neg hhi]
    exact ⟨opts.hi, rfl, h.1, h.2⟩

/-- A range in order and in memory comes from such ends. -/
theorem bases_of_findRange (h : findRange opts fuel s = .ok (lo, hi) s')
    (hle : lo.toNat ≤ hi.toNat) (hsize : hi.toNat ≤ MEMSIZE) :
    LowBase opts s lo ∧ HighBase opts s lo := by
  unfold findRange at h
  rw [Prog.get_bind] at h
  obtain ⟨x, s₁, hlo, h⟩ := Prog.bind_eq_ok.mp h
  obtain ⟨rfl, hlow⟩ := lowBase_of_findLo hlo
  obtain ⟨y, s₂, hhi, h⟩ := Prog.bind_eq_ok.mp h
  cases h
  exact ⟨hlow, (highBase_of_findHi hhi hle hsize).2⟩

/-- **The range search and the dump stay in memory**, for every memory, tags, entry point and
options, exactly if: a low end is given, or the written bytes below the entry point start inside
memory above an unwritten byte and some byte from their start on is not zero; and a high end is
given that is inside memory and not below the low one, or the written bytes above the entry point
end at an unwritten byte inside memory and some byte before the last of them, not below the low end
minus one, is not zero. -/
theorem range_in_memory_iff (opts : Options) (s : Machine) :
    RangeInMemory opts s ↔ ∃ lo, LowBase opts s lo ∧ HighBase opts s lo := by
  constructor
  · rintro ⟨fuel, lo, hi, h, hle, hsize⟩
    exact ⟨lo, bases_of_findRange h hle hsize⟩
  · rintro ⟨lo, hlow, hhigh⟩
    obtain ⟨hi, hhi, hle, hsize⟩ := findHi_of_highBase hhigh
    refine ⟨2 ^ 32, lo, hi, ?_, hle, hsize⟩
    unfold findRange
    rw [Prog.get_bind, Prog.bind_ok_of (findLo_of_lowBase hlow), Prog.bind_ok_of hhi]
    rfl

/-- Without the condition: the program at `0x300` calls `ExecPS2` for the one at `0x200`, before
anything was stored. All bytes below `0x200` are zero, and the loop for the high end runs past
address zero. -/
theorem not_range_in_memory :
    ¬∀ (opts : Options) (s : Machine), s.bouncePc ≠ 0 → RangeInMemory opts s := by
  intro hall
  let words : List U32 :=
    0x03e00008 :: (List.replicate 63 0 ++ [0x24040200, 0x24030007, 0x0000000c])
  let s : Machine := { Machine.start (program 0x200 words) 0x300 false with bouncePc := 0x200 }
  obtain ⟨fuel, lo, hi, h, hle, hsize⟩ := hall {} s (by decide)
  obtain ⟨-, u, a, hstop, hau, ⟨ha, hne⟩, -⟩ := bases_of_findRange h hle hsize
  -- Nothing is written, so the upward loop stops at once.
  have hclear : ∀ i, ¬s.WrittenAt i := by
    rintro i ⟨h, hw⟩
    change (0 : U8) &&& 2 ≠ 0 at hw
    exact hw (by decide)
  have hu : u = 0x201 := by
    have hle : 0x201 ≤ u := hstop.le
    by_contra hne
    exact hclear 0x201 (hstop.written 0x201 (Nat.le_refl _) (by omega))
  -- What is left below the entry point is zero.
  refine hne ?_
  change (if 0x200 ≤ a ∧ a < 0x200 + 4 * words.length then _ else (0 : U8)) = 0
  rw [if_neg (by omega)]

end Range

end Ps2Unpacker
