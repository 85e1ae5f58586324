import Mathlib.Tactic.Common

/-!
# Fields of a word that are moved apart

A format with narrow fields is extended to one with wider fields by moving each field up, and packed
again by moving it down. A `BitField` is a mask and the distance; `extend` and `pack` move all
fields of a list. They are inverse on what the masks let through, if the fields are `Separated`:
none loses a bit on its way up, and no two of them meet there. This is a statement about the masks
alone.

* `pack_extend`: packing undoes extending, up to the bits outside the masks.
* `extend_pack_extend`: extending undoes packing on the words that were extended.
-/

namespace Lanes

variable {n : Nat}

/-- The bits of a mask, and the distance by which they are moved up. -/
structure BitField (n : Nat) where
  mask : BitVec n
  shift : Nat
  deriving DecidableEq

namespace BitField

/-- `(x & mask) << shift`. -/
def moveUp (f : BitField n) (x : BitVec n) : BitVec n := (x &&& f.mask) <<< f.shift

/-- `(x >> shift) & mask`. -/
def moveDown (f : BitField n) (x : BitVec n) : BitVec n := (x >>> f.shift) &&& f.mask

/-- Fields are moved down bit by bit. -/
theorem moveDown_or (f : BitField n) (x y : BitVec n) :
    f.moveDown (x ||| y) = f.moveDown x ||| f.moveDown y := by
  apply BitVec.eq_of_getLsbD_eq
  intro i hi
  simp only [moveDown, BitVec.getLsbD_and, BitVec.getLsbD_or, BitVec.getLsbD_ushiftRight,
    Bool.and_or_distrib_right]

/-- A field of no set bits moves down to none. -/
theorem moveDown_zero (f : BitField n) : f.moveDown 0 = 0 := by
  apply BitVec.eq_of_getLsbD_eq
  intro i hi
  simp [moveDown]

/-- Of a field that was moved up, another one sees what it sees of its mask. -/
theorem getLsbD_moveDown_moveUp (f g : BitField n) (x : BitVec n) (i : Nat) :
    (f.moveDown (g.moveUp x)).getLsbD i =
      ((f.moveDown (g.moveUp (BitVec.allOnes n))).getLsbD i &&
        x.getLsbD (f.shift + i - g.shift)) := by
  simp only [moveDown, moveUp, BitVec.getLsbD_and, BitVec.getLsbD_ushiftRight,
    BitVec.getLsbD_shiftLeft, BitVec.getLsbD_allOnes]
  by_cases hn : f.shift + i - g.shift < n
  · simp only [hn, decide_true, Bool.true_and]
    cases x.getLsbD (f.shift + i - g.shift) <;> simp
  · have hx : x.getLsbD (f.shift + i - g.shift) = false :=
      BitVec.getLsbD_of_ge x _ (Nat.le_of_not_lt hn)
    simp [hx]

/-- A mask that covers the field takes nothing from it. -/
theorem moveUp_and {f : BitField n} {m : BitVec n} (h : f.mask &&& m = f.mask) (x : BitVec n) :
    f.moveUp (x &&& m) = f.moveUp x := by
  unfold moveUp
  rw [BitVec.and_assoc, BitVec.and_comm m, h]

end BitField

/-- All fields moved up. -/
def extend : List (BitField n) → BitVec n → BitVec n
  | [], _ => 0
  | f :: fs, x => f.moveUp x ||| extend fs x

/-- All fields moved down. -/
def pack : List (BitField n) → BitVec n → BitVec n
  | [], _ => 0
  | f :: fs, x => f.moveDown x ||| pack fs x

/-- The bits of all fields. -/
def masks : List (BitField n) → BitVec n
  | [] => 0
  | f :: fs => f.mask ||| masks fs

/-- Moved up and down, a field keeps its mask, and leaves nothing in the others. -/
def Separated (fs : List (BitField n)) : Prop :=
  ∀ f ∈ fs, ∀ g ∈ fs,
    f.moveDown (g.moveUp (BitVec.allOnes n)) = if f = g then f.mask else 0

instance (fs : List (BitField n)) : Decidable (Separated fs) :=
  inferInstanceAs (Decidable (∀ f ∈ fs, ∀ g ∈ fs, _))

section Lists

variable {fs : List (BitField n)} {x y : BitVec n}

/-- Packing collects the bits of the masks, if each field moves down to its own. -/
theorem pack_congr (h : ∀ f ∈ fs, f.moveDown y = x &&& f.mask) : pack fs y = x &&& masks fs := by
  induction fs with
  | nil => exact BitVec.and_zero.symm
  | cons f fs ih =>
    rw [pack, masks, h f List.mem_cons_self, ih fun g hg => h g (List.mem_cons_of_mem f hg),
      BitVec.and_or_distrib_left]

/-- Extension depends on the bits of the fields alone. -/
theorem extend_congr (h : ∀ f ∈ fs, f.moveUp x = f.moveUp y) : extend fs x = extend fs y := by
  induction fs with
  | nil => rfl
  | cons f fs ih =>
    rw [extend, extend, h f List.mem_cons_self, ih fun g hg => h g (List.mem_cons_of_mem f hg)]

/-- What a field sees of all fields that were moved up, if it sees `y` of itself and nothing of the
others. -/
theorem BitField.moveDown_extend {f : BitField n}
    (h : ∀ g ∈ fs, f.moveDown (g.moveUp x) = if f = g then y else 0) :
    f.moveDown (extend fs x) = if f ∈ fs then y else 0 := by
  induction fs with
  | nil => exact f.moveDown_zero
  | cons g fs ih =>
    rw [extend, BitField.moveDown_or, h g List.mem_cons_self,
      ih fun g' hg' => h g' (List.mem_cons_of_mem g hg')]
    by_cases hfg : f = g
    · -- The field may be listed twice.
      rw [if_pos hfg, if_pos (List.mem_cons.mpr (.inl hfg))]
      split
      · exact BitVec.or_self
      · exact BitVec.or_zero
    · rw [if_neg hfg]
      refine BitVec.zero_or.trans ?_
      simp only [List.mem_cons, hfg, false_or]

/-- A field lies inside all fields. -/
theorem mask_and_masks {f : BitField n} (hf : f ∈ fs) : f.mask &&& masks fs = f.mask := by
  induction fs with
  | nil => cases hf
  | cons g fs ih =>
    apply BitVec.eq_of_getLsbD_eq
    intro i hi
    rw [masks, BitVec.getLsbD_and, BitVec.getLsbD_or]
    -- The field itself, or one further down the list.
    rcases List.mem_cons.mp hf with rfl | hmem
    · cases f.mask.getLsbD i <;> simp
    · have hbit := congrArg (fun z => z.getLsbD i) (ih hmem)
      simp only [BitVec.getLsbD_and] at hbit
      rw [Bool.and_or_distrib_left, hbit]
      cases f.mask.getLsbD i <;> simp

end Lists

section Separated

variable {fs : List (BitField n)}

/-- Of a separated field that was moved up, a field sees its own bits only. -/
theorem Separated.moveDown_moveUp (h : Separated fs) {f g : BitField n} (hf : f ∈ fs) (hg : g ∈ fs)
    (x : BitVec n) : f.moveDown (g.moveUp x) = if f = g then x &&& f.mask else 0 := by
  apply BitVec.eq_of_getLsbD_eq
  intro i hi
  rw [BitField.getLsbD_moveDown_moveUp, h f hf g hg]
  by_cases hfg : f = g
  · -- Up and down again, a bit is where it was.
    subst hfg
    rw [if_pos rfl, if_pos rfl, Nat.add_sub_cancel_left, BitVec.getLsbD_and, Bool.and_comm]
  · rw [if_neg hfg, if_neg hfg]
    simp

/-- **Packing undoes extending** on the bits of the fields. -/
theorem pack_extend (h : Separated fs) (x : BitVec n) :
    pack fs (extend fs x) = x &&& masks fs := by
  refine pack_congr fun f hf => ?_
  rw [BitField.moveDown_extend fun g hg => h.moveDown_moveUp hf hg x, if_pos hf]

/-- Only the bits of the fields are moved. -/
theorem extend_and_masks (fs : List (BitField n)) (x : BitVec n) :
    extend fs (x &&& masks fs) = extend fs x :=
  extend_congr fun _ hf => BitField.moveUp_and (mask_and_masks hf) x

/-- **Extending undoes packing** on the words that were extended. -/
theorem extend_pack_extend (h : Separated fs) (x : BitVec n) :
    extend fs (pack fs (extend fs x)) = extend fs x := by
  rw [pack_extend h, extend_and_masks]

end Separated

end Lanes
