import Mathlib.Data.List.Induction

/-!
# Writes that cover each other

A sequence of block writes into an array: each write covers some of the indices and gives them
values. `overlay` is the array after the writes, in order; the value at an index is that of the last
write that covers it.
-/

namespace CProg

variable {ι α β : Type} (covers : β → ι → Bool) (value : β → ι → α)

/-- The array `f` after the writes `ps`. -/
def overlay (ps : List β) (f : ι → α) : ι → α :=
  ps.foldl (fun f p i => if covers p i then value p i else f i) f

/-- The last write that covers an index. -/
def lastWrite (ps : List β) (i : ι) : Option β := ps.reverse.find? fun p => covers p i

/-- One write more, on top of the others. -/
theorem overlay_concat (ps : List β) (p : β) (f : ι → α) (i : ι) :
    overlay covers value (ps ++ [p]) f i =
      if covers p i then value p i else overlay covers value ps f i := by
  unfold overlay
  rw [List.foldl_append]
  rfl

/-- The last write, one write at a time. -/
theorem lastWrite_concat (ps : List β) (p : β) (i : ι) :
    lastWrite covers (ps ++ [p]) i = if covers p i then some p else lastWrite covers ps i := by
  unfold lastWrite
  rw [List.reverse_append]
  cases h : covers p i with
  | true => simp [h]
  | false => simp [h]

/-- **The last write wins.** -/
theorem overlay_apply (ps : List β) (f : ι → α) (i : ι) :
    overlay covers value ps f i =
      ((lastWrite covers ps i).map fun p => value p i).getD (f i) := by
  -- From the back: the last write decides, or it does not cover the index and the others do.
  induction ps using List.reverseRecOn with
  | nil => rfl
  | append_singleton ps p ih =>
    rw [overlay_concat, ih, lastWrite_concat]
    split <;> rfl

/-- Two descriptions of the same writes agree on the last one. -/
theorem lastWrite_congr {covers' : β → ι → Bool} {ps : List β} {i : ι}
    (h : ∀ p ∈ ps, covers p i = covers' p i) : lastWrite covers ps i = lastWrite covers' ps i := by
  induction ps using List.reverseRecOn with
  | nil => rfl
  | append_singleton ps p ih =>
    rw [lastWrite_concat, lastWrite_concat, h p (by simp), ih fun q hq => h q (by simp [hq])]

/-- The last write is one of the writes, and covers the index. -/
theorem mem_of_lastWrite {ps : List β} {i : ι} {p : β} (h : lastWrite covers ps i = some p) :
    p ∈ ps ∧ covers p i = true := by
  refine ⟨List.mem_reverse.mp (List.mem_of_find?_eq_some h), ?_⟩
  have := List.find?_some h
  exact this

end CProg
