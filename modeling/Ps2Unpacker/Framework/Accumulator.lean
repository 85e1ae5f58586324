import Mathlib.Algebra.BigOperators.Group.List.Basic
import Mathlib.Data.List.Induction

/-!
# An accumulator that can start over

A register that is run through a list of contributions: each one is added to it or, if it resets,
takes its place. What is left at the end is the last reset, or the initial value without one, plus
the contributions that came after it.

* `accumulate_eq`: the closed form.
* `accumulate_map`: an additive map commutes with the run.
-/

namespace CProg

/-- One step of an accumulator. -/
structure Contribution (α : Type) where
  /-- The value takes the place of the accumulator; otherwise it is added. -/
  resets : Bool
  value : α

variable {α β : Type}

/-- The value of the last contribution that resets, or the initial one. -/
def lastReset (init : α) (cs : List (Contribution α)) : α :=
  ((cs.reverse.find? fun c => c.resets).map fun c => c.value).getD init

/-- The values added after that, in order. -/
def sinceReset (cs : List (Contribution α)) : List α :=
  ((cs.reverse.takeWhile fun c => !c.resets).reverse).map fun c => c.value

/-- A contribution at the end that resets is the last reset. -/
theorem lastReset_concat (init : α) (cs : List (Contribution α)) (c : Contribution α) :
    lastReset init (cs ++ [c]) = if c.resets then c.value else lastReset init cs := by
  unfold lastReset
  rw [List.reverse_append]
  cases h : c.resets with
  | true => simp [h]
  | false => simp [h]

/-- A contribution at the end that resets leaves nothing behind it; any other one comes last. -/
theorem sinceReset_concat (cs : List (Contribution α)) (c : Contribution α) :
    sinceReset (cs ++ [c]) = if c.resets then [] else sinceReset cs ++ [c.value] := by
  unfold sinceReset
  rw [List.reverse_append]
  cases h : c.resets with
  | true => simp [h]
  | false => simp [h]

/-- The accumulator after the contributions. -/
def accumulate [Add α] (init : α) (cs : List (Contribution α)) : α :=
  cs.foldl (fun acc c => if c.resets then c.value else acc + c.value) init

/-- The first contribution moves into the initial value. -/
theorem accumulate_cons [Add α] (init : α) (c : Contribution α) (cs : List (Contribution α)) :
    accumulate init (c :: cs) = accumulate (if c.resets then c.value else init + c.value) cs := rfl

/-- **The closed form**: the last reset plus what was added after it. -/
theorem accumulate_eq [AddMonoid α] (init : α) (cs : List (Contribution α)) :
    accumulate init cs = lastReset init cs + (sinceReset cs).sum := by
  -- From the back: the last contribution resets, or the others decide and it is added.
  induction cs using List.reverseRecOn with
  | nil => exact (add_zero init).symm
  | append_singleton cs c ih =>
    have hstep : accumulate init (cs ++ [c]) =
        if c.resets then c.value else accumulate init cs + c.value := by
      unfold accumulate
      rw [List.foldl_append]
      rfl
    rw [hstep, ih, lastReset_concat, sinceReset_concat]
    split
    · rw [List.sum_nil, add_zero]
    · rw [List.sum_append, List.sum_singleton, add_assoc]

/-- The contributions under a map. -/
def Contribution.map (f : α → β) (c : Contribution α) : Contribution β := ⟨c.resets, f c.value⟩

/-- A map that respects addition carries the accumulator over. -/
theorem accumulate_map [Add α] [Add β] {f : α → β} (hf : ∀ a b, f (a + b) = f a + f b)
    (cs : List (Contribution α)) :
    ∀ init, accumulate (f init) (cs.map fun c => c.map f) = f (accumulate init cs) := by
  -- From the front, since the initial value is what changes.
  induction cs with
  | nil => exact fun _ => rfl
  | cons c cs ih =>
    intro init
    rw [List.map_cons, accumulate_cons, accumulate_cons, ← ih]
    unfold Contribution.map
    split
    · rfl
    · rw [hf]

end CProg
