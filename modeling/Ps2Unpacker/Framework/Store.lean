import Mathlib.Tactic.Common

/-!
# A run of assignments

A loop that assigns `value k`, `value (k + 1)`, … to the cells `cell k`, `cell (k + 1)`, … of an
array, one after the other. The array may be indexed by anything, and the cells need not be
neighbours.

* `assign_of_ne`: the cells outside the run keep their contents.
* `assign_cell`: where the cells of the run are different, each holds its own value.

`Assigned` says the same of any part of the run. Two parts of one run, in either order, are the part
where one or the other assigns (`Assigned.trans`), and what a part leaves is determined by it
(`Assigned.unique`).
-/

namespace CProg

variable {ι α : Type} {cell : Nat → ι}

/-- The cells `k, k + 1, …`, `n` of them, are different. -/
def Distinct (cell : Nat → ι) (k n : Nat) : Prop :=
  ∀ i j, k ≤ i → i < k + n → k ≤ j → j < k + n → cell i = cell j → i = j

theorem Distinct.tail {k n : Nat} (h : Distinct cell k (n + 1)) : Distinct cell (k + 1) n :=
  fun i j hi hi' hj hj' => h i j (by omega) (by omega) (by omega) (by omega)

/-! ### Parts of a run -/

/-- From `f` to `g` the cells `cell i`, for the `i` below `n` with `P i`, have been assigned
`value i`, and the others have not changed. -/
structure Assigned (n : Nat) (P : Nat → Prop) (cell : Nat → ι) (value : Nat → α) (f g : ι → α) :
    Prop where
  hit : ∀ i, i < n → P i → g (cell i) = value i
  miss : ∀ x, (∀ i, i < n → P i → cell i ≠ x) → g x = f x

namespace Assigned

variable {n : Nat} {P Q : Nat → Prop} {value : Nat → α} {f g h : ι → α}

/-- **Two parts** of one run. -/
theorem trans (hP : Assigned n P cell value f g) (hQ : Assigned n Q cell value g h)
    (hdistinct : Distinct cell 0 n) : Assigned n (fun i => P i ∨ Q i) cell value f h where
  hit i hi hPQ := by
    by_cases hhit : ∃ j, j < n ∧ Q j ∧ cell j = cell i
    · -- The second part assigns this cell, for the same place in the run.
      obtain ⟨j, hj, hQj, heq⟩ := hhit
      obtain rfl := hdistinct j i (Nat.zero_le j) (by omega) (Nat.zero_le i) (by omega) heq
      exact hQ.hit j hj hQj
    · have hkeep := hQ.miss (cell i) fun j hj hQj heq => hhit ⟨j, hj, hQj, heq⟩
      have hPi : P i := hPQ.resolve_right fun hQi => hhit ⟨i, hi, hQi, rfl⟩
      rw [hkeep]
      exact hP.hit i hi hPi
  miss x hx := by
    rw [hQ.miss x fun i hi hQi => hx i hi (.inr hQi)]
    exact hP.miss x fun i hi hPi => hx i hi (.inl hPi)

/-- The cells assigned, and the values, determine the result. -/
theorem unique (hg : Assigned n P cell value f g) (hh : Assigned n P cell value f h) : g = h := by
  funext x
  by_cases hhit : ∃ i, i < n ∧ P i ∧ cell i = x
  · obtain ⟨i, hi, hPi, rfl⟩ := hhit
    rw [hg.hit i hi hPi, hh.hit i hi hPi]
  · have hx : ∀ i, i < n → P i → cell i ≠ x := fun i hi hPi heq => hhit ⟨i, hi, hPi, heq⟩
    rw [hg.miss x hx, hh.miss x hx]

/-- The same cells and values by other places. -/
theorem reindex {cell' : Nat → ι} {value' : Nat → α} (hP : Assigned n P cell value f g)
    (hto : ∀ i, i < n → Q i → ∃ j, j < n ∧ P j ∧ cell j = cell' i ∧ value j = value' i)
    (hback : ∀ j, j < n → P j → ∃ i, i < n ∧ Q i ∧ cell' i = cell j) :
    Assigned n Q cell' value' f g where
  hit i hi hQi := by
    obtain ⟨j, hj, hPj, hcell, hvalue⟩ := hto i hi hQi
    rw [← hcell, ← hvalue]
    exact hP.hit j hj hPj
  miss x hx := by
    refine hP.miss x fun j hj hPj heq => ?_
    obtain ⟨i, hi, hQi, hcell⟩ := hback j hj hPj
    exact hx i hi hQi (hcell.trans heq)

/-- The places assigned can be described in another way. -/
theorem congr (hP : Assigned n P cell value f g) (hiff : ∀ i, i < n → (P i ↔ Q i)) :
    Assigned n Q cell value f g :=
  hP.reindex (fun i hi hQi => ⟨i, hi, (hiff i hi).mpr hQi, rfl, rfl⟩)
    fun j hj hPj => ⟨j, hj, (hiff j hj).mp hPj, rfl⟩

end Assigned

/-! ### The run -/

variable [DecidableEq ι]

/-- The array `f` after the assignments `k, k + 1, …`, `n` of them. -/
def assign (cell : Nat → ι) (value : Nat → α) : Nat → Nat → (ι → α) → ι → α
  | _, 0, f => f
  | k, n + 1, f => assign cell value (k + 1) n fun i => if i = cell k then value k else f i

/-- A cell outside the run. -/
theorem assign_of_ne (value : Nat → α) (n : Nat) :
    ∀ {k : Nat} {f : ι → α} {i : ι}, (∀ j, k ≤ j → j < k + n → cell j ≠ i) →
      assign cell value k n f i = f i := by
  induction n with
  | zero => exact fun _ => rfl
  | succ n ih =>
    intro k f i h
    unfold assign
    rw [ih fun j hj hj' => h j (by omega) (by omega)]
    exact if_neg (Ne.symm (h k (Nat.le_refl k) (by omega)))

/-- A cell of the run. -/
theorem assign_cell (value : Nat → α) (n : Nat) :
    ∀ {k : Nat} {f : ι → α} {j : Nat}, Distinct cell k n → k ≤ j → j < k + n →
      assign cell value k n f (cell j) = value j := by
  induction n with
  | zero =>
    -- No cell lies in an empty run.
    intro k f j _ hlo hhi
    omega
  | succ n ih =>
    intro k f j h hlo hhi
    unfold assign
    by_cases hj : j = k
    · -- The first cell is not written again.
      subst hj
      rw [assign_of_ne value n fun i hi hi' heq => ?_]
      · exact if_pos rfl
      · have := h i j (by omega) (by omega) (Nat.le_refl j) (by omega) heq
        omega
    · exact ih h.tail (by omega) (by omega)

end CProg
