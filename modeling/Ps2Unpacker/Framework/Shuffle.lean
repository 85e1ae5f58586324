import Mathlib.Logic.Function.Iterate
import Ps2Unpacker.Framework.Lanes

/-!
# Shuffles of lanes

A shuffle puts a bit vector together from lanes of another one: `shuffle w js x` has the lanes of
`x` at the positions `js`, from the lowest on. Two sources are shuffled as one, by their
concatenation.

What a sequence of shuffles does is decided by their positions alone:

* `shuffle_shuffle`, `shuffle_append`: a shuffle of a shuffle, or of two of them side by side, is a
  shuffle.
* `iterate_shuffle`: so is a repeated one; its positions are those of `power`.
* `shuffle_eq_id_iff`: a shuffle is the identity exactly if its positions are.
-/

namespace Lanes

variable {n m p w : Nat}

/-- The vector with the lanes of `x` at the positions `js`, from the lowest on. -/
def shuffle (w : Nat) (js : List Nat) (x : BitVec m) : BitVec n :=
  ofLanes n (js.map fun j => lane w j x)

section Shuffle

variable {js ks : List Nat}

/-- A lane of a shuffle. -/
theorem lane_shuffle (x : BitVec m) {k j : Nat} (hfit : w * js.length ≤ n) (hj : js[k]? = some j) :
    lane w k (shuffle w js x : BitVec n) = lane w j x :=
  lane_ofLanes (by rwa [List.length_map]) (by rw [List.getElem?_map, hj, Option.map_some])

/-- The position that a shuffle at the positions `ks` gives to each of the positions `js`. -/
def compose (js ks : List Nat) : List Nat := js.map fun j => ks.getD j 0

/-- **A shuffle of a shuffle.** -/
theorem shuffle_shuffle (x : BitVec m) (hfit : w * ks.length ≤ p) (hlt : ∀ j ∈ js, j < ks.length) :
    (shuffle w js (shuffle w ks x : BitVec p) : BitVec n) = shuffle w (compose js ks) x := by
  unfold shuffle compose
  rw [List.map_map]
  congr 1
  refine List.map_congr_left fun j hj => ?_
  have hget : ks[j]? = some (ks.getD j 0) := by
    rw [List.getD_eq_getElem?_getD, List.getElem?_eq_getElem (hlt j hj), Option.getD_some]
  exact lane_shuffle x hfit hget

/-- The positions in order change nothing. -/
theorem shuffle_range (hn : n = w * m) (x : BitVec n) : shuffle w (List.range m) x = x := by
  refine ext_lanes hn fun k hk => lane_shuffle x ?_ (List.getElem?_range hk)
  rw [List.length_range]
  exact Nat.le_of_eq hn.symm

/-- **Two shuffles side by side.** -/
theorem shuffle_append (x : BitVec m) (hks : n = w * ks.length) (hjs : p = w * js.length) :
    ((shuffle w js x : BitVec p) ++ (shuffle w ks x : BitVec n)) = shuffle w (ks ++ js) x := by
  have hlen : p + n = w * (ks ++ js).length := by
    rw [List.length_append, Nat.mul_add, hks, hjs, Nat.add_comm]
  -- Lane `k` comes from the lower vector or from the upper one; the lists meet at the same lane.
  refine ext_lanes hlen fun k hk => ?_
  obtain ⟨j, hj⟩ : ∃ j, (ks ++ js)[k]? = some j := ⟨_, List.getElem?_eq_getElem hk⟩
  rw [lane_shuffle x (Nat.le_of_eq hlen.symm) hj, lane_append hks]
  by_cases hlow : k < ks.length
  · rw [List.getElem?_append_left hlow] at hj
    rw [if_pos hlow, lane_shuffle x (Nat.le_of_eq hks.symm) hj]
  · rw [List.getElem?_append_right (Nat.le_of_not_lt hlow)] at hj
    rw [if_neg hlow, lane_shuffle x (Nat.le_of_eq hjs.symm) hj]

/-- A shuffle that looks at the lower of two vectors only. -/
theorem shuffle_low (hm : m = w * p) (s t : BitVec m) (hlt : ∀ j ∈ js, j < p) :
    (shuffle w js (s ++ t) : BitVec n) = shuffle w js t := by
  unfold shuffle
  congr 1
  refine List.map_congr_left fun j hj => ?_
  rw [lane_append hm, if_pos (hlt j hj)]

/-- Two shuffles of a pair of vectors, shuffled back to the lower one. -/
theorem shuffle_back {us ls : List Nat} (hu : n = w * us.length) (hl : n = w * ls.length)
    (hback : compose js (ls ++ us) = List.range m) (hm : n = w * m)
    (hlt : ∀ j ∈ js, j < (ls ++ us).length) (s t : BitVec n) :
    shuffle w js
      ((shuffle w us (s ++ t) : BitVec n) ++ (shuffle w ls (s ++ t) : BitVec n)) = t := by
  have hfit : w * (ls ++ us).length ≤ n + n := by
    rw [List.length_append, Nat.mul_add]
    omega
  -- Side by side the two shuffles are one, and composed with the one back it is the identity on the
  -- lower vector.
  calc shuffle w js ((shuffle w us (s ++ t) : BitVec n) ++ (shuffle w ls (s ++ t) : BitVec n))
      = shuffle w js (shuffle w (ls ++ us) (s ++ t) : BitVec (n + n)) := by
        rw [shuffle_append _ hl hu]
    _ = shuffle w (List.range m) (s ++ t) := by rw [shuffle_shuffle _ hfit hlt, hback]
    _ = shuffle w (List.range m) t := shuffle_low hm s t fun j hj => List.mem_range.mp hj
    _ = t := shuffle_range hm t

end Shuffle

/-! ### Repeated shuffles -/

section Power

variable {js : List Nat}

/-- The positions of a shuffle that is repeated `k` times. -/
def power (js : List Nat) : Nat → List Nat
  | 0 => List.range js.length
  | k + 1 => compose js (power js k)

/-- Repetition keeps the number of positions. -/
theorem length_power (js : List Nat) (k : Nat) : (power js k).length = js.length := by
  cases k with
  | zero => exact List.length_range
  | succ k => exact List.length_map _

/-- A repeated shuffle is a shuffle. -/
theorem iterate_shuffle (hn : n = w * js.length) (hlt : ∀ j ∈ js, j < js.length) (k : Nat) :
    (shuffle w js : BitVec n → BitVec n)^[k] = shuffle w (power js k) := by
  funext x
  induction k with
  | zero => exact (shuffle_range hn x).symm
  | succ k ih =>
    -- The last of the shuffles is applied to the one that does the others.
    rw [Function.iterate_succ_apply', ih]
    refine shuffle_shuffle x ?_ fun j hj => ?_
    · rw [length_power]
      exact Nat.le_of_eq hn.symm
    · rw [length_power]
      exact hlt j hj

/-- **Only the positions in order** change nothing. -/
theorem shuffle_eq_id_iff (hw : 0 < w) (hn : n = w * js.length) :
    (shuffle w js : BitVec n → BitVec n) = id ↔ js = List.range js.length := by
  constructor
  · intro hid
    refine List.ext_getElem? fun k => ?_
    by_cases hk : k < js.length
    · obtain ⟨j, hj⟩ : ∃ j, js[k]? = some j := ⟨_, List.getElem?_eq_getElem hk⟩
      rw [hj, List.getElem?_range hk]
      by_contra hne
      have hjk : j ≠ k := fun heq => hne (congrArg some heq)
      -- Lane `k` of ones comes from another lane, which is zero.
      have hfit : w * k + w ≤ n := by
        rw [hn, ← Nat.mul_succ]
        exact Nat.mul_le_mul_left w hk
      have hlane := lane_shuffle (setLane k (BitVec.allOnes w) (0 : BitVec n))
        (Nat.le_of_eq hn.symm) hj
      rw [hid, id, lane_setLane_self k _ _ hfit, lane_setLane_of_ne _ _ hjk] at hlane
      have hbit := congrArg (fun z => z.getLsbD 0) hlane
      rw [getLsbD_lane] at hbit
      simp [hw] at hbit
    · -- Behind the last lane neither list has a position.
      rw [List.getElem?_eq_none (Nat.le_of_not_lt hk), List.getElem?_eq_none (by simpa using hk)]
  · intro hjs
    funext x
    rw [hjs]
    exact shuffle_range hn x

end Power

end Lanes
