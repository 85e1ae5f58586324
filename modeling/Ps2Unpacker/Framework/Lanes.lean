import Mathlib.Algebra.Group.Nat.Defs
import Mathlib.Tactic.Common

/-!
# Lanes of a bit vector

A C union that overlays arrays of different element widths on one wide register reads and writes
*lanes*: lane `k` of width `w` is the bits `w * k` up to `w * k + w`. `lane w k x` reads one,
`setLane k v x` replaces one and leaves the other bits alone.

Everything is stated for an arbitrary register width `n`; a lane that does not fit reads zeros past
the end and its write is cut there. The rules are `lane_setLane_self` for the lane just written and
`lane_setLane_of_disjoint` for a lane, of the same or another width, that shares no bit with it.
`ofLanes` puts a vector together from its lanes, and `ext_lanes` says that it is determined by them.
-/

namespace Lanes

variable {n w w' : Nat}

/-- Lane `k` of width `w`. -/
def lane (w k : Nat) (x : BitVec n) : BitVec w := x.extractLsb' (w * k) w

/-- `x` with lane `k` replaced by `v`. -/
def setLane (k : Nat) (v : BitVec w) (x : BitVec n) : BitVec n :=
  x &&& ~~~((BitVec.allOnes w).setWidth n <<< (w * k)) ||| v.setWidth n <<< (w * k)

/-- Bit `i` of lane `k` is bit `w * k + i` of the vector. -/
theorem getLsbD_lane (k : Nat) (x : BitVec n) (i : Nat) :
    (lane w k x).getLsbD i = (decide (i < w) && x.getLsbD (w * k + i)) := by
  unfold lane
  rw [BitVec.getLsbD_extractLsb']

/-- A bit of `setLane k v x` comes from `v` inside the lane and from `x` outside. -/
theorem getLsbD_setLane (k : Nat) (v : BitVec w) (x : BitVec n) (i : Nat) :
    (setLane k v x).getLsbD i =
      (decide (i < n) && if w * k ≤ i ∧ i < w * k + w then v.getLsbD (i - w * k)
        else x.getLsbD i) := by
  unfold setLane
  -- Four kinds of bits: past the register, below the lane, above it, and inside it.
  by_cases hn : i < n
  · by_cases hlo : w * k ≤ i
    · by_cases hhi : i < w * k + w
      · -- Inside the lane, the old bits are masked out and those of `v` moved in.
        have hw : i - w * k < w := by omega
        have hlt : ¬i < w * k := by omega
        simp [hn, hlo, hhi, hw, hlt]
      · -- Above it, the mask is gone and `v` has ended.
        have hw : ¬i - w * k < w := by omega
        have hv : v.getLsbD (i - w * k) = false := BitVec.getLsbD_of_ge v _ (by omega)
        simp [hn, hlo, hhi, hw, hv]
    · -- Below it, the shifts bring in zeros.
      have hlt : i < w * k := by omega
      simp [hn, hlo, hlt]
  · have hx : x.getLsbD i = false := BitVec.getLsbD_of_ge x i (by omega)
    simp [hn, hx]

/-- A written lane that fits the register reads back. -/
@[simp] theorem lane_setLane_self (k : Nat) (v : BitVec w) (x : BitVec n)
    (hfit : w * k + w ≤ n := by decide) : lane w k (setLane k v x) = v := by
  apply BitVec.eq_of_getLsbD_eq
  intro i hi
  rw [getLsbD_lane, getLsbD_setLane]
  have h₁ : w * k + i < n := by omega
  have h₂ : w * k ≤ w * k + i ∧ w * k + i < w * k + w := by omega
  rw [if_pos h₂]
  simp [hi, h₁]

/-- Lanes that share no bit do not see each other's writes. -/
theorem lane_setLane_of_disjoint (k j : Nat) (v : BitVec w) (x : BitVec n)
    (hdis : w' * j + w' ≤ w * k ∨ w * k + w ≤ w' * j) :
    lane w' j (setLane k v x) = lane w' j x := by
  apply BitVec.eq_of_getLsbD_eq
  intro i hi
  rw [getLsbD_lane, getLsbD_lane, getLsbD_setLane]
  have hout : ¬(w * k ≤ w' * j + i ∧ w' * j + i < w * k + w) := by omega
  rw [if_neg hout]
  by_cases hn : w' * j + i < n
  · simp [hn]
  · have hx : x.getLsbD (w' * j + i) = false := BitVec.getLsbD_of_ge x _ (by omega)
    simp [hn, hx]

/-- Different lanes of one width share no bit. -/
theorem lane_setLane_of_ne {k j : Nat} (v : BitVec w) (x : BitVec n) (h : j ≠ k) :
    lane w j (setLane k v x) = lane w j x := by
  refine lane_setLane_of_disjoint k j v x ?_
  rcases Nat.lt_or_gt_of_ne h with hlt | hlt
  · have := Nat.mul_le_mul_left w hlt
    rw [Nat.mul_succ] at this
    exact .inl this
  · have := Nat.mul_le_mul_left w hlt
    rw [Nat.mul_succ] at this
    exact .inr this

/-! ### Vectors by their lanes -/

section Vectors

variable {m p : Nat}

/-- The vector with the given lanes, from the lowest on. -/
def ofLanes (n : Nat) : List (BitVec w) → BitVec n
  | [] => 0
  | u :: us => u.setWidth n ||| ofLanes n us <<< w

/-- Bit `i` of lane `k`. -/
theorem getLsbD_ofLanes (us : List (BitVec w)) :
    ∀ {k i : Nat}, i < w →
      (ofLanes n us).getLsbD (w * k + i) =
        (decide (w * k + i < n) && (us[k]?.getD 0).getLsbD i) := by
  induction us with
  | nil => simp [ofLanes]
  | cons u us ih =>
    intro k i hi
    rw [ofLanes, BitVec.getLsbD_or, BitVec.getLsbD_setWidth, BitVec.getLsbD_shiftLeft]
    cases k with
    | zero => simp [hi]
    | succ k =>
      -- The first lane ends below the bit, which is looked for in the others.
      have hu : u.getLsbD (w * (k + 1) + i) = false :=
        BitVec.getLsbD_of_ge u _ (by rw [Nat.mul_succ]; omega)
      have hge : ¬w * (k + 1) + i < w := by rw [Nat.mul_succ]; omega
      have hindex : w * (k + 1) + i - w = w * k + i := by rw [Nat.mul_succ]; omega
      rw [hu, hindex, ih hi, List.getElem?_cons_succ]
      by_cases hn : w * (k + 1) + i < n
      · have hn' : w * k + i < n := by omega
        simp [hn, hn', hge]
      · simp [hn]

/-- A lane of the vector with given lanes. -/
theorem lane_ofLanes {us : List (BitVec w)} {k : Nat} {u : BitVec w} (hfit : w * us.length ≤ n)
    (hu : us[k]? = some u) : lane w k (ofLanes n us) = u := by
  -- Lane `k` fits into the vector, since all of them do.
  obtain ⟨hk, -⟩ := List.getElem?_eq_some_iff.mp hu
  have hle := Nat.mul_le_mul_left w hk
  rw [Nat.mul_succ] at hle
  apply BitVec.eq_of_getLsbD_eq
  intro i hi
  have hn : w * k + i < n := by omega
  rw [getLsbD_lane, getLsbD_ofLanes us hi, hu]
  simp [hi, hn]

/-- A vector is determined by its lanes. -/
theorem ext_lanes {x y : BitVec n} (hn : n = w * m)
    (h : ∀ k, k < m → lane w k x = lane w k y) : x = y := by
  apply BitVec.eq_of_getLsbD_eq
  intro i hi
  have hw : 0 < w := Nat.pos_of_ne_zero (by rintro rfl; omega)
  have hmod : i % w < w := Nat.mod_lt i hw
  have hbit := congrArg (fun z => z.getLsbD (i % w)) (h (i / w) (Nat.div_lt_of_lt_mul (hn ▸ hi)))
  rw [getLsbD_lane, getLsbD_lane, Nat.div_add_mod] at hbit
  simpa [hmod] using hbit

/-- A lane of two vectors side by side. -/
theorem lane_append (hn : n = w * m) (s : BitVec p) (t : BitVec n) (j : Nat) :
    lane w j (s ++ t) = if j < m then lane w j t else lane w (j - m) s := by
  apply BitVec.eq_of_getLsbD_eq
  intro i hi
  rw [getLsbD_lane, BitVec.getLsbD_append]
  by_cases hj : j < m
  · -- The first `m` lanes are those of `t`, which ends with a whole lane.
    have hle := Nat.mul_le_mul_left w hj
    rw [Nat.mul_succ] at hle
    have hlow : w * j + i < n := by omega
    rw [if_pos hj, getLsbD_lane, if_pos hlow]
  · have hle := Nat.mul_le_mul_left w (Nat.le_of_not_lt hj)
    have hhigh : ¬w * j + i < n := by omega
    have hindex : w * j + i - n = w * (j - m) + i := by
      rw [Nat.mul_sub, hn]
      omega
    rw [if_neg hj, getLsbD_lane, if_neg hhigh, hindex]

end Vectors

/-! ### Element-wise operations -/

section MapLanes

variable (f : BitVec w → BitVec w → BitVec w)

/-- `d` with the lanes `k, k + 1, …`, `m` of them, replaced by `f` of those of `s` and `t`. -/
def mapLanes : Nat → Nat → BitVec n → BitVec n → BitVec n → BitVec n
  | _, 0, _, _, d => d
  | k, m + 1, s, t, d => mapLanes (k + 1) m s t (setLane k (f (lane w k s) (lane w k t)) d)

/-- The lanes below the first one do not matter. -/
theorem mapLanes_congr (m : Nat) :
    ∀ {k : Nat} {s t s' t' : BitVec n} (d : BitVec n),
      (∀ j, k ≤ j → lane w j s = lane w j s') → (∀ j, k ≤ j → lane w j t = lane w j t') →
      mapLanes f k m s t d = mapLanes f k m s' t' d := by
  induction m with
  | zero => exact fun d _ _ => rfl
  | succ m ih =>
    intro k s t s' t' d hs ht
    unfold mapLanes
    rw [hs k (Nat.le_refl k), ht k (Nat.le_refl k)]
    exact ih _ (fun j hj => hs j (Nat.le_of_succ_le hj)) fun j hj => ht j (Nat.le_of_succ_le hj)

/-- The bits behind the last lane stay. -/
theorem getLsbD_mapLanes_of_le (m : Nat) :
    ∀ {k i : Nat} (s t d : BitVec n), w * (k + m) ≤ i →
      (mapLanes f k m s t d).getLsbD i = d.getLsbD i := by
  induction m with
  | zero => exact fun s t d _ => rfl
  | succ m ih =>
    intro k i s t d hi
    -- The lane that is replaced first ends before the last one does.
    have hk : w * (k + 1) ≤ w * (k + (m + 1)) := Nat.mul_le_mul_left w (by omega)
    have hnot : ¬(w * k ≤ i ∧ i < w * k + w) := by
      rw [Nat.mul_succ] at hk
      omega
    unfold mapLanes
    rw [ih s t _ (by rwa [Nat.add_assoc, Nat.add_comm 1 m]), getLsbD_setLane, if_neg hnot]
    by_cases hn : i < n
    · simp [hn]
    · have hd : d.getLsbD i = false := BitVec.getLsbD_of_ge d i (by omega)
      simp [hn, hd]

/-- A lane of the result, below the first one or among those replaced. -/
theorem lane_mapLanes (m : Nat) :
    ∀ {k j : Nat} (s t d : BitVec n), w * (k + m) ≤ n → j < k + m →
      lane w j (mapLanes f k m s t d) =
        if j < k then lane w j d else f (lane w j s) (lane w j t) := by
  -- On the number of lanes that are left; those below `k` are not touched again.
  induction m with
  | zero =>
    intro k j s t d _ hj
    exact (if_pos hj).symm
  | succ m ih =>
    intro k j s t d hfit hj
    have hstep : k + 1 + m = k + (m + 1) := by omega
    -- The lane that is replaced now lies inside the vector.
    have hk : w * k + w ≤ n := by
      have hle := Nat.mul_le_mul_left w (show k + 1 ≤ k + (m + 1) by omega)
      rw [Nat.mul_succ] at hle
      omega
    unfold mapLanes
    rw [ih s t _ (by rw [hstep]; exact hfit) (by omega)]
    -- A lane below `k`, lane `k` itself, or one of those that are left.
    by_cases hjk : j < k
    · rw [if_pos hjk, if_pos (by omega), lane_setLane_of_ne _ _ (by omega)]
    · rw [if_neg hjk]
      by_cases heq : j = k
      · subst heq
        rw [if_pos (by omega), lane_setLane_self _ _ _ hk]
      · rw [if_neg (by omega)]

/-- The destination of an element-wise operation on all lanes does not matter. -/
theorem mapLanes_dest {m : Nat} (hn : n = w * m) (s t d d' : BitVec n) :
    mapLanes f 0 m s t d = mapLanes f 0 m s t d' := by
  have hfit : w * (0 + m) ≤ n := by
    rw [Nat.zero_add]
    exact Nat.le_of_eq hn.symm
  refine ext_lanes hn fun k hk => ?_
  rw [lane_mapLanes f m s t d hfit (by omega), lane_mapLanes f m s t d' hfit (by omega),
    if_neg (Nat.not_lt_zero k), if_neg (Nat.not_lt_zero k)]

end MapLanes

/-- The low part of a wider lane that starts at the same bit. -/
theorem setWidth_lane {j k : Nat} (x : BitVec n) (hw : w ≤ w') (hstart : w * j = w' * k) :
    (lane w' k x).setWidth w = lane w j x := by
  apply BitVec.eq_of_getLsbD_eq
  intro i hi
  have hi' : i < w' := by omega
  rw [BitVec.getLsbD_setWidth, getLsbD_lane, getLsbD_lane, hstart]
  simp [hi, hi']

/-- The low half of a lane of twice the width. -/
theorem setWidth_lane_zero (x : BitVec n) (hw : w ≤ w') :
    (lane w' 0 x).setWidth w = lane w 0 x :=
  setWidth_lane x hw rfl

/-! ### Masks of powers of two -/

section Masks

variable {k : Nat} {a : BitVec n}

/-- The bits outside a mask are what is left without the bits inside it. -/
theorem and_not_eq_sub (x m : BitVec n) : x &&& ~~~m = x - (x &&& m) := by
  -- The two parts share no bit, so their sum is their union, which is `x`.
  have hdisjoint : (x &&& ~~~m) &&& (x &&& m) = 0 := by
    apply BitVec.eq_of_getLsbD_eq
    intro i hi
    rw [BitVec.getLsbD_and, BitVec.getLsbD_and, BitVec.getLsbD_and, BitVec.getLsbD_not]
    cases x.getLsbD i <;> cases m.getLsbD i <;> simp
  have hsplit : (x &&& ~~~m) + (x &&& m) = x := by
    rw [BitVec.add_eq_or_of_and_eq_zero _ _ hdisjoint]
    apply BitVec.eq_of_getLsbD_eq
    intro i hi
    rw [BitVec.getLsbD_or, BitVec.getLsbD_and, BitVec.getLsbD_and, BitVec.getLsbD_not]
    cases x.getLsbD i <;> cases m.getLsbD i <;> simp [hi]
  exact BitVec.eq_sub_iff_add_eq.mpr hsplit

/-- The mask below a power of two takes the remainder. -/
theorem and_sub_one_toNat (ha : a.toNat = 2 ^ k) (x : BitVec n) :
    (x &&& (a - 1)).toNat = x.toNat % 2 ^ k := by
  have hmask : (a - 1).toNat = 2 ^ k - 1 := by
    have hlt := a.isLt
    have hpos : 1 ≤ 2 ^ k := Nat.one_le_two_pow
    rw [ha] at hlt
    have hone : (1 : BitVec n).toNat = 1 := Nat.mod_eq_of_lt (Nat.lt_of_le_of_lt hpos hlt)
    have hsum : 2 ^ n - 1 + 2 ^ k = 2 ^ n + (2 ^ k - 1) := by omega
    rw [BitVec.toNat_sub, hone, ha, hsum, Nat.add_mod_left, Nat.mod_eq_of_lt (by omega)]
  rw [BitVec.toNat_and, hmask, Nat.and_two_pow_sub_one_eq_mod]

/-- The mask `-a` is the complement of the mask `a - 1`. -/
theorem and_neg_eq_sub (x a : BitVec n) : x &&& -a = x - (x &&& (a - 1)) := by
  have hneg : -a = ~~~(a - 1) := by
    rw [BitVec.not_eq_neg_add, BitVec.neg_sub]
    exact (BitVec.add_sub_cancel (-a) 1).symm
  rw [hneg, and_not_eq_sub]

/-- The negation of a power of two masks the bits below it out. -/
theorem and_neg_toNat (ha : a.toNat = 2 ^ k) (x : BitVec n) :
    (x &&& -a).toNat = x.toNat - x.toNat % 2 ^ k := by
  have hle : x &&& (a - 1) ≤ x := by
    rw [BitVec.le_def, and_sub_one_toNat ha]
    exact Nat.mod_le _ _
  calc (x &&& -a).toNat = (x - (x &&& (a - 1))).toNat := by rw [and_neg_eq_sub]
    _ = x.toNat - (x &&& (a - 1)).toNat := BitVec.toNat_sub_of_le hle
    _ = x.toNat - x.toNat % 2 ^ k := by rw [and_sub_one_toNat ha]

end Masks

end Lanes
