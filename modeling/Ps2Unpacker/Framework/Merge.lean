import Ps2Unpacker.Framework.LittleEndian

/-!
# Values merged from shifted parts

A load from an address that is not aligned takes two steps: each shifts an aligned value by whole
bytes and replaces those bytes of the register that a mask lets through. `Patch c b x y` says what
one step does to the bytes, and two steps that together replace every byte leave nothing of the old
value, in either order.

* `patch_right`, `patch_left`: a step with a shift to the right, and to the left.
* `Patch.eq_ofBytes`: two steps that cover the value.
-/

namespace Lanes

variable {w n : Nat}

/-! ### Lanes of shifted values -/

section Shifts

variable {m : Nat}

/-- A lane of an intersection. -/
theorem lane_and (i : Nat) (x y : BitVec m) : lane w i (x &&& y) = lane w i x &&& lane w i y := by
  apply BitVec.eq_of_getLsbD_eq
  intro j hj
  simp only [getLsbD_lane, BitVec.getLsbD_and, hj, decide_true, Bool.true_and]

/-- A lane of a union. -/
theorem lane_or (i : Nat) (x y : BitVec m) : lane w i (x ||| y) = lane w i x ||| lane w i y := by
  apply BitVec.eq_of_getLsbD_eq
  intro j hj
  simp only [getLsbD_lane, BitVec.getLsbD_or, hj, decide_true, Bool.true_and]

/-- A shift by whole lanes renumbers them. -/
theorem lane_ushiftRight (i k : Nat) (x : BitVec m) :
    lane w i (x >>> (w * k)) = lane w (i + k) x := by
  apply BitVec.eq_of_getLsbD_eq
  intro j hj
  have hindex : w * k + (w * i + j) = w * (i + k) + j := by
    rw [Nat.mul_add]
    omega
  rw [getLsbD_lane, getLsbD_lane, BitVec.getLsbD_ushiftRight, hindex]

/-- A lane of a value that is shifted by less than a lane is put together from two lanes. -/
theorem lane_ushiftRight_of_lt (i : Nat) {k : Nat} (x : BitVec m) (hk : k < w) :
    lane w i (x >>> k) = lane w i x >>> k ||| lane w (i + 1) x <<< (w - k) := by
  apply BitVec.eq_of_getLsbD_eq
  intro j hj
  rw [BitVec.getLsbD_or, BitVec.getLsbD_ushiftRight, BitVec.getLsbD_shiftLeft, getLsbD_lane,
    getLsbD_lane, getLsbD_lane, BitVec.getLsbD_ushiftRight, Nat.mul_succ]
  -- The bit comes from this lane, or has crossed over from the next one.
  by_cases hin : k + j < w
  · have hbelow : j < w - k := by omega
    have hindex : k + (w * i + j) = w * i + (k + j) := by omega
    simp [hj, hin, hbelow, hindex]
  · have hbelow : ¬j < w - k := by omega
    have hlow : j - (w - k) < w := by omega
    have hindex : k + (w * i + j) = w * i + w + (j - (w - k)) := by omega
    simp [hj, hin, hbelow, hlow, hindex]

/-- The lanes below the shift are empty. -/
theorem lane_shiftLeft {i k : Nat} (x : BitVec m) (hfit : w * i + w ≤ m) :
    lane w i (x <<< (w * k)) = if k ≤ i then lane w (i - k) x else 0#w := by
  apply BitVec.eq_of_getLsbD_eq
  intro j hj
  have hin : w * i + j < m := by omega
  rw [getLsbD_lane, BitVec.getLsbD_shiftLeft]
  -- A lane at or above the shift comes from `k` lanes further down; those below are shifted in.
  by_cases hk : k ≤ i
  · have hle : w * k ≤ w * i := Nat.mul_le_mul_left w hk
    have hindex : w * i + j - w * k = w * (i - k) + j := by
      rw [Nat.mul_sub]
      omega
    have hnot : ¬w * i + j < w * k := by omega
    rw [if_pos hk, getLsbD_lane, hindex]
    simp [hin, hnot]
  · have hlt := Nat.mul_le_mul_left w (Nat.lt_of_not_le hk)
    rw [Nat.succ_eq_add_one, Nat.mul_add] at hlt
    have hbelow : w * i + j < w * k := by omega
    rw [if_neg hk]
    simp [hbelow]

end Shifts

/-! ### Steps -/

/-- `y` is `x` with the bytes where `c` holds replaced by those of `b`, for the first `n` bytes. -/
def Patch (n : Nat) (c : Nat → Prop) (b : Nat → BitVec 8) (x y : BitVec w) : Prop :=
  ∀ i, i < n → (c i → lane 8 i y = b i) ∧ (¬c i → lane 8 i y = lane 8 i x)

section Steps

variable {c c' : Nat → Prop} {b b' : Nat → BitVec 8} {x y z m mask : BitVec w} {k : Nat}

/-- Only the bytes where `c` holds are read of `b`. -/
theorem Patch.congr (h : Patch n c b x y) (hb : ∀ i, i < n → c i → b i = b' i) : Patch n c b' x y :=
  fun i hi => ⟨fun hc => ((h i hi).1 hc).trans (hb i hi hc), (h i hi).2⟩

/-- **Two steps** that replace every byte, the second one in part again. -/
theorem Patch.eq_ofBytes (h : Patch n c b x y) (h' : Patch n c' b y z) (hw : w = 8 * n)
    (hcover : ∀ i, i < n → c i ∨ c' i) : z = ofBytes w ((List.range n).map b) := by
  refine Lanes.eq_ofBytes hw fun i hi => ?_
  by_cases hc' : c' i
  · exact (h' i hi).1 hc'
  · rw [(h' i hi).2 hc']
    exact (h i hi).1 ((hcover i hi).resolve_right hc')

/-- The shift to the right fills the low bytes, and the mask keeps the high ones. -/
theorem patch_right (hw : w = 8 * n) (x m : BitVec w)
    (hmask : ∀ i, i < n → lane 8 i mask = if i + k < n then 0#8 else 255#8) :
    Patch n (· + k < n) (fun i => lane 8 (i + k) m) x (x &&& mask ||| m >>> (8 * k)) := by
  intro i hi
  rw [lane_or, lane_and, lane_ushiftRight, hmask i hi]
  refine ⟨fun hc => ?_, fun hc => ?_⟩
  · rw [if_pos hc, BitVec.and_zero, BitVec.zero_or]
  · -- The bytes shifted in from above are empty.
    have hempty : lane 8 (i + k) m = 0#8 := by
      apply BitVec.eq_of_getLsbD_eq
      intro j hj
      rw [getLsbD_lane, BitVec.getLsbD_of_ge m _ (by omega)]
      simp
    have hones : 255#8 = BitVec.allOnes 8 := rfl
    rw [if_neg hc, hempty, hones, BitVec.and_allOnes, BitVec.or_zero]

/-- The shift to the left fills the high bytes, and the mask keeps the low ones. -/
theorem patch_left (hw : w = 8 * n) (x m : BitVec w)
    (hmask : ∀ i, i < n → lane 8 i mask = if k ≤ i then 0#8 else 255#8) :
    Patch n (k ≤ ·) (fun i => lane 8 (i - k) m) x (x &&& mask ||| m <<< (8 * k)) := by
  intro i hi
  rw [lane_or, lane_and, lane_shiftLeft m (by omega), hmask i hi]
  refine ⟨fun hc => ?_, fun hc => ?_⟩
  · rw [if_pos hc, if_pos hc, BitVec.and_zero, BitVec.zero_or]
  · have hones : 255#8 = BitVec.allOnes 8 := rfl
    rw [if_neg hc, if_neg hc, hones, BitVec.and_allOnes, BitVec.or_zero]

end Steps

end Lanes
