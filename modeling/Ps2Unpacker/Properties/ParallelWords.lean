import Ps2Unpacker.Semantics.HiLo

/-!
# The parallel word instructions and their scalar forms

`PMADDW`, `PMULTW`, `PDIVW`, the variable shifts and their unsigned variants apply a scalar
instruction to the words 0 and to the words 2 of the sources. `wordsTwo` puts the words 2 in the
place of the words 0, so that the scalar instruction says what the upper half should be.

* `wide_agree_iff`, `shift_agree_iff`: the halves agree if and only if the two handlers compute the
  same value of the words.
* `accumulatorS_eq_iff`: the signed accumulator of `PMADDW` is that of `MADD` unless the low word is
  negative and the high word is not minus one.
* `parallel_scalar_iff`: the nine pairs.
-/

namespace Ps2Unpacker

open Lanes CpuRegisters Handler

/-! ### The pairs -/

/-- The pairs, by their parallel member. -/
inductive WordPair where
  | PMADDW | PMADDUW | PMULTW | PMULTUW | PDIVW | PDIVUW | PSLLVW | PSRLVW | PSRAVW

namespace WordPair

def parallel : WordPair → RegOp
  | PMADDW => .PMADDW
  | PMADDUW => .PMADDUW
  | PMULTW => .PMULTW
  | PMULTUW => .PMULTUW
  | PDIVW => .PDIVW
  | PDIVUW => .PDIVUW
  | PSLLVW => .PSLLVW
  | PSRLVW => .PSRLVW
  | PSRAVW => .PSRAVW

def scalar : WordPair → RegOp
  | PMADDW => .MADD
  | PMADDUW => .MADDU
  | PMULTW => .MULT
  | PMULTUW => .MULTU
  | PDIVW => .DIV
  | PDIVUW => .DIVU
  | PSLLVW => .SLLV
  | PSRLVW => .SRLV
  | PSRAVW => .SRAV

/-- The shifts, which have their result in `rd`. -/
def isShift : WordPair → Bool
  | PSLLVW | PSRLVW | PSRAVW => true
  | _ => false

/-- The division of the words `k` is defined. -/
def Divides (p : WordPair) (r : CpuRegisters) (k : Nat) : Prop :=
  match p with
  | PDIVW => UL k (r.GPR r.rt) ≠ 0 ∧ divides (UL k (r.GPR r.rs)) (UL k (r.GPR r.rt)) = true
  | PDIVUW => UL k (r.GPR r.rt) ≠ 0
  | _ => True

/-- The two members agree on the words `k`. -/
def Fine (p : WordPair) (r : CpuRegisters) (k : Nat) : Prop :=
  match p with
  -- The low word is extended with its sign before the high word is added to it.
  | PMADDW => (UL k r.LO).msb = false ∨ UL k r.HI = 0xffffffff
  -- The shifted word is extended with zeros.
  | PSRLVW => r.rd = 0 ∨ UL k (r.GPR r.rs) &&& 0x1F ≠ 0 ∨ (UL k (r.GPR r.rt)).msb = false
  | _ => True

end WordPair

/-- The words 2 of the sources, of `HI` and of `LO` in the place of the words 0. -/
def CpuRegisters.wordsTwo (r : CpuRegisters) : CpuRegisters :=
  { r with
    GPR := fun j =>
      if j = r.rs ∨ j = r.rt then Lanes.setLane 0 (UL 2 (r.GPR j)) (r.GPR j) else r.GPR j
    HI := Lanes.setLane 0 (UL 2 r.HI) r.HI
    LO := Lanes.setLane 0 (UL 2 r.LO) r.LO }

/-- The lower halves of `HI` and `LO` after the parallel instruction are those of `x`, and the upper
halves are the lower ones of `y`. -/
structure HalvesAgree (r' x y : CpuRegisters) : Prop where
  HI₀ : UD 0 r'.HI = UD 0 x.HI
  LO₀ : UD 0 r'.LO = UD 0 x.LO
  HI₁ : UD 1 r'.HI = UD 0 y.HI
  LO₁ : UD 1 r'.LO = UD 0 y.LO

/-- The same for the destination; without one nothing is written. -/
def DestinationAgrees (r r' x y : CpuRegisters) : Prop :=
  if r.rd = 0 then r' = r ∧ x = r
  else UD 0 (r'.GPR r.rd) = UD 0 (x.GPR r.rd) ∧ UD 1 (r'.GPR r.rd) = UD 0 (y.GPR r.rd)

/-- From `r`, the parallel instruction agrees lane by lane with the scalar one. -/
def LanewiseAgree (p : WordPair) (r : CpuRegisters) : Prop :=
  ∃ r' x y, p.parallel.run r = some r' ∧ p.scalar.run r = some x ∧
    p.scalar.run r.wordsTwo = some y ∧
      if p.isShift then DestinationAgrees r r' x y else HalvesAgree r' x y

/-! ### Values of words -/

/-- A value of the words `k` of `LO`, `HI` and the sources. -/
def wordOp (op : U32 → U32 → U32 → U32 → U64) (r : CpuRegisters) (k : Nat) : U64 :=
  op (UL k r.LO) (UL k r.HI) (UL k (r.GPR r.rs)) (UL k (r.GPR r.rt))

section WordOp

variable (op : U32 → U32 → U32 → U32 → U64) (r : CpuRegisters)

/-- The state with the words 2 in the place of the words 0. -/
theorem UL_wordsTwo (x : U128) : UL 0 (Lanes.setLane 0 (UL 2 x) x) = UL 2 x :=
  lane_setLane_self 0 _ _

/-- Word 0 of a source. -/
theorem GPR_wordsTwo {m : Reg} (hm : m = r.rs ∨ m = r.rt) :
    UL 0 (r.wordsTwo.GPR m) = UL 2 (r.GPR m) := by
  have hG : r.wordsTwo.GPR m = Lanes.setLane 0 (UL 2 (r.GPR m)) (r.GPR m) := if_pos hm
  rw [hG, UL_wordsTwo]

/-- Its operations on the words 0 are those on the words 2. -/
theorem wordOp_wordsTwo : wordOp op r.wordsTwo 0 = wordOp op r 2 := by
  -- The operands of the two agree, and so do the accumulators.
  have hs : UL 0 (r.wordsTwo.GPR r.wordsTwo.rs) = UL 2 (r.GPR r.rs) := GPR_wordsTwo r (.inl rfl)
  have ht : UL 0 (r.wordsTwo.GPR r.wordsTwo.rt) = UL 2 (r.GPR r.rt) := GPR_wordsTwo r (.inr rfl)
  unfold wordOp
  rw [hs, ht]
  exact congrArg₂ (fun lo hi => op lo hi _ _) (UL_wordsTwo r.LO) (UL_wordsTwo r.HI)

/-- The words 2 are not touched by what lane 0 writes. -/
theorem wordOp_storeWide (v : U64) : wordOp op (storeWide r 0 v) 2 = wordOp op r 2 := by
  -- Lane 0 of 64 bits ends below word 2, in `HI`, in `LO` and in the destination.
  have hkeep : ∀ x : U128, ∀ u : U64, UL 2 (Lanes.setLane 0 u x) = UL 2 x := fun x u =>
    lane_setLane_of_disjoint 0 2 u x (.inr (by decide))
  have hGPR : ∀ m, UL 2 ((storeWide r 0 v).GPR m) = UL 2 (r.GPR m) := fun m =>
    lane_GPR_setRdAt _ m 0 2 v (.inr (by decide))
  have hs : (storeWide r 0 v).rs = r.rs := setRdAt_rs _ 0 v
  have ht : (storeWide r 0 v).rt = r.rt := setRdAt_rt _ 0 v
  unfold wordOp
  rw [storeWide_LO, storeWide_HI, hkeep, hkeep, hs, ht, hGPR, hGPR]

end WordOp

/-! ### The multiplications -/

section Wide

variable {r : CpuRegisters}

/-- A doubleword that was just written, and the other one. -/
theorem UD_setLane_self {d : Nat} (hd : d < 2) (v : U64) (x : U128) :
    UD d (Lanes.setLane d v x) = v :=
  lane_setLane_self d v x (by omega)

/-- The other doubleword stays. -/
theorem UD_setLane_of_ne {d k : Nat} (h : k ≠ d) (v : U64) (x : U128) :
    UD k (Lanes.setLane d v x) = UD k x :=
  lane_setLane_of_ne v x h

/-- The halves of two results agree if and only if the results are equal. -/
theorem halves_iff {v u : U64} : (highHalf v = highHalf u ∧ lowHalf v = lowHalf u) ↔ v = u := by
  constructor
  · rintro ⟨hhi, hlo⟩
    exact halves_inj hlo hhi
  · rintro rfl
    exact ⟨rfl, rfl⟩

/-- **The multiplications** agree if and only if both compute the same value of the words 0 and of
the words 2. -/
theorem wide_agree_iff (f g : U32 → U32 → U32 → U32 → U64) :
    HalvesAgree
        (storeWide (storeWide r 0 (wordOp f r 0)) 1 (wordOp f (storeWide r 0 (wordOp f r 0)) 2))
        (storeProduct r 0 (wordOp g r 0)) (storeProduct r.wordsTwo 0 (wordOp g r.wordsTwo 0)) ↔
      wordOp f r 0 = wordOp g r 0 ∧ wordOp f r 2 = wordOp g r 2 := by
  -- Both lanes start from the registers at entry, whatever the destination is.
  rw [wordOp_storeWide, wordOp_wordsTwo, ← halves_iff (v := wordOp f r 0),
    ← halves_iff (v := wordOp f r 2)]
  constructor
  · -- What was written is read back: lane 0 under the write to lane 1, lane 1 as it is.
    rintro ⟨hH₀, hL₀, hH₁, hL₁⟩
    rw [storeWide_HI, storeWide_HI, storeProduct_HI] at hH₀ hH₁
    rw [storeWide_LO, storeWide_LO, storeProduct_LO] at hL₀ hL₁
    rw [UD_setLane_of_ne (by decide), UD_setLane_self (by decide), UD_setLane_self (by decide)]
      at hH₀ hL₀
    rw [UD_setLane_self (by decide), UD_setLane_self (by decide)] at hH₁ hL₁
    exact ⟨⟨hH₀, hL₀⟩, hH₁, hL₁⟩
  · -- Conversely each half is what was written last.
    rintro ⟨⟨hH₀, hL₀⟩, hH₁, hL₁⟩
    constructor
    · rw [storeWide_HI, storeWide_HI, storeProduct_HI, UD_setLane_of_ne (by decide),
        UD_setLane_self (by decide), UD_setLane_self (by decide), hH₀]
    · rw [storeWide_LO, storeWide_LO, storeProduct_LO, UD_setLane_of_ne (by decide),
        UD_setLane_self (by decide), UD_setLane_self (by decide), hL₀]
    · rw [storeWide_HI, storeProduct_HI, UD_setLane_self (by decide), UD_setLane_self (by decide),
        hH₁]
    · rw [storeWide_LO, storeProduct_LO, UD_setLane_self (by decide), UD_setLane_self (by decide),
        hL₁]

/-- The bits of the accumulator of `MADD`. -/
theorem getLsbD_accumulator (r : CpuRegisters) (k : Nat) {i : Nat} (hi : i < 64) :
    (accumulator r k).getLsbD i =
      if i < 32 then (UL k r.LO).getLsbD i else (UL k r.HI).getLsbD (i - 32) := by
  have hlt : i - 32 < 64 := by omega
  unfold accumulator
  rw [BitVec.getLsbD_or, BitVec.getLsbD_shiftLeft, BitVec.getLsbD_setWidth, BitVec.getLsbD_setWidth]
  by_cases hlow : i < 32
  · simp [hlow, hi]
  · have hlo : (UL k r.LO).getLsbD i = false := BitVec.getLsbD_of_ge _ i (by omega)
    simp [hlow, hi, hlt, hlo]

/-- Those of `PMADDW`: the sign of the low word is in all the upper ones. -/
theorem getLsbD_accumulatorS (r : CpuRegisters) (k : Nat) {i : Nat} (hi : i < 64) :
    (accumulatorS r k).getLsbD i =
      if i < 32 then (UL k r.LO).getLsbD i
      else (UL k r.LO).msb || (UL k r.HI).getLsbD (i - 32) := by
  unfold accumulatorS
  rw [BitVec.getLsbD_or, BitVec.getLsbD_shiftLeft, BitVec.getLsbD_signExtend,
    BitVec.getLsbD_signExtend]
  by_cases hlow : i < 32
  · -- In the lower half both are the low word.
    simp [hlow, hi]
  · -- Above it the sign of the low word joins the high one.
    have hlt : i - 32 < 32 := by omega
    have hlt' : i - 32 < 64 := by omega
    simp [hlow, hi, hlt, hlt']

/-- The two ways to put the accumulator together. -/
theorem accumulatorS_eq_iff (r : CpuRegisters) (k : Nat) :
    accumulatorS r k = accumulator r k ↔ (UL k r.LO).msb = false ∨ UL k r.HI = 0xffffffff := by
  constructor
  · intro h
    by_contra hnot
    obtain ⟨hmsb, hhi⟩ := not_or.mp hnot
    rw [Bool.not_eq_false] at hmsb
    refine hhi ?_
    -- Every bit of the high word is the sign of the low one.
    have hones : UL k r.HI = BitVec.allOnes 32 := by
      apply BitVec.eq_of_getLsbD_eq
      intro i hi
      -- Compared at bit `i + 32`.
      have hbit := congrArg (fun x => x.getLsbD (i + 32)) h
      simp only [getLsbD_accumulator r k (show i + 32 < 64 by omega),
        getLsbD_accumulatorS r k (show i + 32 < 64 by omega), if_neg (show ¬i + 32 < 32 by omega),
        Nat.add_sub_cancel, hmsb, Bool.true_or] at hbit
      rw [← hbit, BitVec.getLsbD_allOnes, decide_eq_true hi]
    rw [hones]
    decide
  · intro h
    apply BitVec.eq_of_getLsbD_eq
    intro i hi
    rw [getLsbD_accumulator r k hi, getLsbD_accumulatorS r k hi]
    split
    · rfl
    · -- With a nonnegative low word there is nothing to join, and with ones it does not show.
      rcases h with hmsb | hhi
      · rw [hmsb, Bool.false_or]
      · have hbit : (UL k r.HI).getLsbD (i - 32) = true := by
          have hones : (0xffffffff : U32) = BitVec.allOnes 32 := by decide
          rw [hhi, hones, BitVec.getLsbD_allOnes]
          exact decide_eq_true (by omega)
        rw [hbit, Bool.or_true]

end Wide

/-! ### The shifts -/

section Shifts

variable {r : CpuRegisters}

/-- Doubleword `j` of the destination after an assignment to doubleword `k`. -/
theorem UD_GPR_setRdAt (hrd : r.rd ≠ 0) {j k : Nat} (hk : k < 2) (v : U64) :
    UD j ((r.setRdAt k v).GPR r.rd) = if j = k then v else UD j (r.GPR r.rd) := by
  unfold CpuRegisters.setRdAt CpuRegisters.setLane
  rw [if_neg hrd, setGPR_GPR_self]
  by_cases hj : j = k
  · subst hj
    rw [if_pos rfl, UD_setLane_self hk]
  · rw [if_neg hj, UD_setLane_of_ne hj]

/-- **The shifts** agree if and only if both compute the same value of the words 0 and of the words
2. -/
theorem shift_agree_iff (f g : U32 → U32 → U64) :
    DestinationAgrees r
        ((r.setRdAt 0 (f (UL 0 (r.GPR r.rs)) (UL 0 (r.GPR r.rt)))).setRdAt 1
          (f (UL 2 ((r.setRdAt 0 (f (UL 0 (r.GPR r.rs)) (UL 0 (r.GPR r.rt)))).GPR r.rs))
            (UL 2 ((r.setRdAt 0 (f (UL 0 (r.GPR r.rs)) (UL 0 (r.GPR r.rt)))).GPR r.rt))))
        (r.setRd (g (UL 0 (r.GPR r.rs)) (UL 0 (r.GPR r.rt))))
        (r.wordsTwo.setRd
          (g (UL 0 (r.wordsTwo.GPR r.rs)) (UL 0 (r.wordsTwo.GPR r.rt)))) ↔
      (r.rd = 0 ∨ f (UL 0 (r.GPR r.rs)) (UL 0 (r.GPR r.rt)) =
        g (UL 0 (r.GPR r.rs)) (UL 0 (r.GPR r.rt))) ∧
        (r.rd = 0 ∨ f (UL 2 (r.GPR r.rs)) (UL 2 (r.GPR r.rt)) =
          g (UL 2 (r.GPR r.rs)) (UL 2 (r.GPR r.rt))) := by
  have hkeep : ∀ (v : U64) (m : Reg), UL 2 ((r.setRdAt 0 v).GPR m) = UL 2 (r.GPR m) := fun v m =>
    lane_GPR_setRdAt r m 0 2 v (.inr (by decide))
  -- The second lane reads its operands after the write to the first doubleword.
  rw [hkeep, hkeep, GPR_wordsTwo r (.inl rfl), GPR_wordsTwo r (.inr rfl)]
  -- Only the four values matter from here on.
  generalize f (UL 0 (r.GPR r.rs)) (UL 0 (r.GPR r.rt)) = f₀
  generalize g (UL 0 (r.GPR r.rs)) (UL 0 (r.GPR r.rt)) = g₀
  generalize f (UL 2 (r.GPR r.rs)) (UL 2 (r.GPR r.rt)) = f₂
  generalize g (UL 2 (r.GPR r.rs)) (UL 2 (r.GPR r.rt)) = g₂
  unfold DestinationAgrees
  by_cases hrd : r.rd = 0
  · -- Without a destination nothing is written.
    have hnone : ∀ (k : Nat) (v : U64), r.setRdAt k v = r := fun k v => if_pos hrd
    rw [if_pos hrd, hnone, hnone]
    exact ⟨fun _ => ⟨.inl hrd, .inl hrd⟩, fun _ => ⟨rfl, hnone 0 g₀⟩⟩
  · -- Each doubleword of the destination is the last value written to it.
    have hrd' : (r.setRdAt 0 f₀).rd = r.rd := setRdAt_rd r 0 f₀
    have hlow := UD_GPR_setRdAt (r := r.setRdAt 0 f₀) (by rw [hrd']; exact hrd) (j := 0) (k := 1)
      (by decide) f₂
    have hhigh := UD_GPR_setRdAt (r := r.setRdAt 0 f₀) (by rw [hrd']; exact hrd) (j := 1) (k := 1)
      (by decide) f₂
    have hx := UD_GPR_setRdAt hrd (j := 0) (k := 0) (by decide) g₀
    have hy := UD_GPR_setRdAt (r := r.wordsTwo) hrd (j := 0) (k := 0) (by decide) g₂
    rw [hrd', if_neg (by decide), UD_GPR_setRdAt hrd (by decide), if_pos rfl] at hlow
    rw [hrd', if_pos rfl] at hhigh
    rw [if_pos rfl] at hx hy
    change UD 0 ((r.setRd g₀).GPR r.rd) = g₀ at hx
    change UD 0 ((r.wordsTwo.setRd g₂).GPR r.rd) = g₂ at hy
    rw [if_neg hrd, hlow, hhigh, hx, hy, or_iff_right hrd, or_iff_right hrd]

/-- A word that is shifted to the right has a sign only if it is shifted by zero. -/
theorem logical_shift_iff (s x : U32) :
    (x >>> (s &&& 0x1F).toNat).setWidth 64 = (x >>> (s &&& 0x1F).toNat).signExtend 64 ↔
      s &&& 0x1F ≠ 0 ∨ x.msb = false := by
  generalize s &&& 0x1F = n
  have hext := SignExtended.setWidth_iff (n := 64) (y := x >>> n.toNat) (by decide) (by decide)
  have hword : ∀ z : U32, (z.setWidth 64).setWidth 32 = z := fun z => by simp
  unfold SignExtended at hext
  rw [hword] at hext
  -- A shift by one or more clears the sign.
  have hzero : n ≠ 0 ↔ n.toNat ≠ 0 := by
    rw [ne_eq, ← BitVec.toNat_inj]
    rfl
  rw [hext, BitVec.msb_ushiftRight, hzero]
  by_cases hn : n.toNat = 0
  · simp [hn]
  · have hpos : 0 < n.toNat := by omega
    simp [hn, hpos]

end Shifts

/-! ### The divisions -/

section Divisions

variable {r : CpuRegisters}

/-- The quotients and remainders of the words 0 and of the words 2. -/
theorem div_agree (q₀ m₀ q₂ m₂ : U64) :
    HalvesAgree ((((r.setLOLane 0 q₀).setHILane 0 m₀).setLOLane 1 q₂).setHILane 1 m₂)
      ((r.setLOLane 0 q₀).setHILane 0 m₀) ((r.wordsTwo.setLOLane 0 q₂).setHILane 0 m₂) where
  HI₀ := UD_setLane_of_ne (by decide) _ _
  LO₀ := UD_setLane_of_ne (by decide) _ _
  HI₁ := (UD_setLane_self (by decide) _ _).trans (UD_setLane_self (by decide) _ _).symm
  LO₁ := (UD_setLane_self (by decide) _ _).trans (UD_setLane_self (by decide) _ _).symm

/-- The signed divisions agree where they are defined. -/
theorem PDIVW_agrees (h₀ : WordPair.PDIVW.Divides r 0) (h₂ : WordPair.PDIVW.Divides r 2) :
    LanewiseAgree .PDIVW r := by
  have hs : UL 0 (r.wordsTwo.GPR r.wordsTwo.rs) = UL 2 (r.GPR r.rs) := GPR_wordsTwo r (.inl rfl)
  have ht : UL 0 (r.wordsTwo.GPR r.wordsTwo.rt) = UL 2 (r.GPR r.rt) := GPR_wordsTwo r (.inr rfl)
  -- The scalar division of the words 0, that of the words 2, and then the two in a row.
  have hx := divideInto_of_divides (d := 0) h₀.1 h₀.2
  have hy := divideInto_of_divides (r := r.wordsTwo) (d := 0) (s := 0) (by rw [ht]; exact h₂.1)
    (by rw [hs, ht]; exact h₂.2)
  rw [hs, ht] at hy
  refine ⟨_, _, _, ?_, hx, hy, div_agree _ _ _ _⟩
  -- The handler divides one lane after the other.
  change (divideInto r 0 0).bind (fun r₁ => divideInto r₁ 1 2) = _
  rw [hx]
  exact divideInto_of_divides h₂.1 h₂.2

/-- So do the unsigned ones, with a divisor that is not zero. -/
theorem PDIVUW_agrees (h₀ : WordPair.PDIVUW.Divides r 0) (h₂ : WordPair.PDIVUW.Divides r 2) :
    LanewiseAgree .PDIVUW r := by
  have hs : UL 0 (r.wordsTwo.GPR r.wordsTwo.rs) = UL 2 (r.GPR r.rs) := GPR_wordsTwo r (.inl rfl)
  have ht : UL 0 (r.wordsTwo.GPR r.wordsTwo.rt) = UL 2 (r.GPR r.rt) := GPR_wordsTwo r (.inr rfl)
  have hx := divideIntoU_of_ne (r := r) (d := 0) h₀
  have hy := divideIntoU_of_ne (r := r.wordsTwo) (d := 0) (s := 0) (by rw [ht]; exact h₂)
  rw [hs, ht] at hy
  refine ⟨_, _, _, ?_, congrArg some hx, congrArg some hy, div_agree _ _ _ _⟩
  change some (divideIntoU (divideIntoU r 0 0) 1 2) = _
  rw [hx]
  exact congrArg some (divideIntoU_of_ne h₂)

end Divisions

/-! ### The nine pairs -/

/-- The definition once the three instructions have run. -/
theorem lanewiseAgree_iff {p : WordPair} {r r' x y : CpuRegisters}
    (hr' : p.parallel.run r = some r')
    (hx : p.scalar.run r = some x) (hy : p.scalar.run r.wordsTwo = some y) :
    LanewiseAgree p r ↔
      if p.isShift then DestinationAgrees r r' x y else HalvesAgree r' x y := by
  constructor
  · -- A run has one result, so those of the definition are the ones given.
    rintro ⟨_, _, _, h₁, h₂, h₃, hagree⟩
    rw [hr'] at h₁
    rw [hx] at h₂
    rw [hy] at h₃
    cases h₁
    cases h₂
    cases h₃
    exact hagree
  · exact fun hagree => ⟨r', x, y, hr', hx, hy, hagree⟩

/-- The multiplications, given what the two members compute from the words. -/
theorem multiplication_iff {p : WordPair} {r : CpuRegisters} (f g : U32 → U32 → U32 → U32 → U64)
    (hp : p.isShift = false)
    (hr' : p.parallel.run r =
      some (storeWide (storeWide r 0 (wordOp f r 0)) 1 (wordOp f (storeWide r 0 (wordOp f r 0)) 2)))
    (hx : ∀ x, p.scalar.run x = some (storeProduct x 0 (wordOp g x 0))) :
    LanewiseAgree p r ↔ wordOp f r 0 = wordOp g r 0 ∧ wordOp f r 2 = wordOp g r 2 := by
  rw [lanewiseAgree_iff hr' (hx r) (hx r.wordsTwo), hp]
  exact wide_agree_iff f g

/-- The shifts, given what the two members compute from the words. -/
theorem shift_iff {p : WordPair} {r : CpuRegisters} (f g : U32 → U32 → U64) (hp : p.isShift = true)
    (hr' : p.parallel.run r =
      some ((r.setRdAt 0 (f (UL 0 (r.GPR r.rs)) (UL 0 (r.GPR r.rt)))).setRdAt 1
        (f (UL 2 ((r.setRdAt 0 (f (UL 0 (r.GPR r.rs)) (UL 0 (r.GPR r.rt)))).GPR r.rs))
          (UL 2 ((r.setRdAt 0 (f (UL 0 (r.GPR r.rs)) (UL 0 (r.GPR r.rt)))).GPR r.rt)))))
    (hx : ∀ x, p.scalar.run x = some (x.setRd (g (UL 0 (x.GPR x.rs)) (UL 0 (x.GPR x.rt))))) :
    LanewiseAgree p r ↔
      (r.rd = 0 ∨ f (UL 0 (r.GPR r.rs)) (UL 0 (r.GPR r.rt)) =
        g (UL 0 (r.GPR r.rs)) (UL 0 (r.GPR r.rt))) ∧
      (r.rd = 0 ∨ f (UL 2 (r.GPR r.rs)) (UL 2 (r.GPR r.rt)) =
        g (UL 2 (r.GPR r.rs)) (UL 2 (r.GPR r.rt))) := by
  rw [lanewiseAgree_iff hr' (hx r) (hx r.wordsTwo), hp]
  exact shift_agree_iff f g

/-- **The parallel word instructions** agree lane by lane with their scalar forms if and only if, on
both pairs of words, `PMADDW` has a nonnegative low word in its accumulator or all ones in the high
one, and `PSRLVW` shifts by at least one or a nonnegative word. -/
theorem parallel_scalar_iff (p : WordPair) (r : CpuRegisters) (h₀ : p.Divides r 0)
    (h₂ : p.Divides r 2) : LanewiseAgree p r ↔ p.Fine r 0 ∧ p.Fine r 2 := by
  -- Where both compute the same function of the words, they agree.
  have hfine : ∀ {q : WordPair}, q.Fine r 0 → q.Fine r 2 → LanewiseAgree q r →
      (LanewiseAgree q r ↔ q.Fine r 0 ∧ q.Fine r 2) :=
    fun hz ht hagree => ⟨fun _ => ⟨hz, ht⟩, fun _ => hagree⟩
  cases p with
  | PMADDW =>
    refine (multiplication_iff
      (fun lo hi s t =>
        (lo.signExtend 64 ||| hi.signExtend 64 <<< 32) + s.signExtend 64 * t.signExtend 64)
      (fun lo hi s t =>
        (lo.setWidth 64 ||| hi.setWidth 64 <<< 32) + s.signExtend 64 * t.signExtend 64)
      rfl rfl fun _ => rfl).trans ?_
    -- The products are the same, and the accumulators decide.
    exact and_congr ((BitVec.add_left_inj (product r 0)).trans (accumulatorS_eq_iff r 0))
      ((BitVec.add_left_inj (product r 2)).trans (accumulatorS_eq_iff r 2))
  | PMADDUW =>
    let f : U32 → U32 → U32 → U32 → U64 := fun lo hi s t =>
      (lo.setWidth 64 ||| hi.setWidth 64 <<< 32) + s.setWidth 64 * t.setWidth 64
    exact hfine trivial trivial ((multiplication_iff f f rfl rfl fun _ => rfl).mpr ⟨rfl, rfl⟩)
  | PMULTW =>
    let f : U32 → U32 → U32 → U32 → U64 := fun _ _ s t => s.signExtend 64 * t.signExtend 64
    exact hfine trivial trivial ((multiplication_iff f f rfl rfl fun _ => rfl).mpr ⟨rfl, rfl⟩)
  | PMULTUW =>
    let f : U32 → U32 → U32 → U32 → U64 := fun _ _ s t => s.setWidth 64 * t.setWidth 64
    exact hfine trivial trivial ((multiplication_iff f f rfl rfl fun _ => rfl).mpr ⟨rfl, rfl⟩)
  | PDIVW => exact hfine trivial trivial (PDIVW_agrees h₀ h₂)
  | PDIVUW => exact hfine trivial trivial (PDIVUW_agrees h₀ h₂)
  | PSLLVW =>
    let f : U32 → U32 → U64 := fun s t => (t <<< (s &&& 0x1F).toNat).signExtend 64
    exact hfine trivial trivial ((shift_iff f f rfl rfl fun _ => rfl).mpr ⟨.inr rfl, .inr rfl⟩)
  | PSRLVW =>
    refine (shift_iff (fun s t => (t >>> (s &&& 0x1F).toNat).setWidth 64)
      (fun s t => (t >>> (s &&& 0x1F).toNat).signExtend 64) rfl rfl fun _ => rfl).trans ?_
    -- The shifted word is extended by zeros or by its sign.
    exact and_congr (or_congr_right (logical_shift_iff _ _))
      (or_congr_right (logical_shift_iff _ _))
  | PSRAVW =>
    let f : U32 → U32 → U64 := fun s t => (t.sshiftRight (s &&& 0x1F).toNat).signExtend 64
    exact hfine trivial trivial ((shift_iff f f rfl rfl fun _ => rfl).mpr ⟨.inr rfl, .inr rfl⟩)

/-- `PDIVW` of three by three in both lanes. -/
theorem parallel_scalar_pdivw :
    LanewiseAgree .PDIVW { CpuRegisters.zeroed 0 with GPR := fun _ => 0x30000000000000003 } :=
  (parallel_scalar_iff .PDIVW _ ⟨by decide, by decide⟩ ⟨by decide, by decide⟩).mpr
    ⟨trivial, trivial⟩

/-- `PMADDW` of zeros with `0x80000000` in the accumulator. -/
theorem not_parallel_scalar :
    ¬∀ (p : WordPair) (r : CpuRegisters), p.Divides r 0 → p.Divides r 2 → LanewiseAgree p r := by
  intro hall
  obtain ⟨r', x, y, hr', hx, -, hagree⟩ :=
    hall .PMADDW { CpuRegisters.zeroed 0 with LO := 0x80000000 } trivial trivial
  have hHI : UD 0 r'.HI = UD 0 x.HI := hagree.HI₀
  rw [← Option.some.inj hr', ← Option.some.inj hx] at hHI
  exact absurd hHI (by decide)

end Ps2Unpacker
