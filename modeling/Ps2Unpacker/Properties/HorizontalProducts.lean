import Mathlib.Tactic.IntervalCases
import Mathlib.Tactic.Linarith
import Mathlib.Tactic.NormNum
import Ps2Unpacker.Semantics.HiLo

/-!
# Horizontal sums of products

`PMULTH` multiplies the eight halfwords of its sources and leaves the products in the words of `LO`
and `HI`. `PHMADH` and `PHMSBH` should leave the sums and the differences of neighbouring products.
`PHMSBH` numbers the pairs by the halfwords 0, 2, 4, 6. `PHMADH` numbers them by the words of the
destination, 0, 1, 2, 3, and uses this number for the halfwords as well.

* `word_put`, `productH_put`: what one of the assignments changes, for a destination apart from the
  sources.
* `hiLoWords_PMULTH`, `word_horizontal`: what the three instructions leave.
* `horizontal_products_iff`: the operands for which the sums are those of the pairs.
-/

namespace Ps2Unpacker

open Lanes CpuRegisters

namespace Handler

variable {r : CpuRegisters} {hlr : HiLo} {j k n : Nat} {rdd : Option Nat} {v : U32}

/-! ### One assignment -/

/-- A word of `HI` or `LO` and a word of the destination become `v`. -/
def put (hlr : HiLo) (k : Nat) (rdd : Option Nat) (v : U32) (r : CpuRegisters) : CpuRegisters :=
  match rdd with
  | some j => (hlr.write k v r).setRdAt j v
  | none => hlr.write k v r

/-- An accumulation, as an assignment of its result. -/
theorem accumulateH_eq (op : U32 → U32 → U32) (hlr : HiLo) (k n : Nat) (rdd : Option Nat)
    (r : CpuRegisters) :
    accumulateH op hlr k n rdd r = put hlr k rdd (op (UL k (hlr.read r)) (productH r n)) r := by
  cases rdd <;> rfl

/-- A write to `HI` or `LO` leaves the instruction word and the general registers. -/
theorem write_code (hlr : HiLo) (k : Nat) (v : U32) (r : CpuRegisters) :
    (hlr.write k v r).code = r.code := by
  cases hlr <;> rfl

theorem write_GPR (hlr : HiLo) (k : Nat) (v : U32) (r : CpuRegisters) :
    (hlr.write k v r).GPR = r.GPR := by
  cases hlr <;> rfl

/-- The assignment leaves the instruction word, and with it the fields. -/
@[simp] theorem put_code (hlr : HiLo) (k : Nat) (rdd : Option Nat) (v : U32) (r : CpuRegisters) :
    (put hlr k rdd v r).code = r.code := by
  cases rdd with
  | none => exact write_code hlr k v r
  | some j => exact (setRdAt_code _ j v).trans (write_code hlr k v r)

@[simp] theorem put_rd (hlr : HiLo) (k : Nat) (rdd : Option Nat) (v : U32) (r : CpuRegisters) :
    (put hlr k rdd v r).rd = r.rd :=
  congrArg (fun code => code.extractLsb' 11 5) (put_code hlr k rdd v r)

/-- `rs` -/
@[simp] theorem put_rs (hlr : HiLo) (k : Nat) (rdd : Option Nat) (v : U32) (r : CpuRegisters) :
    (put hlr k rdd v r).rs = r.rs :=
  congrArg (fun code => code.extractLsb' 21 5) (put_code hlr k rdd v r)

@[simp] theorem put_rt (hlr : HiLo) (k : Nat) (rdd : Option Nat) (v : U32) (r : CpuRegisters) :
    (put hlr k rdd v r).rt = r.rt :=
  congrArg (fun code => code.extractLsb' 16 5) (put_code hlr k rdd v r)

/-- A register other than the destination. -/
theorem put_GPR_of_ne {m : Reg} (hm : m ≠ r.rd) :
    (put hlr k rdd v r).GPR m = r.GPR m := by
  cases rdd with
  | none => exact congrFun (write_GPR hlr k v r) m
  | some j =>
    have hrd : (hlr.write k v r).rd = r.rd :=
      congrArg (fun code => code.extractLsb' 11 5) (write_code hlr k v r)
    exact (setRdAt_GPR_of_ne _ (by rwa [hrd]) j v).trans (congrFun (write_GPR hlr k v r) m)

/-- The products of sources that are apart from the destination. -/
theorem productH_put (hs : r.rs ≠ r.rd) (ht : r.rt ≠ r.rd) :
    productH (put hlr k rdd v r) n = productH r n := by
  unfold productH
  rw [put_rs, put_rt, put_GPR_of_ne hs, put_GPR_of_ne ht]

/-- The words of `HI` and `LO`. -/
theorem word_put {hlr' : HiLo} (hk : k < 4) :
    UL j (hlr'.read (put hlr k rdd v r)) =
      if hlr' = hlr ∧ j = k then v else UL j (hlr'.read r) := by
  -- A write to the destination does not reach `HI` and `LO`.
  have hread : hlr'.read (put hlr k rdd v r) = hlr'.read (hlr.write k v r) := by
    cases rdd with
    | none => rfl
    | some i =>
      cases hlr' with
      | HI => exact setRdAt_HI _ i v
      | LO => exact setRdAt_LO _ i v
  -- The word that was written holds `v`, and the others stay.
  have hlane : ∀ x : U128, UL j (Lanes.setLane k v x) = if j = k then v else UL j x := by
    intro x
    by_cases hj : j = k
    · subst hj
      rw [if_pos rfl, UL, lane_setLane_self j v x (by omega)]
    · rw [if_neg hj, UL, lane_setLane_of_ne v x hj]
  rw [hread]
  cases hlr' <;> cases hlr <;> simp [HiLo.read, HiLo.write, CpuRegisters.setHILane,
    CpuRegisters.setLOLane, hlane]

/-- The words of the destination. -/
theorem UL_GPR_put (hrd : r.rd ≠ 0) (hfit : ∀ i, rdd = some i → i < 4) :
    UL j ((put hlr k rdd v r).GPR r.rd) = if rdd = some j then v else UL j (r.GPR r.rd) := by
  cases rdd with
  | none => exact congrArg (UL j) (congrFun (write_GPR hlr k v r) r.rd)
  | some i =>
    have hi := hfit i rfl
    have hcode : (hlr.write k v r).rd = r.rd :=
      congrArg (fun code => code.extractLsb' 11 5) (write_code hlr k v r)
    change UL j (((hlr.write k v r).setRdAt i v).GPR r.rd) = _
    unfold CpuRegisters.setRdAt CpuRegisters.setLane
    rw [hcode, if_neg hrd, setGPR_GPR_self, write_GPR]
    -- The word that was assigned, or another one.
    by_cases hj : j = i
    · subst hj
      rw [if_pos rfl, UL, lane_setLane_self j v _ (by omega)]
    · rw [if_neg fun h => hj (Option.some.inj h).symm, UL, lane_setLane_of_ne v _ hj]

/-! ### The three instructions -/

/-- One step of `PMULTH`. -/
theorem accumulateH_product (hlr : HiLo) (k n : Nat) (rdd : Option Nat) (r : CpuRegisters) :
    accumulateH (fun _ p => p) hlr k n rdd r = put hlr k rdd (productH r n) r :=
  accumulateH_eq _ hlr k n rdd r

/-- **The products** of the halfwords, in order. -/
theorem hiLoWords_PMULTH (hs : r.rs ≠ r.rd) (ht : r.rt ≠ r.rd) :
    (PMULTH r).hiLoWords = (List.range 8).map (productH r) := by
  -- The eight products are those of `r`, since the destination is apart from the sources.
  have hPMULTH : PMULTH r = put .HI 3 none (productH r 7) (put .HI 2 (some 3) (productH r 6)
      (put .LO 3 none (productH r 5) (put .LO 2 (some 2) (productH r 4)
        (put .HI 1 none (productH r 3) (put .HI 0 (some 1) (productH r 2)
          (put .LO 1 none (productH r 1) (put .LO 0 (some 0) (productH r 0) r))))))) := by
    unfold PMULTH accumulateAllH
    simp only [accumulateH_product, productH_put, put_rs, put_rt, put_rd, ne_eq, hs, ht,
      not_false_eq_true]
  -- The order in which the words of `LO` and `HI` are read is that of the products.
  change [UL 0 (HiLo.LO.read (PMULTH r)), UL 1 (HiLo.LO.read (PMULTH r)),
    UL 0 (HiLo.HI.read (PMULTH r)), UL 1 (HiLo.HI.read (PMULTH r)),
    UL 2 (HiLo.LO.read (PMULTH r)), UL 3 (HiLo.LO.read (PMULTH r)),
    UL 2 (HiLo.HI.read (PMULTH r)), UL 3 (HiLo.HI.read (PMULTH r))] = _
  rw [hPMULTH]
  simp [word_put, List.range_succ]

/-- The four results of `PHMADH` and `PHMSBH`, given the values assigned. -/
structure Leaves (r' : CpuRegisters) (d : Reg) (v : Nat → U32) : Prop where
  LO₀ : UL 0 r'.LO = v 0
  HI₀ : UL 0 r'.HI = v 1
  LO₂ : UL 2 r'.LO = v 2
  HI₂ : UL 2 r'.HI = v 3
  GPR : d ≠ 0 → ∀ k, k < 4 → UL k (r'.GPR d) = v k

/-- Four assignments leave four words, twice. -/
theorem leaves_put (v : Nat → U32) (r : CpuRegisters) :
    Leaves (put .HI 2 (some 3) (v 3) (put .LO 2 (some 2) (v 2) (put .HI 0 (some 1) (v 1)
      (put .LO 0 (some 0) (v 0) r)))) r.rd v where
  LO₀ := by
    change UL 0 (HiLo.LO.read _) = v 0
    simp [word_put]
  HI₀ := by
    change UL 0 (HiLo.HI.read _) = v 1
    simp [word_put]
  LO₂ := by
    change UL 2 (HiLo.LO.read _) = v 2
    simp [word_put]
  HI₂ := by
    change UL 2 (HiLo.HI.read _) = v 3
    simp [word_put]
  GPR hrd k hk := by
    -- Each of the four assignments also writes a word of its own in the destination.
    have hput : ∀ {x : CpuRegisters} {hlr : HiLo} {m i : Nat} {u : U32}, x.rd = r.rd → i < 4 →
        UL k ((put hlr m (some i) u x).GPR r.rd) = if i = k then u else UL k (x.GPR r.rd) := by
      intro x hlr m i u hx hi
      rw [← hx, UL_GPR_put (by rwa [hx]) fun j hj => by
        obtain rfl := Option.some.inj hj
        exact hi]
      exact if_congr Option.some_inj rfl rfl
    rw [hput (by simp) (by decide), hput (by simp) (by decide), hput (by simp) (by decide),
      hput rfl (by decide)]
    interval_cases k <;> rfl

/-- What is left is determined. -/
theorem Leaves.iff {r' : CpuRegisters} {d : Reg} {v u : Nat → U32} (h : Leaves r' d v) :
    Leaves r' d u ↔ ∀ k, k < 4 → v k = u k := by
  constructor
  · intro h' k hk
    interval_cases k
    · exact h.LO₀.symm.trans h'.LO₀
    · exact h.HI₀.symm.trans h'.HI₀
    · exact h.LO₂.symm.trans h'.LO₂
    · exact h.HI₂.symm.trans h'.HI₂
  · intro heq
    exact ⟨h.LO₀.trans (heq 0 (by decide)), h.HI₀.trans (heq 1 (by decide)),
      h.LO₂.trans (heq 2 (by decide)), h.HI₂.trans (heq 3 (by decide)),
      fun hd k hk => (h.GPR hd k hk).trans (heq k hk)⟩

/-- One step of `PHMADH` or `PHMSBH`. -/
theorem horizontalH_eq (op : U32 → U32 → U32) (hlr : HiLo) (dd n j : Nat) (r : CpuRegisters) :
    horizontalH op hlr dd n j r =
      put hlr dd (some j) (op (productH r (n + 1)) (productH r n)) r := rfl

/-- **`PHMADH`** adds the products of the halfwords `k + 1` and `k`. -/
theorem leaves_PHMADH (hs : r.rs ≠ r.rd) (ht : r.rt ≠ r.rd) :
    Leaves (PHMADH r) r.rd fun k => productH r (k + 1) + productH r k := by
  -- The four steps are assignments of products of the registers at the start.
  have hput := leaves_put (fun k => productH r (k + 1) + productH r k) r
  unfold PHMADH
  simp only [horizontalH_eq, productH_put, put_rs, put_rt, put_rd, ne_eq, hs, ht,
    not_false_eq_true]
  exact hput

/-- **`PHMSBH`** subtracts those of the halfwords `2 * k + 1` and `2 * k`. -/
theorem leaves_PHMSBH (hs : r.rs ≠ r.rd) (ht : r.rt ≠ r.rd) :
    Leaves (PHMSBH r) r.rd fun k => productH r (2 * k + 1) - productH r (2 * k) := by
  have hput := leaves_put (fun k => productH r (2 * k + 1) - productH r (2 * k)) r
  unfold PHMSBH
  simp only [horizontalH_eq, productH_put, put_rs, put_rt, put_rd, ne_eq, hs, ht,
    not_false_eq_true]
  exact hput

end Handler

/-! ### Products as numbers -/

section Products

variable (r : CpuRegisters)

/-- The product of the signed halfwords `n`. -/
def CpuRegisters.halfwordProduct (n : Nat) : Int :=
  (US n (r.GPR r.rs)).toInt * (US n (r.GPR r.rt)).toInt

/-- A halfword product, as a number. -/
theorem productH_eq_ofInt (n : Nat) :
    Handler.productH r n = BitVec.ofInt 32 (r.halfwordProduct n) := by
  unfold CpuRegisters.halfwordProduct
  rw [BitVec.ofInt_mul]
  rfl

/-- The largest product is that of the most negative halfword by itself. -/
theorem halfwordProduct_le (n : Nat) : r.halfwordProduct n ≤ 2 ^ 30 :=
  BitVec.toInt_mul_toInt_le

/-- Only the most negative halfword has the largest absolute value. -/
theorem lt_halfwordProduct (n : Nat) : -2 ^ 30 < r.halfwordProduct n := by
  unfold CpuRegisters.halfwordProduct
  have hs := (US n (r.GPR r.rs)).le_toInt
  have hs' := (US n (r.GPR r.rs)).toInt_lt
  have ht := (US n (r.GPR r.rt)).le_toInt
  have ht' := (US n (r.GPR r.rt)).toInt_lt
  -- Both factors lie between `-2 ^ 15` and `2 ^ 15 - 1`; by the sign of one of them.
  norm_num at hs hs' ht ht'
  generalize (US n (r.GPR r.rs)).toInt = x at *
  generalize (US n (r.GPR r.rt)).toInt = y at *
  rcases Int.le_total 0 y with hy | hy
  · nlinarith
  · nlinarith

/-- Sums of two products are equal as words only if they are equal. -/
theorem add_products_eq_iff (a b c d : Nat) :
    Handler.productH r a + Handler.productH r b = Handler.productH r c + Handler.productH r d ↔
      r.halfwordProduct a + r.halfwordProduct b = r.halfwordProduct c + r.halfwordProduct d := by
  -- Sums of two products stay within `2 ^ 31` of zero.
  have hbound : ∀ n, -2 ^ 30 < r.halfwordProduct n ∧ r.halfwordProduct n ≤ 2 ^ 30 := fun n =>
    ⟨lt_halfwordProduct r n, halfwordProduct_le r n⟩
  have ha := hbound a
  have hb := hbound b
  have hc := hbound c
  have hd := hbound d
  rw [productH_eq_ofInt, productH_eq_ofInt, productH_eq_ofInt, productH_eq_ofInt,
    ← BitVec.ofInt_add, ← BitVec.ofInt_add]
  constructor
  · intro h
    -- The sums are equal modulo `2 ^ 32`, and both are closer to zero than half of it.
    have hmod := congrArg BitVec.toNat h
    rw [BitVec.toNat_ofInt, BitVec.toNat_ofInt] at hmod
    omega
  · intro h
    rw [h]

end Products

/-! ### The agreement -/

/-- The instruction `o` leaves `op` of the products `2 * k + 1` and `2 * k` that `PMULTH` leaves. -/
def HorizontalAgrees (o : RegOp) (op : U32 → U32 → U32) (r : CpuRegisters) : Prop :=
  ∃ p r', RegOp.PMULTH.run r = some p ∧ o.run r = some r' ∧
    Handler.Leaves r' r.rd fun k =>
      op (p.hiLoWords.getD (2 * k + 1) 0) (p.hiLoWords.getD (2 * k) 0)

open Handler in
/-- What is left, in terms of the products. -/
theorem horizontalAgrees_iff {o : RegOp} {op : U32 → U32 → U32} {r r' : CpuRegisters}
    {v : Nat → U32} (hs : r.rs ≠ r.rd) (ht : r.rt ≠ r.rd) (hrun : o.run r = some r')
    (hv : Leaves r' r.rd v) :
    HorizontalAgrees o op r ↔
      ∀ k, k < 4 → v k = op (productH r (2 * k + 1)) (productH r (2 * k)) := by
  -- The words that `PMULTH` leaves are the products.
  have hwords : ∀ k, k < 8 → (PMULTH r).hiLoWords.getD k 0 = productH r k := by
    intro k hk
    rw [hiLoWords_PMULTH hs ht, List.getD_eq_getElem?_getD]
    simp [hk]
  have hiff : (∀ k, k < 4 → v k = op ((PMULTH r).hiLoWords.getD (2 * k + 1) 0)
      ((PMULTH r).hiLoWords.getD (2 * k) 0)) ↔
      ∀ k, k < 4 → v k = op (productH r (2 * k + 1)) (productH r (2 * k)) := by
    refine forall_congr' fun k => imp_congr_right fun hk => ?_
    rw [hwords _ (by omega), hwords _ (by omega)]
  rw [← hiff, ← hv.iff]
  constructor
  · -- Both instructions are defined, so there is one result of each to compare.
    rintro ⟨p, x, hp, hx, h⟩
    obtain rfl : PMULTH r = p := Option.some.inj hp
    obtain rfl := Option.some.inj (hx.symm.trans hrun)
    exact h
  · exact fun h => ⟨PMULTH r, r', rfl, hrun, h⟩

open Handler in
/-- **Horizontal sums and differences.** `PHMSBH` leaves the differences of the pairs of products,
and both instructions leave what they should if and only if the sums that `PHMADH` takes happen to
be those of the pairs. -/
theorem horizontal_products_iff (r : CpuRegisters) (hs : r.rd ≠ r.rs) (ht : r.rd ≠ r.rt) :
    HorizontalAgrees .PHMSBH (fun p q => p - q) r ∧
    (HorizontalAgrees .PHMADH (fun p q => p + q) r ∧
        HorizontalAgrees .PHMSBH (fun p q => p - q) r ↔
      r.halfwordProduct 1 = r.halfwordProduct 3 ∧
      r.halfwordProduct 2 + r.halfwordProduct 3 = r.halfwordProduct 4 + r.halfwordProduct 5 ∧
      r.halfwordProduct 3 + r.halfwordProduct 4 = r.halfwordProduct 6 + r.halfwordProduct 7) := by
  have hsub : HorizontalAgrees .PHMSBH (fun p q => p - q) r :=
    (horizontalAgrees_iff hs.symm ht.symm rfl (leaves_PHMSBH hs.symm ht.symm)).mpr fun _ _ => rfl
  refine ⟨hsub, (and_iff_left hsub).trans ?_⟩
  rw [horizontalAgrees_iff hs.symm ht.symm rfl (leaves_PHMADH hs.symm ht.symm)]
  -- Pair 0 is taken right, and of the other three the sums have to coincide.
  have h₁ := add_products_eq_iff r 2 1 3 2
  have h₂ := add_products_eq_iff r 3 2 5 4
  have h₃ := add_products_eq_iff r 4 3 7 6
  constructor
  · -- The three sums, read as equations between the products.
    intro h
    have e₁ := h₁.mp (h 1 (by decide))
    have e₂ := h₂.mp (h 2 (by decide))
    have e₃ := h₃.mp (h 3 (by decide))
    omega
  · rintro ⟨e₁, e₂, e₃⟩ k hk
    interval_cases k
    · rfl
    · exact h₁.mpr (by omega)
    · exact h₂.mpr (by omega)
    · exact h₃.mpr (by omega)

/-- `PHMADH r1, r2, r3` of ones, and `PHMSBH`. -/
theorem horizontal_products_ones :
    HorizontalAgrees .PHMADH (fun p q => p + q) { CpuRegisters.zeroed 0 with
        code := 0x70430c49, GPR := fun _ => 0x00010001000100010001000100010001 } ∧
      HorizontalAgrees .PHMSBH (fun p q => p - q) { CpuRegisters.zeroed 0 with
        code := 0x70430c49, GPR := fun _ => 0x00010001000100010001000100010001 } :=
  (horizontal_products_iff { CpuRegisters.zeroed 0 with
    code := 0x70430c49, GPR := fun _ => 0x00010001000100010001000100010001 } (by decide)
    (by decide)).2.mpr ⟨by decide, by decide, by decide⟩

/-- `PHMADH r1, r2, r3` of ones in halfword 1 and zeros elsewhere. -/
theorem not_horizontal_products :
    ¬∀ r : CpuRegisters, r.rd ≠ r.rs → r.rd ≠ r.rt →
      HorizontalAgrees .PHMADH (fun p q => p + q) r ∧
        HorizontalAgrees .PHMSBH (fun p q => p - q) r := by
  intro hall
  obtain ⟨p, r', hp, hr', hleaves⟩ := (hall { CpuRegisters.zeroed 0 with
    code := 0x70430c49, GPR := fun _ => 0x00000000000000000000000000010000 } (by decide)
    (by decide)).1
  have hHI := hleaves.HI₀
  rw [← Option.some.inj hp, ← Option.some.inj hr'] at hHI
  exact absurd hHI (by decide)

end Ps2Unpacker
