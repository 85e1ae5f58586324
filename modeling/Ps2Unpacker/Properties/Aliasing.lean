import Mathlib.Tactic.IntervalCases
import Ps2Unpacker.Semantics.Decode
import Ps2Unpacker.Semantics.Lanewise

/-!
# Register aliasing in the multimedia instructions

A multimedia instruction should compute all lanes of its destination from the registers before it,
also when the destination is one of its sources: the same as if the sources were first copied
elsewhere. Most handlers read a lane before they write it. `PMADDH`, `PMSUBH`, `PMULTH` and `PHMADH`
write a word of the destination and then read a halfword inside it, and `QFSRV` assembles its result
in the destination.

* `decode_withSources`: replacing the source fields of a multimedia word does not change the
  instruction.
* `sameAsCopies_of_aliasSafe`: where `AliasSafe` holds, aliasing changes nothing, for all contents.
* `not_sameAsCopies`: where it does not, some contents show it.
* `aliasing_iff`: the two together, for every multimedia instruction with a general destination.
-/

namespace Ps2Unpacker

open Lanes CpuRegisters

/-! ### Copies of the sources -/

/-- The instruction word with other source fields. -/
def withSources (cs ct : Reg) (code : U32) : U32 :=
  (code &&& 0xfc00ffff) ||| cs.setWidth 32 <<< 21 ||| ct.setWidth 32 <<< 16

/-- The sources are copied to `cs` and `ct`, and the instruction takes them from there. -/
def CpuRegisters.copy (cs ct : Reg) (r : CpuRegisters) : CpuRegisters :=
  { (r.setGPR cs (r.GPR r.rs)).setGPR ct (r.GPR r.rt) with code := withSources cs ct r.code }

/-- The instruction `o` writes the same values to its destination, `HI` and `LO` as with copies of
its sources. -/
def SameAsCopies (o : RegOp) (cs ct : Reg) (r : CpuRegisters) : Prop :=
  decode (r.copy cs ct).code = .register o ∧
    ∃ r' c', o.run r = some r' ∧ o.run (r.copy cs ct) = some c' ∧ Agree r.rd r' c'

section Fields

variable (cs ct : Reg) (code : U32)

/-- Outside of the two fields the word stays. -/
theorem getLsbD_withSources {i : Nat} (h : i < 16 ∨ 26 ≤ i) :
    (withSources cs ct code).getLsbD i = code.getLsbD i := by
  by_cases hi : i < 32
  · unfold withSources
    interval_cases i <;> first | omega | simp
  · rw [BitVec.getLsbD_of_ge _ i (by omega), BitVec.getLsbD_of_ge _ i (by omega)]

/-- The fields other than the sources. -/
theorem extract_withSources {k n : Nat} (h : k + n ≤ 16 ∨ 26 ≤ k) :
    (withSources cs ct code).extractLsb' k n = code.extractLsb' k n := by
  apply BitVec.eq_of_getLsbD_eq
  intro i hi
  rw [BitVec.getLsbD_extractLsb', BitVec.getLsbD_extractLsb',
    getLsbD_withSources cs ct code (by omega)]

/-- The fields `rs` and `rt` are the registers of the two copies. -/
theorem rs_withSources : (withSources cs ct code).extractLsb' 21 5 = cs := by
  apply BitVec.eq_of_getLsbD_eq
  intro i hi
  unfold withSources
  interval_cases i <;> simp

theorem rt_withSources : (withSources cs ct code).extractLsb' 16 5 = ct := by
  apply BitVec.eq_of_getLsbD_eq
  intro i hi
  unfold withSources
  interval_cases i <;> simp

end Fields

/-- A multimedia word is decoded without its register fields. -/
theorem decode_withSources (cs ct : Reg) {code : U32} (h : code.extractLsb' 26 6 = 28) :
    decode (withSources cs ct code) = decode code := by
  have hop : (withSources cs ct code).extractLsb' 26 6 = 28 := by
    rw [extract_withSources cs ct code (.inr (by decide)), h]
  rw [decode_mmi hop, decode_mmi h, extract_withSources cs ct code (.inl (by decide)),
    extract_withSources cs ct code (.inl (by decide))]

/-! ### The view of the copies -/

section Copies

variable {r : CpuRegisters} {cs ct : Reg}

/-- The destination of the copy. -/
theorem copy_rd (r : CpuRegisters) : (r.copy cs ct).rd = r.rd :=
  extract_withSources cs ct r.code (.inl (by decide))

theorem copy_saField (r : CpuRegisters) : (r.copy cs ct).saField = r.saField :=
  extract_withSources cs ct r.code (.inl (by decide))

theorem copy_rs (r : CpuRegisters) : (r.copy cs ct).rs = cs := rs_withSources cs ct r.code

theorem copy_rt (r : CpuRegisters) : (r.copy cs ct).rt = ct := rt_withSources cs ct r.code

/-- The registers of the copy. -/
theorem copy_GPR (r : CpuRegisters) (j : Reg) :
    (r.copy cs ct).GPR j =
      if j = ct then r.GPR r.rt else if j = cs then r.GPR r.rs else r.GPR j := rfl

/-- The registers `cs` and `ct` can take the copies. -/
structure CopiesTo (r : CpuRegisters) (cs ct : Reg) : Prop where
  rs : cs ≠ r.rd
  rt : ct ≠ r.rd
  ne : cs ≠ ct

theorem copy_sameView (hrd : r.rd ≠ 0) (h : CopiesTo r cs ct) : SameView r.rd r (r.copy cs ct) where
  -- `CopiesTo` keeps the destination out of the copies, so its old lanes agree.
  GPR := by rw [copy_GPR, if_neg (Ne.symm h.rt), if_neg (Ne.symm h.rs)]
  HI := rfl
  LO := rfl
  rd := rfl
  rd' := copy_rd r
  nonzero := hrd
  rs i _ := by rw [copy_rs, copy_GPR, if_neg h.ne, if_pos rfl]
  rt i _ := by rw [copy_rt, copy_GPR, if_pos rfl]
  saField := (copy_saField r).symm
  sa := rfl

/-- The copies are never the destination. -/
theorem copy_aliasSafe {o : RegOp} (h : CopiesTo r cs ct) (hsa : o = .QFSRV → r.sa ≠ 64) :
    o.AliasSafe (r.copy cs ct) := by
  have hs : (r.copy cs ct).rs ≠ (r.copy cs ct).rd := by
    rw [copy_rs, copy_rd]
    exact h.rs
  have ht : (r.copy cs ct).rt ≠ (r.copy cs ct).rd := by
    rw [copy_rt, copy_rd]
    exact h.rt
  -- The safe cases ask for sources apart from `rd`, or bound the shift amount.
  cases o with
  | PMADDH | PMSUBH | PMULTH | PHMADH => exact ⟨hs, ht⟩
  | QFSRV =>
    have hne := hsa rfl
    by_cases hlt : r.sa < 64
    · exact .inr (.inl ⟨hlt, hs, ht⟩)
    · exact .inr (.inr ⟨by change 64 < r.sa; bv_omega, hs⟩)
  | _ => trivial

/-- A safe instruction does the same on copies of its sources. -/
theorem sameAsCopies_of_aliasSafe {o : RegOp} (hop : r.code.extractLsb' 26 6 = 28)
    (ho : decode r.code = .register o) (hmm : o.multimedia) (hrd : r.rd ≠ 0) (hsa : r.sa < 128)
    (h : CopiesTo r cs ct) (hsafe : o.AliasSafe r) : SameAsCopies o cs ct r := by
  refine ⟨(decode_withSources cs ct hop).trans ho, ?_⟩
  -- The two registers agree on all that the handler reads before it writes.
  refine RegOp.run_agree hmm (copy_sameView hrd h) hsa hsafe (copy_aliasSafe h ?_)
  rintro rfl h64
  -- Each of the safe cases bounds the amount away from 64.
  rcases hsafe with hs | ⟨hs, -⟩ | ⟨hs, -⟩
  · rw [h64] at hs
    exact absurd hs (by decide)
  · rw [h64] at hs
    exact absurd hs (by decide)
  · rw [h64] at hs
    exact absurd hs (by decide)

end Copies

/-! ### Contents that show the aliasing -/

/-- All general registers hold `x`, `HI` and `LO` zero. -/
def CpuRegisters.uniform (x : U128) (r : CpuRegisters) : CpuRegisters :=
  { r with GPR := fun _ => x, HI := 0, LO := 0 }

section Uniform

variable {r : CpuRegisters} {cs ct : Reg}

/-- Where all registers are equal, so are the copies. -/
theorem uniform_copy (x : U128) (r : CpuRegisters) (cs ct : Reg) (j : Reg) :
    ((r.uniform x).copy cs ct).GPR j = x := by
  rw [copy_GPR]
  split
  · rfl
  · split <;> rfl

section Halfwords

open Handler

/-- The word of `LO` that one step accumulates into. -/
theorem LO_accumulateH (op : U32 → U32 → U32) (k n : Nat) (rdd : Option Nat) (r : CpuRegisters) :
    (accumulateH op .LO k n rdd r).LO =
      Lanes.setLane k (op (UL k r.LO) (productH r n)) r.LO := by
  cases rdd with
  | none => rfl
  | some i => exact setRdAt_LO _ i _

/-- An assignment to another word of `LO`. -/
theorem UL_LO_accumulateH_of_ne (op : U32 → U32 → U32) {j k : Nat} (hj : j ≠ k) (n : Nat)
    (rdd : Option Nat) (r : CpuRegisters) :
    UL j (accumulateH op .LO k n rdd r).LO = UL j r.LO := by
  rw [LO_accumulateH]
  exact lane_setLane_of_ne _ _ hj

/-- An assignment to `HI` keeps `LO`. -/
theorem LO_accumulateH_HI (op : U32 → U32 → U32) (k n : Nat) (rdd : Option Nat) (r : CpuRegisters) :
    (accumulateH op .HI k n rdd r).LO = r.LO := by
  cases rdd with
  | none => rfl
  | some j => exact setRdAt_LO _ j _

/-- Word 1 of `LO` comes from the second assignment, which reads halfword 1 of the sources after
word 0 of the destination was written. -/
theorem UL_LO_accumulateAllH (op : U32 → U32 → U32) (r : CpuRegisters) :
    UL 1 (accumulateAllH op r).LO =
      op (UL 1 r.LO) (productH (accumulateH op .LO 0 0 (some 0) r) 1) := by
  have hsecond : ∀ x : CpuRegisters, UL 1 (accumulateH op .LO 1 1 none x).LO =
      op (UL 1 x.LO) (productH x 1) := fun x => lane_setLane_self 1 _ _
  unfold accumulateAllH
  rw [LO_accumulateH_HI, LO_accumulateH_HI, UL_LO_accumulateH_of_ne op (by decide),
    UL_LO_accumulateH_of_ne op (by decide), LO_accumulateH_HI, LO_accumulateH_HI, hsecond,
    UL_LO_accumulateH_of_ne op (by decide)]

/-- Halfword 1 is one and the others are zero. -/
def oneHalf : U128 := 0x10000

/-- The assignment of a halfword handler to word 0 of `LO` and of the destination. -/
theorem setWordZero_GPR {r : CpuRegisters} (hrd : r.rd ≠ 0) (v : U32) (m : Reg) :
    ((r.setLOLane 0 v).setRdAt 0 v).GPR m =
      if m = r.rd then Lanes.setLane 0 v (r.GPR r.rd) else r.GPR m := by
  have hwrite : ∀ x : CpuRegisters, x.rd ≠ 0 →
      (x.setRdAt 0 v).GPR m = if m = x.rd then Lanes.setLane 0 v (x.GPR x.rd) else x.GPR m := by
    intro x hx
    unfold CpuRegisters.setRdAt
    rw [if_neg hx]
    exact setGPR_GPR _ _ _ _
  exact hwrite (r.setLOLane 0 v) hrd

/-- A word without an upper half leaves no halfword in an aliased source. -/
theorem productH_aliased {v : U32}
    (hv : (US 1 (Lanes.setLane 0 v oneHalf)).signExtend 32 = (0 : U32))
    (hrd : r.rd ≠ 0) (halias : r.rs = r.rd ∨ r.rt = r.rd) :
    productH (((r.uniform oneHalf).setLOLane 0 v).setRdAt 0 v) 1 = 0 := by
  have hGPR := setWordZero_GPR (r := r.uniform oneHalf) hrd v
  unfold productH
  rw [setRdAt_rs, setRdAt_rt, hGPR, hGPR]
  -- One factor is enough: halfword 1 of the aliased source has been overwritten by zero.
  rcases halias with hs | ht
  · rw [if_pos (show ((r.uniform oneHalf).setLOLane 0 v).rs = (r.uniform oneHalf).rd from hs)]
    exact (congrArg (· * _) hv).trans BitVec.zero_mul
  · rw [if_pos (show ((r.uniform oneHalf).setLOLane 0 v).rt = (r.uniform oneHalf).rd from ht)]
    exact (congrArg (_ * ·) hv).trans BitVec.mul_zero

/-- The copies keep their halfwords. -/
theorem productH_copied (v : U32) (hrd : r.rd ≠ 0) (h : CopiesTo r cs ct) :
    productH ((((r.uniform oneHalf).copy cs ct).setLOLane 0 v).setRdAt 0 v) 1 = 1 := by
  have hrd' : ((r.uniform oneHalf).copy cs ct).rd = r.rd := copy_rd _
  have hs : ((r.uniform oneHalf).copy cs ct).rs ≠ ((r.uniform oneHalf).copy cs ct).rd := by
    rw [hrd', copy_rs]
    exact h.rs
  -- Neither copy is the register that was written.
  have ht : ((r.uniform oneHalf).copy cs ct).rt ≠ ((r.uniform oneHalf).copy cs ct).rd := by
    rw [hrd', copy_rt]
    exact h.rt
  have hGPR := setWordZero_GPR (r := (r.uniform oneHalf).copy cs ct) (by rw [hrd']; exact hrd) v
  unfold productH
  rw [setRdAt_rs, setRdAt_rt, hGPR, hGPR]
  rw [if_neg (show (((r.uniform oneHalf).copy cs ct).setLOLane 0 v).rs ≠ _ from hs),
    if_neg (show (((r.uniform oneHalf).copy cs ct).setLOLane 0 v).rt ≠ _ from ht), uniform_copy,
    uniform_copy]
  decide

/-- The halfwords of a uniform state. -/
theorem productH_uniform (x : U128) (n : Nat) :
    productH (r.uniform x) n = (US n x).signExtend 32 * (US n x).signExtend 32 := rfl

/-- The same for the copies. -/
theorem productH_uniform_copy (x : U128) (n : Nat) :
    productH ((r.uniform x).copy cs ct) n = (US n x).signExtend 32 * (US n x).signExtend 32 := by
  unfold productH
  rw [uniform_copy, uniform_copy]

/-- `PMADDH`, `PMSUBH` and `PMULTH` with an aliased destination lose the product of the halfwords 1.
-/
theorem accumulateAllH_aliased {f : U32 → U32 → U32} (hzero : f 0 0 = 0) (hone : f 0 1 ≠ 0)
    (hrd : r.rd ≠ 0) (halias : r.rs = r.rd ∨ r.rt = r.rd) (h : CopiesTo r cs ct) :
    (accumulateAllH f (r.uniform oneHalf)).LO ≠
      (accumulateAllH f ((r.uniform oneHalf).copy cs ct)).LO := by
  -- The first assignment writes `f 0 0`, which is zero, over the halfwords 0 and 1.
  have htemp : f (UL 0 (r.uniform oneHalf).LO) (productH (r.uniform oneHalf) 0) = 0 := by
    have hlo : UL 0 (r.uniform oneHalf).LO = 0 := by
      change UL 0 (0 : U128) = 0
      decide
    have hprod : productH (r.uniform oneHalf) 0 = 0 := by
      rw [productH_uniform]
      decide
    rw [hlo, hprod, hzero]
  have hfirst : productH (accumulateH f .LO 0 0 (some 0) (r.uniform oneHalf)) 1 = 0 := by
    refine productH_aliased ?_ hrd halias
    change (US 1 (Lanes.setLane 0 (f (UL 0 (r.uniform oneHalf).LO) _) oneHalf)).signExtend 32 = _
    rw [htemp]
    decide
  -- The copies still hold halfword 1, so their second product is one.
  have hcopy : productH (accumulateH f .LO 0 0 (some 0) ((r.uniform oneHalf).copy cs ct)) 1 = 1 :=
    productH_copied _ hrd h
  have hlo : UL 1 (0 : U128) = 0 := by decide
  intro heq
  have hword := congrArg (UL 1) heq
  rw [UL_LO_accumulateAllH, UL_LO_accumulateAllH, hfirst, hcopy] at hword
  -- Word 1 of `LO` is the second result, which separates the two.
  change f (UL 1 (0 : U128)) 0 = f (UL 1 (0 : U128)) 1 at hword
  rw [hlo, hzero] at hword
  exact hone hword.symm

/-- Word 0 of `HI` comes from the second assignment of `PHMADH`. -/
theorem UL_HI_PHMADH (r : CpuRegisters) :
    UL 0 (PHMADH r).HI =
      productH (horizontalH (fun p q => p + q) .LO 0 0 0 r) 2 +
        productH (horizontalH (fun p q => p + q) .LO 0 0 0 r) 1 := by
  -- An assignment to `LO` leaves `HI`, and one to `HI` replaces a word of it.
  have hlo : ∀ (dd n rdd : Nat) (x : CpuRegisters),
      (horizontalH (fun p q => p + q) .LO dd n rdd x).HI = x.HI :=
    fun dd n rdd x => setRdAt_HI _ rdd _
  have hhi : ∀ (dd n rdd : Nat) (x : CpuRegisters),
      (horizontalH (fun p q => p + q) .HI dd n rdd x).HI =
        Lanes.setLane dd (productH x (n + 1) + productH x n) x.HI :=
    fun dd n rdd x => setRdAt_HI _ rdd _
  unfold PHMADH
  rw [hhi, UL, lane_setLane_of_ne _ _ (by decide), hlo, hhi]
  exact lane_setLane_self 0 _ _

/-- `PHMADH` with an aliased destination loses the product of the halfwords 1 as well. -/
theorem PHMADH_aliased (hrd : r.rd ≠ 0) (halias : r.rs = r.rd ∨ r.rt = r.rd)
    (h : CopiesTo r cs ct) :
    (PHMADH (r.uniform oneHalf)).HI ≠ (PHMADH ((r.uniform oneHalf).copy cs ct)).HI := by
  have hsecond : ∀ (v : U32) (x : CpuRegisters),
      productH ((x.setLOLane 0 v).setRdAt 0 v) 2 = productH x 2 := by
    intro v x
    unfold productH
    rw [setRdAt_rs, setRdAt_rt]
    -- Halfword 2 lies in word 1, which the assignment to word 0 leaves alone.
    have hread : ∀ m, US 2 (((x.setLOLane 0 v).setRdAt 0 v).GPR m) = US 2 (x.GPR m) := fun m =>
      lane_GPR_setRdAt (x.setLOLane 0 v) m 0 2 v (.inr (by decide))
    rw [hread, hread]
    rfl
  have hfirst : productH (horizontalH (fun p q => p + q) .LO 0 0 0 (r.uniform oneHalf)) 1 = 0 := by
    refine productH_aliased ?_ hrd halias
    change (US 1 (Lanes.setLane 0 (productH (r.uniform oneHalf) (0 + 1) + _)
      oneHalf)).signExtend 32 = _
    rw [productH_uniform, productH_uniform]
    decide
  have hcopy : productH (horizontalH (fun p q => p + q) .LO 0 0 0
      ((r.uniform oneHalf).copy cs ct)) 1 = 1 := productH_copied _ hrd h
  -- The other product of the sum is the same in both, and zero.
  have htwo : productH (horizontalH (fun p q => p + q) .LO 0 0 0 (r.uniform oneHalf)) 2 = 0 := by
    refine (hsecond _ _).trans ?_
    rw [productH_uniform]
    decide
  have htwo' : productH (horizontalH (fun p q => p + q) .LO 0 0 0
      ((r.uniform oneHalf).copy cs ct)) 2 = 0 := by
    refine (hsecond _ _).trans ?_
    rw [productH_uniform_copy]
    decide
  intro heq
  -- Word 0 of `HI` is zero with the aliasing, and one with the copies.
  have hword := congrArg (UL 0) heq
  rw [UL_HI_PHMADH, UL_HI_PHMADH, hfirst, hcopy, htwo, htwo'] at hword
  exact absurd hword (by decide)

end Halfwords

/-! ### The funnel shift -/

section Funnel

open Handler

/-- A doubleword after a doubleword was assigned. -/
theorem UD_GPR_setLane (i m : Reg) {j k : Nat} (hk : k < 2) (v : U64) (r : CpuRegisters) :
    UD j ((r.setLane i k v).GPR m) = if m = i ∧ j = k then v else UD j (r.GPR m) := by
  by_cases hm : m = i
  · subst hm
    unfold CpuRegisters.setLane
    -- The destination: the assigned doubleword is new, the other one old.
    rw [setGPR_GPR_self]
    by_cases hj : j = k
    · subst hj
      rw [if_pos ⟨rfl, rfl⟩]
      exact lane_setLane_self j v _ (by omega)
    · rw [if_neg (fun h => hj h.2)]
      exact lane_setLane_of_ne v _ hj
  · -- Any other register is untouched.
    rw [if_neg (fun h => hm h.1)]
    unfold CpuRegisters.setLane
    rw [setGPR_GPR_of_ne _ r hm]

/-- Below 64 the second source is read again after both doublewords were written, the first one
after doubleword 0 was. -/
theorem QFSRV_low (hrd : r.rd ≠ 0) (hne : r.sa ≠ 0) (hlt : r.sa < 64) :
    ∃ r', QFSRV r = some r' ∧
      UD 0 (r'.GPR r.rd) = (UD 0 (r.GPR r.rt) >>> r.sa.toNat |||
        (if r.rt = r.rd then UD 1 (r.GPR r.rt) >>> r.sa.toNat else UD 1 (r.GPR r.rt))
          <<< (64 - r.sa).toNat) ∧
      UD 1 (r'.GPR r.rd) = (UD 1 (r.GPR r.rt) >>> r.sa.toNat |||
        (if r.rs = r.rd then UD 0 (r'.GPR r.rd) else UD 0 (r.GPR r.rs)) <<< (64 - r.sa).toNat) := by
  unfold QFSRV
  rw [if_neg hrd, if_neg hne, if_pos hlt]
  refine ⟨_, rfl, ?_, ?_⟩
  · -- Four assignments to `rd`; each doubleword is read through the ones behind it.
    simp only [UD_GPR_setLane _ _ (show 0 < 2 by decide), UD_GPR_setLane _ _ (show 1 < 2 by decide)]
    simp
  · simp only [UD_GPR_setLane _ _ (show 0 < 2 by decide), UD_GPR_setLane _ _ (show 1 < 2 by decide)]
    -- The first source is the destination, or it has not been written.
    by_cases hs : r.rs = r.rd
    · simp [hs]
    · simp [hs]

/-- Above 64 the first source is read again after each of the assignments. -/
theorem QFSRV_high (hrd : r.rd ≠ 0) (hgt : 64 < r.sa) (hlt : r.sa < 128) :
    ∃ r', QFSRV r = some r' ∧
      UD 0 (r'.GPR r.rd) = (UD 1 (r.GPR r.rt) >>> (r.sa - 64).toNat |||
        (if r.rs = r.rd then UD 1 (r.GPR r.rt) >>> (r.sa - 64).toNat else UD 0 (r.GPR r.rs))
          <<< (128 - r.sa).toNat) ∧
      UD 1 (r'.GPR r.rd) =
        if r.rs = r.rd then
          UD 1 (r.GPR r.rt) >>> (r.sa - 64).toNat >>> (r.sa - 64).toNat |||
            (UD 1 (r.GPR r.rt) >>> (r.sa - 64).toNat >>> (r.sa - 64).toNat) <<< (128 - r.sa).toNat
        else UD 0 (r.GPR r.rs) >>> (r.sa - 64).toNat |||
          UD 1 (r.GPR r.rs) <<< (128 - r.sa).toNat := by
  unfold QFSRV
  rw [if_neg hrd, if_neg (by bv_omega), if_neg (by bv_omega), if_pos ⟨hgt, hlt⟩]
  refine ⟨_, rfl, ?_, ?_⟩
  · simp only [UD_GPR_setLane _ _ (show 0 < 2 by decide), UD_GPR_setLane _ _ (show 1 < 2 by decide)]
    by_cases hs : r.rs = r.rd
    · simp [hs]
    · simp [hs]
  · simp only [UD_GPR_setLane _ _ (show 0 < 2 by decide), UD_GPR_setLane _ _ (show 1 < 2 by decide)]
    -- With `rs = rd` the last two assignments read what the first two wrote.
    by_cases hs : r.rs = r.rd
    · simp [hs]
    · simp [hs]

/-- At 64 a doubleword would be shifted by 64 bits. -/
theorem QFSRV_sixtyFour (hrd : r.rd ≠ 0) (hsa : r.sa = 64) : QFSRV r = none := by
  unfold QFSRV
  rw [if_neg hrd, hsa]
  rfl

/-- Both doublewords are one. -/
def bothOnes : U128 := 0x10000000000000001

/-- A one is shifted out. -/
theorem one_ushiftRight {n : Nat} (hn : 0 < n) : (1 : U64) >>> n = 0#64 := by
  apply BitVec.eq_of_toNat_eq
  rw [BitVec.toNat_ushiftRight, Nat.shiftRight_eq_div_pow]
  exact Nat.div_eq_of_lt (Nat.one_lt_two_pow (by omega))

/-- The bit a shifted one has and a twice shifted one has not. -/
theorem one_shiftLeft_bit {n : Nat} (hn : n < 64) : ((1 : U64) <<< n).getLsbD n = true := by
  simp [hn]

/-- Shifted twice, it is no longer at its first place. -/
theorem one_shiftLeft_twice_bit {n : Nat} (hn : 0 < n) :
    ((1 : U64) <<< n <<< n).getLsbD n = false := by
  simp
  omega

/-- The funnel shift of `bothOnes` by less than 64. -/
theorem QFSRV_low_ones (hs : r.GPR r.rs = bothOnes) (ht : r.GPR r.rt = bothOnes) (hrd : r.rd ≠ 0)
    (hne : r.sa ≠ 0) (hlt : r.sa < 64) :
    ∃ r', QFSRV r = some r' ∧
      UD 0 (r'.GPR r.rd) = (if r.rt = r.rd then 0#64 else 1) <<< (64 - r.sa).toNat ∧
      UD 1 (r'.GPR r.rd) =
        (if r.rs = r.rd then UD 0 (r'.GPR r.rd) else 1) <<< (64 - r.sa).toNat := by
  obtain ⟨r', hr', hzero, hone⟩ := QFSRV_low hrd hne hlt
  -- A one is shifted out to the right, so only the part shifted left is left.
  have hshift : (1 : U64) >>> r.sa.toNat = 0#64 := one_ushiftRight (by bv_omega)
  have hones : UD 0 bothOnes = 1 ∧ UD 1 bothOnes = 1 := by decide
  rw [ht, hones.1, hones.2, hshift] at hzero
  rw [hs, ht, hones.1, hones.2, hshift] at hone
  exact ⟨r', hr', hzero.trans BitVec.zero_or, hone.trans BitVec.zero_or⟩

/-- The funnel shift by less than 64 with an aliased destination. -/
theorem QFSRV_low_aliased (hrd : r.rd ≠ 0) (hne : r.sa ≠ 0) (hlt : r.sa < 64)
    (halias : r.rs = r.rd ∨ r.rt = r.rd) (h : CopiesTo r cs ct) :
    ¬SameAsCopies .QFSRV cs ct (r.uniform bothOnes) := by
  rintro ⟨-, r', c', hr, hc, hagree⟩
  have hm : 0 < (64 - r.sa).toNat := by bv_omega
  have hbit := one_shiftLeft_bit (n := (64 - r.sa).toNat) (by bv_omega)
  obtain ⟨_, hr', hzero, hone⟩ := QFSRV_low_ones (r := r.uniform bothOnes) rfl rfl hrd hne hlt
  obtain rfl : r' = _ := Option.some.inj (hr.symm.trans hr')
  change UD 0 (r'.GPR r.rd) = (if r.rt = r.rd then 0#64 else 1) <<< (64 - r.sa).toNat at hzero
  change UD 1 (r'.GPR r.rd) =
    (if r.rs = r.rd then UD 0 (r'.GPR r.rd) else 1) <<< (64 - r.sa).toNat at hone
  -- With the copies both doublewords are a shifted one.
  have hrd' : ((r.uniform bothOnes).copy cs ct).rd = r.rd := copy_rd _
  obtain ⟨_, hc', hzero', hone'⟩ := QFSRV_low_ones (r := (r.uniform bothOnes).copy cs ct)
    (uniform_copy _ _ _ _ _) (uniform_copy _ _ _ _ _) (by rw [hrd']; exact hrd) hne hlt
  obtain rfl : c' = _ := Option.some.inj (hc.symm.trans hc')
  rw [hrd', copy_rt, if_neg h.rt] at hzero'
  rw [hrd', copy_rs, if_neg h.rs] at hone'
  have hG : r'.GPR r.rd = c'.GPR r.rd := hagree.GPR
  by_cases ht : r.rt = r.rd
  · -- The second source was overwritten: doubleword 0 has lost its bit.
    rw [if_pos ht, hG] at hzero
    have hb := congrArg (fun x => x.getLsbD (64 - r.sa).toNat) (hzero'.symm.trans hzero)
    exact absurd (hbit.symm.trans hb) (by simp)
  · have hs : r.rs = r.rd := halias.resolve_right ht
    -- Only the first source was overwritten: doubleword 1 is shifted twice.
    rw [if_neg ht] at hzero
    rw [if_pos hs, hzero, hG] at hone
    have hb := congrArg (fun x => x.getLsbD (64 - r.sa).toNat) (hone'.symm.trans hone)
    exact absurd (hbit.symm.trans (hb.trans (one_shiftLeft_twice_bit hm))) (by decide)

/-- The funnel shift by more than 64 with the destination as first source. -/
theorem QFSRV_high_aliased (hrd : r.rd ≠ 0) (hgt : 64 < r.sa) (hlt : r.sa < 128)
    (halias : r.rs = r.rd) (h : CopiesTo r cs ct) :
    ¬SameAsCopies .QFSRV cs ct (r.uniform bothOnes) := by
  rintro ⟨-, r', c', hr, hc, hagree⟩
  have hshift : (1 : U64) >>> (r.sa - 64).toNat = 0#64 := one_ushiftRight (by bv_omega)
  have hones : UD 0 bothOnes = 1 ∧ UD 1 bothOnes = 1 := by decide
  have hbit := one_shiftLeft_bit (n := (128 - r.sa).toNat) (by bv_omega)
  -- With the aliasing the upper doubleword is lost,
  obtain ⟨_, hr', -, hone⟩ := QFSRV_high (r := r.uniform bothOnes) hrd hgt hlt
  obtain rfl : r' = _ := Option.some.inj (hr.symm.trans hr')
  rw [if_pos (show (r.uniform bothOnes).rs = (r.uniform bothOnes).rd from halias)] at hone
  change UD 1 (r'.GPR r.rd) = UD 1 bothOnes >>> (r.sa - 64).toNat >>> (r.sa - 64).toNat |||
    (UD 1 bothOnes >>> (r.sa - 64).toNat >>> (r.sa - 64).toNat) <<< (128 - r.sa).toNat at hone
  rw [hones.2, hshift, BitVec.zero_ushiftRight, BitVec.zero_shiftLeft, BitVec.zero_or] at hone
  -- The copies keep the upper doubleword of the first source.
  have hrd' : ((r.uniform bothOnes).copy cs ct).rd = r.rd := copy_rd _
  obtain ⟨_, hc', -, hone'⟩ := QFSRV_high (r := (r.uniform bothOnes).copy cs ct)
    (by rw [hrd']; exact hrd) hgt hlt
  obtain rfl : c' = _ := Option.some.inj (hc.symm.trans hc')
  rw [hrd', copy_rs, if_neg h.rs, uniform_copy] at hone'
  change UD 1 (c'.GPR r.rd) = UD 0 bothOnes >>> (r.sa - 64).toNat |||
    UD 1 bothOnes <<< (128 - r.sa).toNat at hone'
  rw [hones.1, hones.2, hshift, BitVec.zero_or] at hone'
  -- and the bit at `128 - sa` tells the two apart.
  have hG : r'.GPR r.rd = c'.GPR r.rd := hagree.GPR
  rw [hG] at hone
  have hb := congrArg (fun x => x.getLsbD (128 - r.sa).toNat) (hone'.symm.trans hone)
  exact absurd (hbit.symm.trans hb) (by simp)

end Funnel

/-! ### When aliasing changes nothing -/

/-- **Some contents show the aliasing** of an instruction that is not safe. -/
theorem not_sameAsCopies {o : RegOp} (hrd : r.rd ≠ 0) (hsa : r.sa < 128) (h : CopiesTo r cs ct)
    (hnotsafe : ¬o.AliasSafe r) : ∃ x, ¬SameAsCopies o cs ct (r.uniform x) := by
  -- The handlers that accumulate differ in `LO`, `PHMADH` in `HI`.
  have hhalf : ∀ {op : U32 → U32 → U32}, ¬(r.rs ≠ r.rd ∧ r.rt ≠ r.rd) → op 0 0 = 0 → op 0 1 ≠ 0 →
      (Handler.accumulateAllH op (r.uniform oneHalf)).LO ≠
        (Handler.accumulateAllH op ((r.uniform oneHalf).copy cs ct)).LO :=
    fun hne hzero hone => accumulateAllH_aliased hzero hone hrd (by tauto) h
  cases o with
  | PMADDH | PMSUBH | PMULTH =>
    -- The halfwords `oneHalf` show it in `LO`,
    refine ⟨oneHalf, ?_⟩
    rintro ⟨-, r', c', hr, hc, hagree⟩
    have hLO := hagree.LO
    rw [← Option.some.inj hr, ← Option.some.inj hc] at hLO
    exact hhalf hnotsafe (by decide) (by decide) hLO
  | PHMADH =>
    -- in `HI`,
    refine ⟨oneHalf, ?_⟩
    rintro ⟨-, r', c', hr, hc, hagree⟩
    have hHI := hagree.HI
    rw [← Option.some.inj hr, ← Option.some.inj hc] at hHI
    have halias : ¬(r.rs ≠ r.rd ∧ r.rt ≠ r.rd) := hnotsafe
    exact PHMADH_aliased hrd (by tauto) h hHI
  | QFSRV =>
    have hne : r.sa ≠ 0 := fun h0 => hnotsafe (.inl h0)
    -- and the doublewords `bothOnes` in `rd`.
    refine ⟨bothOnes, ?_⟩
    rcases BitVec.lt_trichotomy r.sa 64 with hlt | heq | hgt
    · have halias : ¬(r.rs ≠ r.rd ∧ r.rt ≠ r.rd) := fun hne => hnotsafe (.inr (.inl ⟨hlt, hne⟩))
      exact QFSRV_low_aliased hrd hne hlt (by tauto) h
    · -- A doubleword would be shifted by 64.
      rintro ⟨-, r', -, hr, -⟩
      exact absurd ((QFSRV_sixtyFour (r := r.uniform bothOnes) hrd heq).symm.trans hr) (by simp)
    · have halias : ¬r.rs ≠ r.rd := fun hne => hnotsafe (.inr (.inr ⟨hgt, hne⟩))
      exact QFSRV_high_aliased hrd hgt hsa (not_not.mp halias) h
  | _ => exact absurd trivial hnotsafe

end Uniform

section Aliasing

variable {r : CpuRegisters} {o : RegOp} {cs ct : Reg}

/-- **Register aliasing** changes nothing, for all register contents, if and only if the instruction
does not read a part of a source that it has already written. -/
theorem aliasing_iff (hop : r.code.extractLsb' 26 6 = 28) (ho : decode r.code = .register o)
    (hdest : o.writesNoGPR = false) (hrd : r.rd ≠ 0) (hsa : r.sa < 128) (h : CopiesTo r cs ct) :
    (∀ x : CpuRegisters, x.code = r.code → x.sa = r.sa → SameAsCopies o cs ct x) ↔
      o.AliasSafe r := by
  constructor
  · intro hall
    by_contra hnotsafe
    -- The contents that show it have the same word and shift amount.
    obtain ⟨x, hx⟩ := not_sameAsCopies hrd hsa h hnotsafe
    exact hx (hall (r.uniform x) rfl rfl)
  · intro hsafe x hcode hsa'
    -- A word of class MMI with a destination is a multimedia instruction.
    have hmm : o.multimedia := by
      have hin := decodeMMI_inMMI (r.code.extractLsb' 0 6) (r.code.extractLsb' 6 5)
      rw [← decode_mmi hop, ho] at hin
      have hor : (o.multimedia || o.writesNoGPR) = true := hin
      rwa [hdest, Bool.or_false] at hor
    -- Equal words have equal fields, so the other contents are safe as well.
    have hfields : x.rd = r.rd ∧ x.rs = r.rs ∧ x.rt = r.rt := by
      unfold CpuRegisters.rd CpuRegisters.rs CpuRegisters.rt
      rw [hcode]
      exact ⟨rfl, rfl, rfl⟩
    obtain ⟨hd, hs, ht⟩ := hfields
    have hsafe' : o.AliasSafe x := by
      unfold RegOp.AliasSafe at hsafe ⊢
      rwa [hd, hs, ht, hsa']
    refine sameAsCopies_of_aliasSafe (by rw [hcode]; exact hop) (by rw [hcode]; exact ho) hmm
      (by rw [hd]; exact hrd) (by rw [hsa']; exact hsa) ⟨?_, ?_, h.ne⟩ hsafe'
    · rw [hd]
      exact h.rs
    · rw [hd]
      exact h.rt

/-- `PADDW r1, r1, r1` adds the register, which holds 5 here, to itself. -/
theorem aliasing_paddw :
    SameAsCopies .PADDW 2 3 { (CpuRegisters.zeroed 0).setGPR 1 5 with code := 0x70210808 } :=
  (aliasing_iff (r := { CpuRegisters.zeroed 0 with code := 0x70210808 }) (o := .PADDW) (by decide)
    (by decide) rfl (by decide) (by decide) ⟨by decide, by decide, by decide⟩).mpr trivial _ rfl rfl

/-- `PMULTH r1, r1, r2` with a one in halfword 1 of both sources. -/
theorem not_aliasing :
    ¬∀ (r : CpuRegisters) (o : RegOp) (cs ct : Reg), r.code.extractLsb' 26 6 = 28 →
      decode r.code = .register o → o.writesNoGPR = false → r.rd ≠ 0 → r.sa < 128 →
      CopiesTo r cs ct → SameAsCopies o cs ct r := by
  intro hall
  let r : CpuRegisters := { CpuRegisters.zeroed 0 with code := 0x70220f09 }
  have hcopies : CopiesTo r 3 4 := ⟨by decide, by decide, by decide⟩
  -- All premises hold for this word, and the accumulated product differs.
  obtain ⟨-, r', c', hr, hc, hagree⟩ := hall (r.uniform oneHalf) .PMULTH 3 4 (by decide) (by decide)
    rfl (by decide) (by decide) ⟨by decide, by decide, by decide⟩
  have hLO := hagree.LO
  rw [← Option.some.inj hr, ← Option.some.inj hc] at hLO
  exact accumulateAllH_aliased (f := fun _ p => p) rfl (by decide) (by decide) (.inl (by decide))
    hcopies hLO

end Aliasing

end Ps2Unpacker
