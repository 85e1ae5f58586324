import Ps2Unpacker.Machine.InterTables

/-!
# Computations on registers are quiet

Every handler that computes on registers alone writes only general registers other than `r0`, and
`HI` and `LO`. The handlers fall into a few shapes (an assignment to `rd` or `rt`, an element-wise
macro, a shuffle, a product, a division), and each shape has one lemma; `RegOp.run_quiet` goes
through the table with them.
-/

namespace Ps2Unpacker

open CpuRegisters

namespace Handler

variable {r r' : CpuRegisters}

/-- A product is written quietly, to `HI`, `LO` and `rd`. -/
theorem storeProduct_quiet (h : Quiet r r') (d : Nat) (res : U64) :
    Quiet r (storeProduct r' d res) :=
  ((h.setLOLane d _).setHILane d _).setRd _

theorem storeWide_quiet (h : Quiet r r') (dd : Nat) (temp : U64) : Quiet r (storeWide r' dd temp) :=
  ((h.setLOLane dd _).setHILane dd _).setRdAt dd temp

/-- Divisions that are defined write `HI` and `LO` at most. -/
theorem divideInto_quiet (dd ss : Nat) {w : CpuRegisters} (h : Quiet r r')
    (hw : divideInto r' dd ss = some w) : Quiet r w := by
  dsimp only [divideInto] at hw
  split at hw
  · cases hw; exact h
  · split at hw
    · cases hw; exact (h.setLOLane dd _).setHILane dd _
    · cases hw

theorem divideIntoU_quiet (h : Quiet r r') (dd ss : Nat) : Quiet r (divideIntoU r' dd ss) := by
  dsimp only [divideIntoU]
  split
  · exact h
  · exact (h.setLOLane dd _).setHILane dd _

theorem write_quiet (h : Quiet r r') (hlr : HiLo) (k : Nat) (v : U32) :
    Quiet r (hlr.write k v r') := by
  cases hlr with
  | HI => exact h.setHILane k v
  | LO => exact h.setLOLane k v

theorem accumulateH_quiet (h : Quiet r r') (op : U32 → U32 → U32) (hlr : HiLo) (k n : Nat)
    (rdd : Option Nat) : Quiet r (accumulateH op hlr k n rdd r') := by
  cases rdd with
  | none => exact write_quiet h hlr k _
  | some j => exact (write_quiet h hlr k _).setRdAt j _

/-- All eight of them. -/
theorem accumulateAllH_quiet (op : U32 → U32 → U32) : Quiet r (accumulateAllH op r) := by
  unfold accumulateAllH
  -- One step for each of the eight halfwords; every other one also writes a word of `rd`.
  have h₁ := accumulateH_quiet (.refl r) op .LO 0 0 (some 0)
  have h₂ := accumulateH_quiet h₁ op .LO 1 1 none
  have h₃ := accumulateH_quiet h₂ op .HI 0 2 (some 1)
  have h₄ := accumulateH_quiet h₃ op .HI 1 3 none
  have h₅ := accumulateH_quiet h₄ op .LO 2 4 (some 2)
  have h₆ := accumulateH_quiet h₅ op .LO 3 5 none
  have h₇ := accumulateH_quiet h₆ op .HI 2 6 (some 3)
  exact accumulateH_quiet h₇ op .HI 3 7 none

theorem horizontalH_quiet (h : Quiet r r') (op : U32 → U32 → U32) (hlr : HiLo) (dd n rdd : Nat) :
    Quiet r (horizontalH op hlr dd n rdd r') :=
  (write_quiet h hlr dd _).setRdAt rdd _

theorem pdivbw_quiet (n : Nat) {w : CpuRegisters} (h : Quiet r r') (hw : pdivbw r' n = some w) :
    Quiet r w := by
  dsimp only [pdivbw] at hw
  split at hw
  · cases hw; exact (h.setLOLane n _).setHILane n _
  · cases hw

theorem PDIVW_quiet (h : PDIVW r = some r') : Quiet r r' := by
  obtain ⟨r₁, h₁, h₂⟩ := Option.bind_eq_some_iff.mp h
  exact divideInto_quiet 1 2 (divideInto_quiet 0 0 (.refl r) h₁) h₂

theorem PDIVBW_quiet (h : PDIVBW r = some r') : Quiet r r' := by
  unfold PDIVBW at h
  split at h
  · cases h; exact .refl r
  · -- Each division starts from the registers the one before it left.
    obtain ⟨r₁, h₁, h⟩ := Option.bind_eq_some_iff.mp h
    obtain ⟨r₂, h₂, h⟩ := Option.bind_eq_some_iff.mp h
    obtain ⟨r₃, h₃, h₄⟩ := Option.bind_eq_some_iff.mp h
    have q₁ := pdivbw_quiet 0 (.refl r) h₁
    have q₂ := pdivbw_quiet 1 q₁ h₂
    have q₃ := pdivbw_quiet 2 q₂ h₃
    exact pdivbw_quiet 3 q₃ h₄

/-- The funnel shift, where it is defined. -/
theorem QFSRV_quiet (h : QFSRV r = some r') : Quiet r r' := by
  unfold QFSRV at h
  split at h
  · cases h; exact .refl r
  · -- By the shift amount: zero, below 64, above 64. Elsewhere a C shift is undefined.
    rename_i hrd
    have q := Quiet.refl r
    split at h
    · cases h
      exact (q.setLane hrd 0 _).setLane hrd 1 _
    · split at h
      · cases h
        exact (((q.setLane hrd 0 _).setLane hrd 1 _).setLane hrd 0 _).setLane hrd 1 _
      · split at h
        · cases h
          exact (((q.setLane hrd 0 _).setLane hrd 1 _).setLane hrd 0 _).setLane hrd 1 _
        · cases h

/-- `PMFHL` in all its forms; an unknown one writes nothing. -/
theorem PMFHL_quiet : Quiet r (PMFHL r) := by
  have q := Quiet.refl r
  unfold PMFHL
  repeat' split
  all_goals first | exact q.setRdLanes _ | exact q

theorem PMTHL_quiet : Quiet r (PMTHL r) := by
  have q := Quiet.refl r
  unfold PMTHL
  split
  · exact q
  · exact (((q.setLOLane 0 _).setHILane 0 _).setLOLane 2 _).setHILane 2 _

/-- The conditional moves. -/
theorem move_quiet {c : Prop} [Decidable c] (v : U64) :
    Quiet r (if r.rd = 0 then r else if c then r.setLane r.rd 0 v else r) := by
  refine (Quiet.refl r).guard fun hrd => ?_
  split
  · exact (Quiet.refl r).setLane hrd 0 v
  · exact .refl r

end Handler

open Handler

/-- **Computations** write general registers other than `r0`, `HI` and `LO`, and nothing else. -/
theorem RegOp.run_quiet (o : RegOp) {r r' : CpuRegisters} (h : o.run r = some r') : Quiet r r' := by
  have q := Quiet.refl r
  cases o with
  -- an assignment to `rt`
  | ADDI | ADDIU | SLTI | SLTIU | ANDI | ORI | XORI | LUI | DADDI | DADDIU =>
    cases h; exact q.setRt _
  -- an assignment to `rd`
  | SLL | SRL | SRA | SLLV | SRLV | SRAV | DSLLV | DSRLV | DSRAV | DSLL | DSRL | DSRA | DSLL32
  | DSRL32 | DSRA32 | MFHI | MFLO | MFHI1 | MFLO1 | ADD | ADDU | SUB | SUBU | AND | OR | XOR | NOR
  | SLT | SLTU | DADD | DADDU | DSUB | DSUBU =>
    cases h; exact q.setRd _
  | MOVZ | MOVN => cases h; exact move_quiet _
  -- `HI` and `LO`
  | MTHI => cases h; exact q.setHILane 0 _
  | MTLO => cases h; exact q.setLOLane 0 _
  | MTHI1 => cases h; exact q.setHILane 1 _
  | MTLO1 => cases h; exact q.setLOLane 1 _
  | MULT | MULTU | MADD | MADDU => cases h; exact storeProduct_quiet q 0 _
  | MULT1 | MULTU1 | MADD1 | MADDU1 => cases h; exact storeProduct_quiet q 1 _
  | DIV => exact divideInto_quiet 0 0 q h
  | DIV1 => exact divideInto_quiet 1 0 q h
  | DIVU => cases h; exact divideIntoU_quiet q 0 0
  | DIVU1 => cases h; exact divideIntoU_quiet q 1 0
  -- an element-wise macro
  | PLZCW | PSLLH | PSRLH | PSRAH | PSLLW | PSRLW | PSRAW | PADDW | PSUBW | PCGTW | PMAXW | PADDH
  | PSUBH | PCGTH | PMAXH | PADDB | PSUBB | PCGTB | PADDSW | PSUBSW | PADDSH | PSUBSH | PADDSB
  | PSUBSB | PEXT5 | PPAC5 | PABSW | PCEQW | PMINW | PABSH | PCEQH | PMINH | PCEQB | PADDUW | PSUBUW
  | PADDUH | PSUBUH | PADDUB | PSUBUB | PAND | PXOR | POR | PNOR =>
    cases h; exact q.setRdPerLane _ _ _
  | PADSBH => cases h; exact (q.setRdPerLane _ _ _).setRdPerLane _ _ _
  -- a shuffle
  | PEXTLW | PPACW | PEXTLH | PPACH | PEXTLB | PPACB | PEXTUW | PEXTUH | PEXTUB | PMFHI | PMFLO
  | PINTH | PEXEH | PREVH | PEXEW | PROT3W | PINTEH | PEXCH | PCPYH | PEXCW =>
    cases h; exact q.setRdLanes _
  | PMFHL => cases h; exact PMFHL_quiet
  | PMTHL => cases h; exact PMTHL_quiet
  | PSLLVW | PSRLVW | PSRAVW | PCPYLD | PCPYUD => cases h; exact (q.setRdAt _ _).setRdAt _ _
  | QFSRV => exact QFSRV_quiet h
  -- the wide products and divisions
  | PMADDW | PMSUBW | PMULTW | PMADDUW | PMULTUW =>
    cases h; exact storeWide_quiet (storeWide_quiet q 0 _) 1 _
  | PDIVW => exact PDIVW_quiet h
  | PDIVUW => cases h; exact divideIntoU_quiet (divideIntoU_quiet q 0 0) 1 2
  | PDIVBW => exact PDIVBW_quiet h
  | PMADDH | PMSUBH | PMULTH => cases h; exact accumulateAllH_quiet _
  | PHMADH | PHMSBH =>
    cases h
    exact horizontalH_quiet (horizontalH_quiet (horizontalH_quiet
      (horizontalH_quiet q _ _ _ _ _) _ _ _ _ _) _ _ _ _ _) _ _ _ _ _
  | PMTHI => cases h; exact (q.setHILane 0 _).setHILane 1 _
  | PMTLO => cases h; exact (q.setLOLane 0 _).setLOLane 1 _

end Ps2Unpacker
