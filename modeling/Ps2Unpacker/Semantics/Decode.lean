import Ps2Unpacker.Semantics.Lanewise

/-!
# Decoding a multimedia word

`decode` follows the opcode field of the word to the first multimedia table, the function field from
there to an instruction or one of four further tables, and in those the shift amount field. No
register field plays a part.

* `decode_mmi`: the words with the opcode `MMI`.
* `decodeMMI_inMMI`: which instructions they reach.
* `decode_not_inMMI`: the other words reach none of these.
-/

namespace Ps2Unpacker

/-- The part of `decode` behind the opcode `MMI`. -/
def decodeMMI (funct : BitVec 6) (sa : BitVec 5) : Op :=
  match Int_MMIPrintTable.get funct.toFin with
  | .handler o => o
  | .MMI0 => Int_MMI0PrintTable.get sa.toFin
  | .MMI1 => Int_MMI1PrintTable.get sa.toFin
  | .MMI2 => Int_MMI2PrintTable.get sa.toFin
  | _ => Int_MMI3PrintTable.get sa.toFin

/-- The four cases of `decode`. -/
theorem decode_eq (code : U32) :
    decode code = match Int_OpcodePrintTable.get (code.extractLsb' 26 6).toFin with
      | .handler o => o
      | .SPECIAL => Int_SpecialPrintTable.get (code.extractLsb' 0 6).toFin
      | .REGIMM => Int_REGIMMPrintTable.get (code.extractLsb' 16 5).toFin
      | _ => decodeMMI (code.extractLsb' 0 6) (code.extractLsb' 6 5) := rfl

/-- The opcode `28` is that of the multimedia tables. -/
theorem opcode_mmi {code : U32} (h : code.extractLsb' 26 6 = 28) :
    Int_OpcodePrintTable.get (code.extractLsb' 26 6).toFin = Entry.MMI := by
  have hindex : (code.extractLsb' 26 6).toFin = 28 := by
    rw [h]
    rfl
  simp only [hindex]
  rfl

/-- Instructions with this opcode are looked up there. -/
theorem decode_mmi {code : U32} (h : code.extractLsb' 26 6 = 28) :
    decode code = decodeMMI (code.extractLsb' 0 6) (code.extractLsb' 6 5) := by
  rw [decode_eq, opcode_mmi h]

/-- The instructions of the multimedia tables that write no general register. -/
def RegOp.writesNoGPR : RegOp → Bool
  | MTHI1 | MTLO1 | DIV1 | DIVU1 | PMTHL | PDIVW | PDIVBW | PMTHI | PMTLO | PDIVUW => true
  | _ => false

/-- A handler of the multimedia tables. -/
def Op.inMMI : Op → Bool
  | .register o => o.multimedia || o.writesNoGPR
  | .MMI_Unknown => true
  | _ => false

/-- An entry of the first multimedia table. -/
def Entry.inMMI : Entry → Bool
  | .handler o => o.inMMI
  | _ => true

/-- The tables behind `MMI` hold the instructions listed. -/
theorem decodeMMI_inMMI (funct : BitVec 6) (sa : BitVec 5) : (decodeMMI funct sa).inMMI = true := by
  -- Cell by cell; the five tables are small.
  have htop : ∀ i : Fin 64, (Int_MMIPrintTable.get i).inMMI = true := by decide
  have hsub : ∀ i : Fin 32, (Int_MMI0PrintTable.get i).inMMI = true ∧
      (Int_MMI1PrintTable.get i).inMMI = true ∧
      (Int_MMI2PrintTable.get i).inMMI = true ∧ (Int_MMI3PrintTable.get i).inMMI = true := by decide
  have hentry := htop funct.toFin
  obtain ⟨h₀, h₁, h₂, h₃⟩ := hsub sa.toFin
  unfold decodeMMI
  split
  · rename_i o ho
    rw [ho] at hentry
    exact hentry
  · exact h₀
  · exact h₁
  · exact h₂
  · exact h₃

/-- An entry of the opcode table that does not lead to the multimedia tables. -/
def Entry.outsideMMI : Entry → Bool
  | .handler o => !o.inMMI
  | .SPECIAL | .REGIMM => true
  | _ => false

/-- The tables that are not behind `MMI` hold none of the instructions listed. -/
theorem decode_not_inMMI {code : U32} (h : code.extractLsb' 26 6 ≠ 28) :
    (decode code).inMMI = false := by
  -- Cell by cell, without the one that leads to the multimedia tables.
  have htop : ∀ i : Fin 64, i ≠ 28 → (Int_OpcodePrintTable.get i).outsideMMI = true := by decide
  have hspecial : ∀ i : Fin 64, (Int_SpecialPrintTable.get i).inMMI = false := by decide
  have hregimm : ∀ i : Fin 32, (Int_REGIMMPrintTable.get i).inMMI = false := by decide
  have hindex : (code.extractLsb' 26 6).toFin ≠ 28 := fun heq =>
    h (BitVec.eq_of_toFin_eq heq)
  have hentry := htop _ hindex
  rw [decode_eq]
  cases hE : Int_OpcodePrintTable.get (code.extractLsb' 26 6).toFin with
  | handler o =>
    rw [hE] at hentry
    exact (Bool.not_eq_true' _).mp hentry
  -- The tables behind `SPECIAL` and `REGIMM` are looked up by any index.
  | SPECIAL => exact hspecial _
  | REGIMM => exact hregimm _
  | MMI | MMI0 | MMI1 | MMI2 | MMI3 =>
    rw [hE] at hentry
    cases hentry

end Ps2Unpacker
