import Ps2Unpacker.Machine.Disassembler
import Ps2Unpacker.Semantics.Decode

/-!
# The decoders compared

Three sets of tables decode the same words: the interpreter's, the trace's and the reports'. They
are compared cell by cell, since the field that indexes a table is the same in all three, and a
word's entries agree when the cells on its path do.

* `agrees_select`: from the cells of a word to its entries.
* `disR5900Fasm_agrees`: the report disassembler knows every instruction the interpreter runs.
* `decoders_agree_iff`: the trace disassembler lacks nineteen cells of its `MMI` table, and its
  entries for `PEXT5` and `PPAC5` are spelled `PEXTS` and `PPACS`.
-/

namespace Ps2Unpacker

deriving instance DecidableEq for Entry

/-- A handler of an instruction, rather than of an error; `COP0` stands for several. -/
def Op.isInstruction : Op → Bool
  | .COP0 | .UnknownOpcode | .MMI_Unknown => false
  | _ => true

/-- The instruction whose name an entry prints. -/
def Label.instruction : Label → Option Op
  | .of o => some o
  | _ => none

/-- The instruction an entry is meant for, with `PEXTS` and `PPACS` as the trace's spelling. -/
def Label.intended : Label → Option Op
  | .PEXTS => some (.register .PEXT5)
  | .PPACS => some (.register .PPAC5)
  | l => l.instruction

/-- Both disassemblers have their entry for the instruction a word is dispatched to. What
instruction an entry is for is given by `reading`. -/
def DecodersAgree (reading : Label → Option Op) (code : U32) : Prop :=
  (decode code).isInstruction = true →
    reading (disR5900F code) = some (decode code) ∧ reading (disR5900Fasm code) = some (decode code)

/-- The cells the trace's `MMI` table leaves to `NULL` though the interpreter has a handler there:
`MADD`, `MADDU`, `PLZCW`, `MFHI1`, `MTHI1`, `MFLO1`, `MTLO1`, `DIV1`, `DIVU1`, `MADD1`, `MADDU1`,
`PMFHL`, `PMTHL`, `PSLLH`, `PSRLH`, `PSRAH`, `PSLLW`, `PSRLW` and `PSRAW`. -/
def missingFuncts : List (BitVec 6) :=
  [0, 1, 4, 16, 17, 18, 19, 26, 27, 32, 33, 48, 49, 52, 54, 55, 60, 62, 63]

/-- The word of an instruction the trace has no entry for. -/
def Missing (code : U32) : Prop :=
  code.extractLsb' 26 6 = 28 ∧ code.extractLsb' 0 6 ∈ missingFuncts

/-- The word of `PEXT5` or `PPAC5`. -/
def Respelled (code : U32) : Prop :=
  code.extractLsb' 26 6 = 28 ∧ code.extractLsb' 0 6 = 8 ∧
    (code.extractLsb' 6 5 = 30 ∨ code.extractLsb' 6 5 = 31)

/-! ### From cells to words -/

section Cells

variable (reading : Label → Option Op)

/-- An entry is for the instruction of the handler in the same cell. -/
def agrees (o : Op) (l : Label) : Bool := o.isInstruction → reading l = some o

/-- Two cells of the first table. -/
def opcodeAgrees : Entry → LabelEntry → Bool
  | .handler o, .label l => agrees reading o l
  | .SPECIAL, .SPECIAL | .REGIMM, .REGIMM | .MMI, .MMI => true
  | _, _ => false

/-- Two cells of the table behind `MMI`. -/
def mmiAgrees : Entry → LabelEntry → Bool
  | .handler o, .label l => agrees reading o l
  | .MMI0, .MMI0 | .MMI1, .MMI1 | .MMI2, .MMI2 | .MMI3, .MMI3 => true
  | _, _ => false

/-- Two cells, of which the interpreter's holds an instruction and the trace's `NULL`. -/
def leftOut : Entry → LabelEntry → Bool
  | .handler o, .label .NULL => o.isInstruction
  | _, _ => false

variable {reading} {t : Tables}

/-- The entries behind `MMI` agree when the cells on the way to them do. -/
theorem agrees_selectMMI {funct : BitVec 6} {sa : BitVec 5}
    (hcell : mmiAgrees reading (Int_MMIPrintTable.get funct.toFin) (t.mmi.get funct.toFin) = true)
    (h₀ : Int_MMIPrintTable.get funct.toFin = .MMI0 →
      agrees reading (Int_MMI0PrintTable.get sa.toFin) (t.mmi0.get sa.toFin) = true)
    (h₁ : agrees reading (Int_MMI1PrintTable.get sa.toFin) (t.mmi1.get sa.toFin) = true)
    (h₂ : agrees reading (Int_MMI2PrintTable.get sa.toFin) (t.mmi2.get sa.toFin) = true)
    (h₃ : agrees reading (Int_MMI3PrintTable.get sa.toFin) (t.mmi3.get sa.toFin) = true) :
    agrees reading (decodeMMI funct sa) (t.selectMMI funct sa) = true := by
  unfold mmiAgrees at hcell
  unfold decodeMMI Tables.selectMMI
  -- By what the interpreter's cell holds: an instruction, or a link to one of the four tables
  -- below.
  split at hcell
  · rename_i ho hl
    rw [ho, hl]
    exact hcell
  · rename_i ho hl
    rw [ho, hl]
    exact h₀ ho
  · rename_i ho hl
    rw [ho, hl]
    exact h₁
  · rename_i ho hl
    rw [ho, hl]
    exact h₂
  · rename_i ho hl
    rw [ho, hl]
    exact h₃
  · -- Where the two cells are not of one kind, the premise is false.
    cases hcell

/-- The entries of a word agree when the cells on the way to them do. -/
theorem agrees_select {code : U32}
    (hcell : opcodeAgrees reading (Int_OpcodePrintTable.get (code.extractLsb' 26 6).toFin)
      (t.opcode.get (code.extractLsb' 26 6).toFin) = true)
    (hspecial : agrees reading (Int_SpecialPrintTable.get (code.extractLsb' 0 6).toFin)
      (t.special.get (code.extractLsb' 0 6).toFin) = true)
    (hregimm : agrees reading (Int_REGIMMPrintTable.get (code.extractLsb' 16 5).toFin)
      (t.regimm.get (code.extractLsb' 16 5).toFin) = true)
    (hmmi : Int_OpcodePrintTable.get (code.extractLsb' 26 6).toFin = .MMI →
      agrees reading (decodeMMI (code.extractLsb' 0 6) (code.extractLsb' 6 5))
        (t.selectMMI (code.extractLsb' 0 6) (code.extractLsb' 6 5)) = true) :
    agrees reading (decode code) (t.select code) = true := by
  unfold opcodeAgrees at hcell
  rw [decode_eq]
  unfold Tables.select
  -- The same for the first table: an instruction, or a link.
  split at hcell
  · rename_i ho hl
    rw [ho, hl]
    exact hcell
  · rename_i ho hl
    rw [ho, hl]
    exact hspecial
  · rename_i ho hl
    rw [ho, hl]
    exact hregimm
  · rename_i ho hl
    rw [ho, hl]
    exact hmmi ho
  · cases hcell

end Cells

/-! ### The cells -/

/-- Only one opcode leads to the multimedia tables, and one function field to the first of them. -/
theorem MMI_opcode : ∀ i : Fin 64, Int_OpcodePrintTable.get i = .MMI → i = 28 := by decide

theorem MMI0_funct : ∀ i : Fin 64, Int_MMIPrintTable.get i = .MMI0 → i = 8 := by decide

section Asm

/-- The tables of the interpreter and of the disassembler agree cell by cell. -/
theorem asm_opcode : ∀ i : Fin 64,
    opcodeAgrees Label.instruction (Int_OpcodePrintTable.get i) (asmTables.opcode.get i) =
      true := by
  decide

theorem asm_special : ∀ i : Fin 64,
    agrees Label.instruction (Int_SpecialPrintTable.get i) (asmTables.special.get i) = true := by
  decide

theorem asm_mmi : ∀ i : Fin 64,
    mmiAgrees Label.instruction (Int_MMIPrintTable.get i) (asmTables.mmi.get i) = true := by decide

theorem asm_sub : ∀ i : Fin 32,
    agrees Label.instruction (Int_REGIMMPrintTable.get i) (asmTables.regimm.get i) = true ∧
    agrees Label.instruction (Int_MMI0PrintTable.get i) (asmTables.mmi0.get i) = true ∧
    agrees Label.instruction (Int_MMI1PrintTable.get i) (asmTables.mmi1.get i) = true ∧
    agrees Label.instruction (Int_MMI2PrintTable.get i) (asmTables.mmi2.get i) = true ∧
    agrees Label.instruction (Int_MMI3PrintTable.get i) (asmTables.mmi3.get i) = true := by decide

end Asm

section Trace

/-- Of the tables of the trace, those for opcodes and behind `SPECIAL` agree as well. -/
theorem trace_opcode : ∀ i : Fin 64,
    opcodeAgrees Label.instruction (Int_OpcodePrintTable.get i) (traceTables.opcode.get i) =
      true := by
  decide

theorem trace_special : ∀ i : Fin 64,
    agrees Label.instruction (Int_SpecialPrintTable.get i) (traceTables.special.get i) = true := by
  decide

/-- Behind `MMI` the trace lacks some cells where the interpreter has instructions. -/
theorem trace_mmi : ∀ i : Fin 64, BitVec.ofFin i ∉ missingFuncts →
    mmiAgrees Label.instruction (Int_MMIPrintTable.get i) (traceTables.mmi.get i) = true := by
  decide

theorem trace_missing : ∀ funct ∈ missingFuncts,
    leftOut (Int_MMIPrintTable.get funct.toFin) (traceTables.mmi.get funct.toFin) = true := by
  decide

/-- The small tables agree, but for two cells of the first. -/
theorem trace_sub : ∀ i : Fin 32,
    agrees Label.instruction (Int_REGIMMPrintTable.get i) (traceTables.regimm.get i) = true ∧
    (i ≠ 30 → i ≠ 31 →
      agrees Label.instruction (Int_MMI0PrintTable.get i) (traceTables.mmi0.get i) = true) ∧
    agrees Label.instruction (Int_MMI1PrintTable.get i) (traceTables.mmi1.get i) = true ∧
    agrees Label.instruction (Int_MMI2PrintTable.get i) (traceTables.mmi2.get i) = true ∧
    agrees Label.instruction (Int_MMI3PrintTable.get i) (traceTables.mmi3.get i) = true := by decide

end Trace

/-! ### The words -/

section Words

variable {code : U32}

/-- Agreement is asked for where the interpreter has an instruction. -/
theorem agrees_iff {reading : Label → Option Op} {o : Op} {l : Label} :
    agrees reading o l = true ↔ (o.isInstruction = true → reading l = some o) := by
  simp only [agrees, decide_eq_true_eq]

/-- A name is meant for the instruction it names. -/
theorem intended_of_instruction {l : Label} {o : Op} (h : l.instruction = some o) :
    l.intended = some o := by
  cases l with
  | of o' => exact h
  | _ => cases h

/-- **The report disassembler.** Its entry for a word is the one of the instruction the interpreter
dispatches the word to. -/
theorem disR5900Fasm_agrees (code : U32) :
    agrees Label.instruction (decode code) (disR5900Fasm code) = true := by
  have hsub := asm_sub (code.extractLsb' 6 5).toFin
  refine agrees_select (asm_opcode _) (asm_special _) (asm_sub _).1 fun _ => ?_
  exact agrees_selectMMI (asm_mmi _) (fun _ => hsub.2.1) hsub.2.2.1 hsub.2.2.2.1 hsub.2.2.2.2

/-- **The trace disassembler**, on the words it does not miss. -/
theorem disR5900F_agrees (hmissing : ¬Missing code) (hrespelled : ¬Respelled code) :
    agrees Label.instruction (decode code) (disR5900F code) = true := by
  have hsub := trace_sub (code.extractLsb' 6 5).toFin
  refine agrees_select (trace_opcode _) (trace_special _) (trace_sub _).1 fun hop => ?_
  -- Behind the opcode `MMI` the word is neither missing nor respelled.
  have hopcode : code.extractLsb' 26 6 = 28 := BitVec.eq_of_toFin_eq (MMI_opcode _ hop)
  refine agrees_selectMMI (trace_mmi _ ?_) (fun hcell => ?_) hsub.2.2.1 hsub.2.2.2.1 hsub.2.2.2.2
  · exact fun hmem => hmissing ⟨hopcode, hmem⟩
  · -- Only the function field 8 reads the table with the two other spellings.
    have hfunct : code.extractLsb' 0 6 = 8 := BitVec.eq_of_toFin_eq (MMI0_funct _ hcell)
    refine hsub.2.1 (fun h => ?_) (fun h => ?_)
    · exact hrespelled ⟨hopcode, hfunct, Or.inl (BitVec.eq_of_toFin_eq h)⟩
    · exact hrespelled ⟨hopcode, hfunct, Or.inr (BitVec.eq_of_toFin_eq h)⟩

/-- With the opcode `28` the trace looks behind `MMI`. -/
theorem disR5900F_mmi (h : code.extractLsb' 26 6 = 28) :
    disR5900F code = traceTables.selectMMI (code.extractLsb' 0 6) (code.extractLsb' 6 5) := by
  -- The opcode is fixed, so the first table has one cell to read.
  have hindex : (code.extractLsb' 26 6).toFin = 28 := by
    rw [h]
    rfl
  have hcell : traceTables.opcode.get (code.extractLsb' 26 6).toFin = LabelEntry.MMI := by
    simp only [hindex]
    rfl
  unfold disR5900F Tables.select
  rw [hcell]

/-- A missing cell: the interpreter runs an instruction that the trace calls a bad opcode. -/
theorem missing_entries (h : Missing code) :
    (decode code).isInstruction = true ∧ disR5900F code = .NULL := by
  obtain ⟨hopcode, hfunct⟩ := h
  have hcell := trace_missing _ hfunct
  rw [decode_mmi hopcode, disR5900F_mmi hopcode]
  -- The cell is one that the trace leaves out.
  unfold leftOut at hcell
  unfold decodeMMI Tables.selectMMI
  split at hcell
  · rename_i ho hl
    rw [ho, hl]
    exact ⟨hcell, rfl⟩
  · cases hcell

/-- The two entries that the trace spells otherwise. -/
theorem respelled_entries (h : Respelled code) :
    (decode code = .register .PEXT5 ∧ disR5900F code = .PEXTS) ∨
      (decode code = .register .PPAC5 ∧ disR5900F code = .PPACS) := by
  obtain ⟨hopcode, hfunct, hsa⟩ := h
  rw [decode_mmi hopcode, disR5900F_mmi hopcode, hfunct]
  rcases hsa with hsa | hsa <;> rw [hsa]
  · exact Or.inl ⟨rfl, rfl⟩
  · exact Or.inr ⟨rfl, rfl⟩

/-- An entry for no instruction is not the entry of the instruction that runs. -/
theorem not_agree_of_missing {reading : Label → Option Op} (hnull : reading .NULL = none)
    (h : Missing code) : ¬DecodersAgree reading code := by
  intro hagree
  obtain ⟨hi, hentry⟩ := missing_entries h
  have hname := (hagree hi).1
  rw [hentry, hnull] at hname
  cases hname

/-- A cell that is spelled in another way is read as another instruction. -/
theorem not_agree_of_respelled (h : Respelled code) : ¬DecodersAgree Label.instruction code := by
  intro hagree
  obtain ⟨ho, hl⟩ | ⟨ho, hl⟩ := respelled_entries h <;>
  · have hname := (hagree (by rw [ho]; rfl)).1
    rw [hl] at hname
    cases hname

end Words

/-- **When the decoders agree.** For every word the interpreter dispatches to an instruction, both
disassemblers have their entry for it, except at the cells the trace's `MMI` table leaves out and,
if `PEXTS` and `PPACS` are taken as other instructions, at the cells of `PEXT5` and `PPAC5`. -/
theorem decoders_agree_iff (code : U32) :
    (DecodersAgree Label.instruction code ↔ ¬Missing code ∧ ¬Respelled code) ∧
      (DecodersAgree Label.intended code ↔ ¬Missing code) := by
  have hasm := agrees_iff.mp (disR5900Fasm_agrees code)
  refine ⟨⟨fun h => ⟨?_, ?_⟩, fun ⟨hm, hr⟩ hi => ?_⟩, ⟨fun h => ?_, fun hm hi => ?_⟩⟩
  · -- for the names as they are
    exact fun hm => not_agree_of_missing rfl hm h
  · exact fun hr => not_agree_of_respelled hr h
  · exact ⟨agrees_iff.mp (disR5900F_agrees hm hr) hi, hasm hi⟩
  · exact fun hm => not_agree_of_missing rfl hm h
  · -- With the two spellings read as they are meant, a respelled word is no exception.
    refine ⟨?_, intended_of_instruction (hasm hi)⟩
    by_cases hr : Respelled code
    · obtain ⟨ho, hl⟩ | ⟨ho, hl⟩ := respelled_entries hr <;> rw [ho, hl] <;> rfl
    · exact intended_of_instruction (agrees_iff.mp (disR5900F_agrees hm hr) hi)

/-- The word `0x70000000` is a `MADD`, and the trace shows it as a bad opcode. -/
theorem not_decoders_agree :
    ¬DecodersAgree Label.instruction 0x70000000#32 ∧
      ¬DecodersAgree Label.intended 0x70000000#32 := by
  have hentry : disR5900F 0x70000000#32 = .NULL := rfl
  refine ⟨fun h => ?_, fun h => ?_⟩ <;>
  · have hname := (h rfl).1
    rw [hentry] at hname
    cases hname

end Ps2Unpacker
