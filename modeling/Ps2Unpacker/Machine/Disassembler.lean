import Ps2Unpacker.Machine.InterTables

/-!
# The tables of the two disassemblers

`DisR5900.c` writes the trace and `DisR5900asm.c` the reports. Each has tables of its own, laid out
like those of `InterTables.c` and indexed by the same fields of the word; they hold functions that
print, `disADD` or `P_ADD`, named here by the instruction in their name. Not all of them print that
mnemonic: `disDSUBU` prints `DSDBU`, `P_PMSUBW` prints `msubw` and `P_MADDU` prints `madd`. The
tables behind the coprocessor opcodes are not followed here: the interpreter has one handler for
`COP0` and none for the others. Those of the reports have a module of their own, `Coprocessors`, and
so have the operands of the text, `Operands`.

* `Label`: an entry that prints an instruction or the text for a bad opcode.
* `Tables.select`: the entry a word reaches, in either set of tables.
* `disR5900F`, `disR5900Fasm`: the two disassemblers.
-/

namespace Ps2Unpacker

/-- A function that prints: for an instruction the interpreter has a handler for, or another one. -/
inductive Label where
  | of (o : Op)
  | SYNC | MFSA | MTSA | TGE | TGEU | TLT | TLTU | TEQ | TNE | TGEI | TGEIU | TLTI | TLTIU | TEQI
  | TNEI | MTSAB | MTSAH | CACHE | PREF | LWC1 | SWC1 | LQC2 | SQC2 | PEXTS | PPACS
  -- Tables of further instructions.
  | COP0 | COP1 | COP2
  -- `*** Bad OP ***`.
  | NULL
  deriving DecidableEq

/-- An entry of a table: a function that prints, or one that dispatches on another field. -/
inductive LabelEntry where
  | label (l : Label)
  | SPECIAL | REGIMM | MMI | MMI0 | MMI1 | MMI2 | MMI3

instance : Coe Op Label := ⟨.of⟩
instance : Coe Label LabelEntry := ⟨.label⟩

/-- One disassembler's tables. -/
structure Tables where
  opcode : Vector LabelEntry 64
  special : Vector Label 64
  regimm : Vector Label 32
  mmi : Vector LabelEntry 64
  mmi0 : Vector Label 32
  mmi1 : Vector Label 32
  mmi2 : Vector Label 32
  mmi3 : Vector Label 32

namespace Tables

variable (t : Tables)

/-- The entry behind the opcode `MMI`. -/
def selectMMI (funct : BitVec 6) (sa : BitVec 5) : Label :=
  match t.mmi.get funct.toFin with
  | .label l => l
  | .MMI0 => t.mmi0.get sa.toFin
  | .MMI1 => t.mmi1.get sa.toFin
  | .MMI2 => t.mmi2.get sa.toFin
  | _ => t.mmi3.get sa.toFin

/-- The entry an instruction word reaches. -/
def select (code : U32) : Label :=
  match t.opcode.get (code.extractLsb' 26 6).toFin with
  | .label l => l
  | .SPECIAL => t.special.get (code.extractLsb' 0 6).toFin
  | .REGIMM => t.regimm.get (code.extractLsb' 16 5).toFin
  | _ => t.selectMMI (code.extractLsb' 0 6) (code.extractLsb' 6 5)

end Tables

/-! ### The trace: `DisR5900.c` -/

section Trace

open RegOp MemOp BranchOp LabelEntry
open Op hiding COP0
open Label hiding of

def disR5900 : Vector LabelEntry 64 :=
  ⟨⟨
    SPECIAL :: REGIMM :: J :: JAL :: BEQ :: BNE :: BLEZ :: BGTZ ::
    ADDI :: ADDIU :: SLTI :: SLTIU :: ANDI :: ORI :: XORI :: LUI ::
    COP0 :: COP1 :: NULL :: NULL :: BEQL :: BNEL :: BLEZL :: BGTZL ::
    DADDI :: DADDIU :: LDL :: LDR :: MMI :: NULL :: LQ :: SQ ::
    LB :: LH :: LWL :: LW :: LBU :: LHU :: LWR :: LWU ::
    SB :: SH :: SWL :: SW :: SDL :: SDR :: SWR :: CACHE ::
    NULL :: LWC1 :: NULL :: PREF :: NULL :: NULL :: NULL :: LD ::
    NULL :: SWC1 :: NULL :: NULL :: NULL :: NULL :: NULL :: SD :: []⟩, rfl⟩

def disR5900_SPECIAL : Vector Label 64 :=
  ⟨⟨
    SLL :: NULL :: SRL :: SRA :: SLLV :: NULL :: SRLV :: SRAV ::
    JR :: JALR :: MOVZ :: MOVN :: SYSCALL :: BREAK :: NULL :: SYNC ::
    MFHI :: MTHI :: MFLO :: MTLO :: DSLLV :: NULL :: DSRLV :: DSRAV ::
    MULT :: MULTU :: DIV :: DIVU :: NULL :: NULL :: NULL :: NULL ::
    ADD :: ADDU :: SUB :: SUBU :: AND :: OR :: XOR :: NOR ::
    MFSA :: MTSA :: SLT :: SLTU :: DADD :: DADDU :: DSUB :: DSUBU ::
    TGE :: TGEU :: TLT :: TLTU :: TEQ :: NULL :: TNE :: NULL ::
    DSLL :: NULL :: DSRL :: DSRA :: DSLL32 :: NULL :: DSRL32 :: DSRA32 :: []⟩, rfl⟩

def disR5900_REGIMM : Vector Label 32 :=
  #v[
    BLTZ, BGEZ, BLTZL, BGEZL, NULL, NULL, NULL, NULL,
    TGEI, TGEIU, TLTI, TLTIU, TEQI, NULL, TNEI, NULL,
    BLTZAL, BGEZAL, BLTZALL, BGEZALL, NULL, NULL, NULL, NULL,
    MTSAB, MTSAH, NULL, NULL, NULL, NULL, NULL, NULL]

def disR5900_MMI : Vector LabelEntry 64 :=
  ⟨⟨
    NULL :: NULL :: NULL :: NULL :: NULL :: NULL :: NULL :: NULL ::
    MMI0 :: MMI2 :: NULL :: NULL :: NULL :: NULL :: NULL :: NULL ::
    NULL :: NULL :: NULL :: NULL :: NULL :: NULL :: NULL :: NULL ::
    MULT1 :: MULTU1 :: NULL :: NULL :: NULL :: NULL :: NULL :: NULL ::
    NULL :: NULL :: NULL :: NULL :: NULL :: NULL :: NULL :: NULL ::
    MMI1 :: MMI3 :: NULL :: NULL :: NULL :: NULL :: NULL :: NULL ::
    NULL :: NULL :: NULL :: NULL :: NULL :: NULL :: NULL :: NULL ::
    NULL :: NULL :: NULL :: NULL :: NULL :: NULL :: NULL :: NULL :: []⟩, rfl⟩

def disR5900_MMI0 : Vector Label 32 :=
  #v[
    PADDW, PSUBW, PCGTW, PMAXW,
    PADDH, PSUBH, PCGTH, PMAXH,
    PADDB, PSUBB, PCGTB, NULL,
    NULL, NULL, NULL, NULL,
    PADDSW, PSUBSW, PEXTLW, PPACW,
    PADDSH, PSUBSH, PEXTLH, PPACH,
    PADDSB, PSUBSB, PEXTLB, PPACB,
    NULL, NULL, PEXTS, PPACS]

def disR5900_MMI1 : Vector Label 32 :=
  #v[
    NULL, PABSW, PCEQW, PMINW,
    PADSBH, PABSH, PCEQH, PMINH,
    NULL, NULL, PCEQB, NULL,
    NULL, NULL, NULL, NULL,
    PADDUW, PSUBUW, PEXTUW, NULL,
    PADDUH, PSUBUH, PEXTUH, NULL,
    PADDUB, PSUBUB, PEXTUB, QFSRV,
    NULL, NULL, NULL, NULL]

def disR5900_MMI2 : Vector Label 32 :=
  #v[
    PMADDW, NULL, PSLLVW, PSRLVW,
    PMSUBW, NULL, NULL, NULL,
    PMFHI, PMFLO, PINTH, NULL,
    PMULTW, PDIVW, PCPYLD, NULL,
    PMADDH, PHMADH, PAND, PXOR,
    PMSUBH, PHMSBH, NULL, NULL,
    NULL, NULL, PEXEH, PREVH,
    PMULTH, PDIVBW, PEXEW, PROT3W]

def disR5900_MMI3 : Vector Label 32 :=
  #v[
    PMADDUW, NULL, NULL, PSRAVW,
    NULL, NULL, NULL, NULL,
    PMTHI, PMTLO, PINTEH, NULL,
    PMULTUW, PDIVUW, PCPYUD, NULL,
    NULL, NULL, POR, PNOR,
    NULL, NULL, NULL, NULL,
    NULL, NULL, PEXCH, PCPYH,
    NULL, NULL, PEXCW, NULL]

end Trace

def traceTables : Tables where
  opcode := disR5900
  special := disR5900_SPECIAL
  regimm := disR5900_REGIMM
  mmi := disR5900_MMI
  mmi0 := disR5900_MMI0
  mmi1 := disR5900_MMI1
  mmi2 := disR5900_MMI2
  mmi3 := disR5900_MMI3

/-- The entry of the trace disassembler for a word. -/
def disR5900F (code : U32) : Label := traceTables.select code

/-! ### The reports: `DisR5900asm.c` -/

section Asm

open RegOp MemOp BranchOp LabelEntry
open Op hiding COP0
open Label hiding of

def OpcodePrintTable : Vector LabelEntry 64 :=
  ⟨⟨
    SPECIAL :: REGIMM :: J :: JAL :: BEQ :: BNE :: BLEZ :: BGTZ ::
    ADDI :: ADDIU :: SLTI :: SLTIU :: ANDI :: ORI :: XORI :: LUI ::
    COP0 :: COP1 :: COP2 :: UnknownOpcode :: BEQL :: BNEL :: BLEZL :: BGTZL ::
    DADDI :: DADDIU :: LDL :: LDR :: MMI :: UnknownOpcode :: LQ :: SQ ::
    LB :: LH :: LWL :: LW :: LBU :: LHU :: LWR :: LWU ::
    SB :: SH :: SWL :: SW :: SDL :: SDR :: SWR :: CACHE ::
    UnknownOpcode :: LWC1 :: UnknownOpcode :: PREF ::
      UnknownOpcode :: UnknownOpcode :: LQC2 :: LD ::
    UnknownOpcode :: SWC1 :: UnknownOpcode :: UnknownOpcode ::
      UnknownOpcode :: UnknownOpcode :: SQC2 :: SD :: []⟩, rfl⟩

def SpecialPrintTable : Vector Label 64 :=
  ⟨⟨
    SLL :: UnknownOpcode :: SRL :: SRA :: SLLV :: UnknownOpcode :: SRLV :: SRAV ::
    JR :: JALR :: MOVZ :: MOVN :: SYSCALL :: BREAK :: UnknownOpcode :: SYNC ::
    MFHI :: MTHI :: MFLO :: MTLO :: DSLLV :: UnknownOpcode :: DSRLV :: DSRAV ::
    MULT :: MULTU :: DIV :: DIVU ::
      UnknownOpcode :: UnknownOpcode :: UnknownOpcode :: UnknownOpcode ::
    ADD :: ADDU :: SUB :: SUBU :: AND :: OR :: XOR :: NOR ::
    MFSA :: MTSA :: SLT :: SLTU :: DADD :: DADDU :: DSUB :: DSUBU ::
    TGE :: TGEU :: TLT :: TLTU :: TEQ :: UnknownOpcode :: TNE :: UnknownOpcode ::
    DSLL :: UnknownOpcode :: DSRL :: DSRA :: DSLL32 :: UnknownOpcode :: DSRL32 :: DSRA32 :: []⟩,
    rfl⟩

def REGIMMPrintTable : Vector Label 32 :=
  #v[
    BLTZ, BGEZ, BLTZL, BGEZL, UnknownOpcode, UnknownOpcode, UnknownOpcode, UnknownOpcode,
    TGEI, TGEIU, TLTI, TLTIU, TEQI, UnknownOpcode, TNEI, UnknownOpcode,
    BLTZAL, BGEZAL, BLTZALL, BGEZALL, UnknownOpcode, UnknownOpcode, UnknownOpcode, UnknownOpcode,
    MTSAB, MTSAH, UnknownOpcode, UnknownOpcode,
      UnknownOpcode, UnknownOpcode, UnknownOpcode, UnknownOpcode]

def MMIPrintTable : Vector LabelEntry 64 :=
  ⟨⟨
    MADD :: MADDU :: MMI_Unknown :: MMI_Unknown ::
      PLZCW :: MMI_Unknown :: MMI_Unknown :: MMI_Unknown ::
    MMI0 :: MMI2 :: MMI_Unknown :: MMI_Unknown ::
      MMI_Unknown :: MMI_Unknown :: MMI_Unknown :: MMI_Unknown ::
    MFHI1 :: MTHI1 :: MFLO1 :: MTLO1 :: MMI_Unknown :: MMI_Unknown :: MMI_Unknown :: MMI_Unknown ::
    MULT1 :: MULTU1 :: DIV1 :: DIVU1 :: MMI_Unknown :: MMI_Unknown :: MMI_Unknown :: MMI_Unknown ::
    MADD1 :: MADDU1 :: MMI_Unknown :: MMI_Unknown ::
      MMI_Unknown :: MMI_Unknown :: MMI_Unknown :: MMI_Unknown ::
    MMI1 :: MMI3 :: MMI_Unknown :: MMI_Unknown ::
      MMI_Unknown :: MMI_Unknown :: MMI_Unknown :: MMI_Unknown ::
    PMFHL :: PMTHL :: MMI_Unknown :: MMI_Unknown :: PSLLH :: MMI_Unknown :: PSRLH :: PSRAH ::
    MMI_Unknown :: MMI_Unknown :: MMI_Unknown :: MMI_Unknown ::
      PSLLW :: MMI_Unknown :: PSRLW :: PSRAW :: []⟩, rfl⟩

def MMI0PrintTable : Vector Label 32 :=
  #v[
    PADDW, PSUBW, PCGTW, PMAXW,
    PADDH, PSUBH, PCGTH, PMAXH,
    PADDB, PSUBB, PCGTB, MMI_Unknown,
    MMI_Unknown, MMI_Unknown, MMI_Unknown, MMI_Unknown,
    PADDSW, PSUBSW, PEXTLW, PPACW,
    PADDSH, PSUBSH, PEXTLH, PPACH,
    PADDSB, PSUBSB, PEXTLB, PPACB,
    MMI_Unknown, MMI_Unknown, PEXT5, PPAC5]

def MMI1PrintTable : Vector Label 32 :=
  #v[
    MMI_Unknown, PABSW, PCEQW, PMINW,
    PADSBH, PABSH, PCEQH, PMINH,
    MMI_Unknown, MMI_Unknown, PCEQB, MMI_Unknown,
    MMI_Unknown, MMI_Unknown, MMI_Unknown, MMI_Unknown,
    PADDUW, PSUBUW, PEXTUW, MMI_Unknown,
    PADDUH, PSUBUH, PEXTUH, MMI_Unknown,
    PADDUB, PSUBUB, PEXTUB, QFSRV,
    MMI_Unknown, MMI_Unknown, MMI_Unknown, MMI_Unknown]

def MMI2PrintTable : Vector Label 32 :=
  #v[
    PMADDW, MMI_Unknown, PSLLVW, PSRLVW,
    PMSUBW, MMI_Unknown, MMI_Unknown, MMI_Unknown,
    PMFHI, PMFLO, PINTH, MMI_Unknown,
    PMULTW, PDIVW, PCPYLD, MMI_Unknown,
    PMADDH, PHMADH, PAND, PXOR,
    PMSUBH, PHMSBH, MMI_Unknown, MMI_Unknown,
    MMI_Unknown, MMI_Unknown, PEXEH, PREVH,
    PMULTH, PDIVBW, PEXEW, PROT3W]

def MMI3PrintTable : Vector Label 32 :=
  #v[
    PMADDUW, MMI_Unknown, MMI_Unknown, PSRAVW,
    MMI_Unknown, MMI_Unknown, MMI_Unknown, MMI_Unknown,
    PMTHI, PMTLO, PINTEH, MMI_Unknown,
    PMULTUW, PDIVUW, PCPYUD, MMI_Unknown,
    MMI_Unknown, MMI_Unknown, POR, PNOR,
    MMI_Unknown, MMI_Unknown, MMI_Unknown, MMI_Unknown,
    MMI_Unknown, MMI_Unknown, PEXCH, PCPYH,
    MMI_Unknown, MMI_Unknown, PEXCW, MMI_Unknown]

end Asm

def asmTables : Tables where
  opcode := OpcodePrintTable
  special := SpecialPrintTable
  regimm := REGIMMPrintTable
  mmi := MMIPrintTable
  mmi0 := MMI0PrintTable
  mmi1 := MMI1PrintTable
  mmi2 := MMI2PrintTable
  mmi3 := MMI3PrintTable

/-- The entry of the report disassembler for a word. -/
def disR5900Fasm (code : U32) : Label := asmTables.select code

end Ps2Unpacker
