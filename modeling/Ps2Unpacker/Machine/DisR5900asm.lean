import Ps2Unpacker.Machine.Coprocessors

/-!
# The text of the report disassembler

What the functions `P_X` of `DisR5900asm.c` print for the instructions of the processor itself, and
`disR5900Fasm` with its text. The tables are those of `Machine/Disassembler.lean`: an entry `l` of
theirs stands for a function, and `l.P code` is the `sprintf` it calls. Two functions look at the
word: `SLL` with nothing to do is a `nop`, and `JALR` leaves out the register `ra`.
-/

namespace Ps2Unpacker

open CPrintf

section Printers

open Arg RegField

/-- `P_ADDI`, `P_ADDIU` and so on. -/
def RegOp.P : RegOp → U32 → Format
  | ADDI, _ => ⟨"addi\t%s, %s, 0x%04lX", [GPR_REG RT, GPR_REG RS, DECODE_IMMED]⟩
  | ADDIU, _ => ⟨"addiu\t%s, %s, 0x%04lX", [GPR_REG RT, GPR_REG RS, DECODE_IMMED]⟩
  | SLTI, _ => ⟨"slti\t%s, %s, 0x%04lX", [GPR_REG RT, GPR_REG RS, DECODE_IMMED]⟩
  | SLTIU, _ => ⟨"sltiu\t%s, %s, 0x%04lX", [GPR_REG RT, GPR_REG RS, DECODE_IMMED]⟩
  | ANDI, _ => ⟨"andi\t%s, %s, 0x%04lX", [GPR_REG RT, GPR_REG RS, DECODE_IMMED]⟩
  | ORI, _ => ⟨"ori\t%s, %s, 0x%04lX", [GPR_REG RT, GPR_REG RS, DECODE_IMMED]⟩
  | XORI, _ => ⟨"xori\t%s, %s, 0x%04lX", [GPR_REG RT, GPR_REG RS, DECODE_IMMED]⟩
  | LUI, _ => ⟨"lui\t%s, 0x%04lX", [GPR_REG RT, DECODE_IMMED]⟩
  | DADDI, _ => ⟨"daddi\t%s, %s, 0x%04lX", [GPR_REG RT, GPR_REG RS, DECODE_IMMED]⟩
  | DADDIU, _ => ⟨"daddiu\t%s, %s, 0x%04lX", [GPR_REG RT, GPR_REG RS, DECODE_IMMED]⟩
  | SLL, code =>
    if code = 0 then ⟨"nop", []⟩
    else ⟨"sll\t%s, %s, 0x%02lX", [GPR_REG RD, GPR_REG RT, DECODE_SA]⟩
  | SRL, _ => ⟨"srl\t%s, %s, 0x%02lX", [GPR_REG RD, GPR_REG RT, DECODE_SA]⟩
  | SRA, _ => ⟨"sra\t%s, %s, 0x%02lX", [GPR_REG RD, GPR_REG RT, DECODE_SA]⟩
  | SLLV, _ => ⟨"sllv\t%s, %s, %s", [GPR_REG RD, GPR_REG RT, GPR_REG RS]⟩
  | SRLV, _ => ⟨"srlv\t%s, %s, %s", [GPR_REG RD, GPR_REG RT, GPR_REG RS]⟩
  | SRAV, _ => ⟨"srav\t%s, %s, %s", [GPR_REG RD, GPR_REG RT, GPR_REG RS]⟩
  | MOVZ, _ => ⟨"movz\t%s, %s, %s", [GPR_REG RD, GPR_REG RS, GPR_REG RT]⟩
  | MOVN, _ => ⟨"movn\t%s, %s, %s", [GPR_REG RD, GPR_REG RS, GPR_REG RT]⟩
  | MFHI, _ => ⟨"mfhi\t%s", [GPR_REG RD]⟩
  | MTHI, _ => ⟨"mthi\t%s", [GPR_REG RS]⟩
  | MFLO, _ => ⟨"mflo\t%s", [GPR_REG RD]⟩
  | MTLO, _ => ⟨"mtlo\t%s", [GPR_REG RS]⟩
  | DSLLV, _ => ⟨"dsllv\t%s, %s, %s", [GPR_REG RD, GPR_REG RT, GPR_REG RS]⟩
  | DSRLV, _ => ⟨"dsrlv\t%s, %s, %s", [GPR_REG RD, GPR_REG RT, GPR_REG RS]⟩
  | DSRAV, _ => ⟨"dsrav\t%s, %s, %s", [GPR_REG RD, GPR_REG RT, GPR_REG RS]⟩
  | MULT, _ => ⟨"mult\t%s, %s, %s", [GPR_REG RD, GPR_REG RS, GPR_REG RT]⟩
  | MULTU, _ => ⟨"multu\t%s, %s, %s", [GPR_REG RD, GPR_REG RS, GPR_REG RT]⟩
  | DIV, _ => ⟨"div\t%s, %s", [GPR_REG RS, GPR_REG RT]⟩
  | DIVU, _ => ⟨"divu\t%s, %s", [GPR_REG RS, GPR_REG RT]⟩
  | ADD, _ => ⟨"add\t%s, %s, %s", [GPR_REG RD, GPR_REG RS, GPR_REG RT]⟩
  | ADDU, _ => ⟨"addu\t%s, %s, %s", [GPR_REG RD, GPR_REG RS, GPR_REG RT]⟩
  | SUB, _ => ⟨"sub\t%s, %s, %s", [GPR_REG RD, GPR_REG RS, GPR_REG RT]⟩
  | SUBU, _ => ⟨"subu\t%s, %s, %s", [GPR_REG RD, GPR_REG RS, GPR_REG RT]⟩
  | AND, _ => ⟨"and\t%s, %s, %s", [GPR_REG RD, GPR_REG RS, GPR_REG RT]⟩
  | OR, _ => ⟨"or\t%s, %s, %s", [GPR_REG RD, GPR_REG RS, GPR_REG RT]⟩
  | XOR, _ => ⟨"xor\t%s, %s, %s", [GPR_REG RD, GPR_REG RS, GPR_REG RT]⟩
  | NOR, _ => ⟨"nor\t%s, %s, %s", [GPR_REG RD, GPR_REG RS, GPR_REG RT]⟩
  | SLT, _ => ⟨"slt\t%s, %s, %s", [GPR_REG RD, GPR_REG RS, GPR_REG RT]⟩
  | SLTU, _ => ⟨"sltu\t%s, %s, %s", [GPR_REG RD, GPR_REG RS, GPR_REG RT]⟩
  | DADD, _ => ⟨"dadd\t%s, %s, %s", [GPR_REG RD, GPR_REG RS, GPR_REG RT]⟩
  | DADDU, _ => ⟨"daddu\t%s, %s, %s", [GPR_REG RD, GPR_REG RS, GPR_REG RT]⟩
  | DSUB, _ => ⟨"dsub\t%s, %s, %s", [GPR_REG RD, GPR_REG RS, GPR_REG RT]⟩
  | DSUBU, _ => ⟨"dsubu\t%s, %s, %s", [GPR_REG RD, GPR_REG RS, GPR_REG RT]⟩
  | DSLL, _ => ⟨"dsll\t%s, %s, 0x%02lX", [GPR_REG RD, GPR_REG RT, DECODE_SA]⟩
  | DSRL, _ => ⟨"dsrl\t%s, %s, 0x%02lX", [GPR_REG RD, GPR_REG RT, DECODE_SA]⟩
  | DSRA, _ => ⟨"dsra\t%s, %s, 0x%02lX", [GPR_REG RD, GPR_REG RT, DECODE_SA]⟩
  | DSLL32, _ => ⟨"dsll32\t%s, %s, 0x%02lX", [GPR_REG RD, GPR_REG RT, DECODE_SA]⟩
  | DSRL32, _ => ⟨"dsrl32\t%s, %s, 0x%02lX", [GPR_REG RD, GPR_REG RT, DECODE_SA]⟩
  | DSRA32, _ => ⟨"dsra32\t%s, %s, 0x%02lX", [GPR_REG RD, GPR_REG RT, DECODE_SA]⟩
  | MADD, _ => ⟨"madd\t%s, %s %s", [GPR_REG RD, GPR_REG RS, GPR_REG RT]⟩
  | MADDU, _ => ⟨"madd\t%s, %s %s", [GPR_REG RD, GPR_REG RS, GPR_REG RT]⟩
  | PLZCW, _ => ⟨"plzcw\t%s, %s", [GPR_REG RD, GPR_REG RS]⟩
  | MFHI1, _ => ⟨"mfhi1\t%s", [GPR_REG RD]⟩
  | MTHI1, _ => ⟨"mthi1\t%s", [GPR_REG RS]⟩
  | MFLO1, _ => ⟨"mflo1\t%s", [GPR_REG RD]⟩
  | MTLO1, _ => ⟨"mtlo1\t%s", [GPR_REG RS]⟩
  | MULT1, _ => ⟨"mult1\t%s, %s, %s", [GPR_REG RD, GPR_REG RS, GPR_REG RT]⟩
  | MULTU1, _ => ⟨"multu1\t%s, %s, %s", [GPR_REG RD, GPR_REG RS, GPR_REG RT]⟩
  | DIV1, _ => ⟨"div1\t%s, %s", [GPR_REG RS, GPR_REG RT]⟩
  | DIVU1, _ => ⟨"divu1\t%s, %s", [GPR_REG RS, GPR_REG RT]⟩
  | MADD1, _ => ⟨"madd1\t%s, %s %s", [GPR_REG RD, GPR_REG RS, GPR_REG RT]⟩
  | MADDU1, _ => ⟨"maddu1\t%s, %s %s", [GPR_REG RD, GPR_REG RS, GPR_REG RT]⟩
  | PMFHL, _ => ⟨"pmfhl.? \t%s", [GPR_REG RD]⟩
  | PMTHL, _ => ⟨"pmthl.? \t%s", [GPR_REG RS]⟩
  | PSLLH, _ => ⟨"psllh   \t%s, %s, 0x%02lX", [GPR_REG RD, GPR_REG RT, DECODE_SA]⟩
  | PSRLH, _ => ⟨"psrlh   \t%s, %s, 0x%02lX", [GPR_REG RD, GPR_REG RT, DECODE_SA]⟩
  | PSRAH, _ => ⟨"psrah   \t%s, %s, 0x%02lX", [GPR_REG RD, GPR_REG RT, DECODE_SA]⟩
  | PSLLW, _ => ⟨"psllw   \t%s, %s, 0x%02lX", [GPR_REG RD, GPR_REG RT, DECODE_SA]⟩
  | PSRLW, _ => ⟨"psrlw   \t%s, %s, 0x%02lX", [GPR_REG RD, GPR_REG RT, DECODE_SA]⟩
  | PSRAW, _ => ⟨"psraw   \t%s, %s, 0x%02lX", [GPR_REG RD, GPR_REG RT, DECODE_SA]⟩
  | PADDW, _ => ⟨"paddw\t%s, %s, %s", [GPR_REG RD, GPR_REG RS, GPR_REG RT]⟩
  | PSUBW, _ => ⟨"psubw\t%s, %s, %s", [GPR_REG RD, GPR_REG RS, GPR_REG RT]⟩
  | PCGTW, _ => ⟨"pcgtw\t%s, %s, %s", [GPR_REG RD, GPR_REG RS, GPR_REG RT]⟩
  | PMAXW, _ => ⟨"pmaxw\t%s, %s, %s", [GPR_REG RD, GPR_REG RS, GPR_REG RT]⟩
  | PADDH, _ => ⟨"paddh\t%s, %s, %s", [GPR_REG RD, GPR_REG RS, GPR_REG RT]⟩
  | PSUBH, _ => ⟨"psubh\t%s, %s, %s", [GPR_REG RD, GPR_REG RS, GPR_REG RT]⟩
  | PCGTH, _ => ⟨"pcgth\t%s, %s, %s", [GPR_REG RD, GPR_REG RS, GPR_REG RT]⟩
  | PMAXH, _ => ⟨"pmaxh\t%s, %s, %s", [GPR_REG RD, GPR_REG RS, GPR_REG RT]⟩
  | PADDB, _ => ⟨"paddb\t%s, %s, %s", [GPR_REG RD, GPR_REG RS, GPR_REG RT]⟩
  | PSUBB, _ => ⟨"psubb\t%s, %s, %s", [GPR_REG RD, GPR_REG RS, GPR_REG RT]⟩
  | PCGTB, _ => ⟨"pcgtb\t%s, %s, %s", [GPR_REG RD, GPR_REG RS, GPR_REG RT]⟩
  | PADDSW, _ => ⟨"paddsw\t%s, %s, %s", [GPR_REG RD, GPR_REG RS, GPR_REG RT]⟩
  | PSUBSW, _ => ⟨"psubsw\t%s, %s, %s", [GPR_REG RD, GPR_REG RS, GPR_REG RT]⟩
  | PEXTLW, _ => ⟨"pextlw\t%s, %s, %s", [GPR_REG RD, GPR_REG RS, GPR_REG RT]⟩
  | PPACW, _ => ⟨"ppacw\t%s, %s, %s", [GPR_REG RD, GPR_REG RS, GPR_REG RT]⟩
  | PADDSH, _ => ⟨"paddsh\t%s, %s, %s", [GPR_REG RD, GPR_REG RS, GPR_REG RT]⟩
  | PSUBSH, _ => ⟨"psubsh\t%s, %s, %s", [GPR_REG RD, GPR_REG RS, GPR_REG RT]⟩
  | PEXTLH, _ => ⟨"pextlh\t%s, %s, %s", [GPR_REG RD, GPR_REG RS, GPR_REG RT]⟩
  | PPACH, _ => ⟨"ppach\t%s, %s, %s", [GPR_REG RD, GPR_REG RS, GPR_REG RT]⟩
  | PADDSB, _ => ⟨"paddsb\t%s, %s, %s", [GPR_REG RD, GPR_REG RS, GPR_REG RT]⟩
  | PSUBSB, _ => ⟨"psubsb\t%s, %s, %s", [GPR_REG RD, GPR_REG RS, GPR_REG RT]⟩
  | PEXTLB, _ => ⟨"pextlb\t%s, %s, %s", [GPR_REG RD, GPR_REG RS, GPR_REG RT]⟩
  | PPACB, _ => ⟨"ppacb\t%s, %s, %s", [GPR_REG RD, GPR_REG RS, GPR_REG RT]⟩
  | PEXT5, _ => ⟨"pext5\t%s, %s", [GPR_REG RD, GPR_REG RT]⟩
  | PPAC5, _ => ⟨"ppac5\t%s, %s", [GPR_REG RD, GPR_REG RT]⟩
  | PABSW, _ => ⟨"pabsw%s, %s", [GPR_REG RD, GPR_REG RT]⟩
  | PCEQW, _ => ⟨"pceqw\t%s, %s, %s", [GPR_REG RD, GPR_REG RS, GPR_REG RT]⟩
  | PMINW, _ => ⟨"pminw\t%s, %s, %s", [GPR_REG RD, GPR_REG RS, GPR_REG RT]⟩
  | PADSBH, _ => ⟨"padsbh\t%s, %s, %s", [GPR_REG RD, GPR_REG RS, GPR_REG RT]⟩
  | PABSH, _ => ⟨"pabsh%s, %s", [GPR_REG RD, GPR_REG RT]⟩
  | PCEQH, _ => ⟨"pceqh\t%s, %s, %s", [GPR_REG RD, GPR_REG RS, GPR_REG RT]⟩
  | PMINH, _ => ⟨"pminh\t%s, %s, %s", [GPR_REG RD, GPR_REG RS, GPR_REG RT]⟩
  | PCEQB, _ => ⟨"pceqb\t%s, %s, %s", [GPR_REG RD, GPR_REG RS, GPR_REG RT]⟩
  | PADDUW, _ => ⟨"padduw\t%s, %s, %s", [GPR_REG RD, GPR_REG RS, GPR_REG RT]⟩
  | PSUBUW, _ => ⟨"psubuw\t%s, %s, %s", [GPR_REG RD, GPR_REG RS, GPR_REG RT]⟩
  | PEXTUW, _ => ⟨"pextuw\t%s, %s, %s", [GPR_REG RD, GPR_REG RS, GPR_REG RT]⟩
  | PADDUH, _ => ⟨"padduh\t%s, %s, %s", [GPR_REG RD, GPR_REG RS, GPR_REG RT]⟩
  | PSUBUH, _ => ⟨"psubuh\t%s, %s, %s", [GPR_REG RD, GPR_REG RS, GPR_REG RT]⟩
  | PEXTUH, _ => ⟨"pextuh\t%s, %s, %s", [GPR_REG RD, GPR_REG RS, GPR_REG RT]⟩
  | PADDUB, _ => ⟨"paddub\t%s, %s, %s", [GPR_REG RD, GPR_REG RS, GPR_REG RT]⟩
  | PSUBUB, _ => ⟨"psubub\t%s, %s, %s", [GPR_REG RD, GPR_REG RS, GPR_REG RT]⟩
  | PEXTUB, _ => ⟨"pextub\t%s, %s, %s", [GPR_REG RD, GPR_REG RS, GPR_REG RT]⟩
  | QFSRV, _ => ⟨"qfsrv\t%s, %s, %s", [GPR_REG RD, GPR_REG RS, GPR_REG RT]⟩
  | PMADDW, _ => ⟨"pmaddw\t%s, %s, %s", [GPR_REG RD, GPR_REG RS, GPR_REG RT]⟩
  | PSLLVW, _ => ⟨"psllvw\t%s, %s, %s", [GPR_REG RD, GPR_REG RS, GPR_REG RT]⟩
  | PSRLVW, _ => ⟨"psrlvw\t%s, %s, %s", [GPR_REG RD, GPR_REG RS, GPR_REG RT]⟩
  | PMSUBW, _ => ⟨"msubw\t%s, %s, %s", [GPR_REG RD, GPR_REG RS, GPR_REG RT]⟩
  | PMFHI, _ => ⟨"pmfhi\t%s", [GPR_REG RD]⟩
  | PMFLO, _ => ⟨"pmflo\t%s", [GPR_REG RD]⟩
  | PINTH, _ => ⟨"pinth\t%s, %s, %s", [GPR_REG RD, GPR_REG RS, GPR_REG RT]⟩
  | PMULTW, _ => ⟨"pmultw\t%s, %s, %s", [GPR_REG RD, GPR_REG RS, GPR_REG RT]⟩
  | PDIVW, _ => ⟨"pdivw\t%s, %s", [GPR_REG RS, GPR_REG RT]⟩
  | PCPYLD, _ => ⟨"pcpyld\t%s, %s, %s", [GPR_REG RD, GPR_REG RS, GPR_REG RT]⟩
  | PMADDH, _ => ⟨"pmaddh\t%s, %s, %s", [GPR_REG RD, GPR_REG RS, GPR_REG RT]⟩
  | PHMADH, _ => ⟨"phmadh\t%s, %s, %s", [GPR_REG RD, GPR_REG RS, GPR_REG RT]⟩
  | PAND, _ => ⟨"pand\t%s, %s, %s", [GPR_REG RD, GPR_REG RS, GPR_REG RT]⟩
  | PXOR, _ => ⟨"pxor\t%s, %s, %s", [GPR_REG RD, GPR_REG RS, GPR_REG RT]⟩
  | PMSUBH, _ => ⟨"pmsubh\t%s, %s, %s", [GPR_REG RD, GPR_REG RS, GPR_REG RT]⟩
  | PHMSBH, _ => ⟨"phmsbh\t%s, %s, %s", [GPR_REG RD, GPR_REG RS, GPR_REG RT]⟩
  | PEXEH, _ => ⟨"pexeh\t%s, %s", [GPR_REG RD, GPR_REG RT]⟩
  | PREVH, _ => ⟨"prevh\t%s, %s", [GPR_REG RD, GPR_REG RT]⟩
  | PMULTH, _ => ⟨"pmulth\t%s, %s, %s", [GPR_REG RD, GPR_REG RS, GPR_REG RT]⟩
  | PDIVBW, _ => ⟨"pdivbw\t%s, %s", [GPR_REG RS, GPR_REG RT]⟩
  | PEXEW, _ => ⟨"pexew\t%s, %s", [GPR_REG RD, GPR_REG RT]⟩
  | PROT3W, _ => ⟨"prot3w\t%s, %s", [GPR_REG RD, GPR_REG RT]⟩
  | PMADDUW, _ => ⟨"pmadduw\t%s, %s, %s", [GPR_REG RD, GPR_REG RT, GPR_REG RS]⟩
  | PSRAVW, _ => ⟨"psravw\t%s, %s, %s", [GPR_REG RD, GPR_REG RT, GPR_REG RS]⟩
  | PMTHI, _ => ⟨"pmthi\t%s", [GPR_REG RS]⟩
  | PMTLO, _ => ⟨"pmtlo\t%s", [GPR_REG RS]⟩
  | PINTEH, _ => ⟨"pinteh\t%s, %s, %s", [GPR_REG RD, GPR_REG RS, GPR_REG RT]⟩
  | PMULTUW, _ => ⟨"pmultuw\t%s, %s, %s", [GPR_REG RD, GPR_REG RS, GPR_REG RT]⟩
  | PDIVUW, _ => ⟨"pdivuw\t%s, %s", [GPR_REG RS, GPR_REG RT]⟩
  | PCPYUD, _ => ⟨"pcpyud\t%s, %s, %s", [GPR_REG RD, GPR_REG RS, GPR_REG RT]⟩
  | POR, _ => ⟨"por\t%s, %s, %s", [GPR_REG RD, GPR_REG RS, GPR_REG RT]⟩
  | PNOR, _ => ⟨"pnor\t%s, %s, %s", [GPR_REG RD, GPR_REG RS, GPR_REG RT]⟩
  | PEXCH, _ => ⟨"pexch\t%s, %s", [GPR_REG RD, GPR_REG RT]⟩
  | PCPYH, _ => ⟨"pcpyh\t%s, %s", [GPR_REG RD, GPR_REG RT]⟩
  | PEXCW, _ => ⟨"pexcw\t%s, %s", [GPR_REG RD, GPR_REG RT]⟩

/-- `P_LB`, `P_LBU` and so on. -/
def MemOp.P : MemOp → Format
  | LB => ⟨"lb\t%s, 0x%04lX(%s)", [GPR_REG RT, DECODE_IMMED, GPR_REG RS]⟩
  | LBU => ⟨"lbu\t%s, 0x%04lX(%s)", [GPR_REG RT, DECODE_IMMED, GPR_REG RS]⟩
  | LH => ⟨"lh\t%s, 0x%04lX(%s)", [GPR_REG RT, DECODE_IMMED, GPR_REG RS]⟩
  | LHU => ⟨"lhu\t%s, 0x%04lX(%s)", [GPR_REG RT, DECODE_IMMED, GPR_REG RS]⟩
  | LW => ⟨"lw\t%s, 0x%04lX(%s)", [GPR_REG RT, DECODE_IMMED, GPR_REG RS]⟩
  | LWU => ⟨"lwu\t%s, 0x%04lX(%s)", [GPR_REG RT, DECODE_IMMED, GPR_REG RS]⟩
  | LWL => ⟨"lwl\t%s, 0x%04lX(%s)", [GPR_REG RT, DECODE_IMMED, GPR_REG RS]⟩
  | LWR => ⟨"lwr\t%s, 0x%04lX(%s)", [GPR_REG RT, DECODE_IMMED, GPR_REG RS]⟩
  | LD => ⟨"ld\t%s, 0x%04lX(%s)", [GPR_REG RT, DECODE_IMMED, GPR_REG RS]⟩
  | LDL => ⟨"ldl\t%s, 0x%04lX(%s)", [GPR_REG RT, DECODE_IMMED, GPR_REG RS]⟩
  | LDR => ⟨"ldr\t%s, 0x%04lX(%s)", [GPR_REG RT, DECODE_IMMED, GPR_REG RS]⟩
  | LQ => ⟨"lq\t%s, 0x%04lX(%s)", [GPR_REG RT, DECODE_IMMED, GPR_REG RS]⟩
  | SB => ⟨"sb\t%s, 0x%04lX(%s)", [GPR_REG RT, DECODE_IMMED, GPR_REG RS]⟩
  | SH => ⟨"sh\t%s, 0x%04lX(%s)", [GPR_REG RT, DECODE_IMMED, GPR_REG RS]⟩
  | SW => ⟨"sw\t%s, 0x%04lX(%s)", [GPR_REG RT, DECODE_IMMED, GPR_REG RS]⟩
  | SWL => ⟨"swl\t%s, 0x%04lX(%s)", [GPR_REG RT, DECODE_IMMED, GPR_REG RS]⟩
  | SWR => ⟨"swr\t%s, 0x%04lX(%s)", [GPR_REG RT, DECODE_IMMED, GPR_REG RS]⟩
  | SD => ⟨"sd\t%s, 0x%04lX(%s)", [GPR_REG RT, DECODE_IMMED, GPR_REG RS]⟩
  | SDL => ⟨"sdl\t%s, 0x%04lX(%s)", [GPR_REG RT, DECODE_IMMED, GPR_REG RS]⟩
  | SDR => ⟨"sdr\t%s, 0x%04lX(%s)", [GPR_REG RT, DECODE_IMMED, GPR_REG RS]⟩
  | SQ => ⟨"sq\t%s, 0x%04lX(%s)", [GPR_REG RT, DECODE_IMMED, GPR_REG RS]⟩

/-- `P_J`, `P_JAL` and so on. -/
def BranchOp.P : BranchOp → U32 → Format
  | J, _ => ⟨"j\t%s", [jump_decode]⟩
  | JAL, _ => ⟨"jal\t%s", [jump_decode]⟩
  | JR, _ => ⟨"jr\t%s", [GPR_REG RS]⟩
  | JALR, code =>
    if RD.decode code = 31 then ⟨"jalr\t%s", [GPR_REG RS]⟩
    else ⟨"jalr\t%s, %s", [GPR_REG RD, GPR_REG RS]⟩
  | BEQ, _ => ⟨"beq\t%s, %s, %s", [GPR_REG RS, GPR_REG RT, offset_decode]⟩
  | BNE, _ => ⟨"bne\t%s, %s, %s", [GPR_REG RS, GPR_REG RT, offset_decode]⟩
  | BLEZ, _ => ⟨"blez\t%s, %s", [GPR_REG RS, offset_decode]⟩
  | BGTZ, _ => ⟨"bgtz\t%s, %s", [GPR_REG RS, offset_decode]⟩
  | BEQL, _ => ⟨"beql\t%s, %s, %s", [GPR_REG RS, GPR_REG RT, offset_decode]⟩
  | BNEL, _ => ⟨"bnel\t%s, %s, %s", [GPR_REG RS, GPR_REG RT, offset_decode]⟩
  | BLEZL, _ => ⟨"blezl\t%s, %s", [GPR_REG RS, offset_decode]⟩
  | BGTZL, _ => ⟨"bgtzl\t%s, %s", [GPR_REG RS, offset_decode]⟩
  | BLTZ, _ => ⟨"bltz\t%s, %s", [GPR_REG RS, offset_decode]⟩
  | BGEZ, _ => ⟨"bgez\t%s, %s", [GPR_REG RS, offset_decode]⟩
  | BLTZL, _ => ⟨"bltzl\t%s, %s", [GPR_REG RS, offset_decode]⟩
  | BGEZL, _ => ⟨"bgezl\t%s, %s", [GPR_REG RS, offset_decode]⟩
  | BLTZAL, _ => ⟨"bltzal\t%s, %s", [GPR_REG RS, offset_decode]⟩
  | BGEZAL, _ => ⟨"bgezal\t%s, %s", [GPR_REG RS, offset_decode]⟩
  | BLTZALL, _ => ⟨"bltzall\t%s, %s", [GPR_REG RS, offset_decode]⟩
  | BGEZALL, _ => ⟨"bgezall\t%s, %s", [GPR_REG RS, offset_decode]⟩

/-- The functions that no handler of the interpreter corresponds to, and the system instructions. -/
def Label.P : Label → U32 → Format
  | .of (.register o), code => o.P code
  | .of (.memory o), _ => o.P
  | .of (.branch o), code => o.P code
  | .of .SYSCALL, _ => ⟨"syscall ---", []⟩
  | .of .BREAK, _ => ⟨"break   ---", []⟩
  | .of .UnknownOpcode, _ => ⟨"?????", []⟩
  | .of .MMI_Unknown, _ => ⟨"MMI ??", []⟩
  | .of .COP0, code | .COP0, code => (P_COP0 code).P
  | .COP1, code => (P_COP1 code).P
  | .COP2, code => (P_COP2 code).P
  | .SYNC, _ => ⟨"SYNC", []⟩
  | .MFSA, _ => ⟨"mfsa\t%s", [GPR_REG RD]⟩
  | .MTSA, _ => ⟨"mtsa\t%s", [GPR_REG RS]⟩
  | .TGE, _ => ⟨"tge\t%s, %s", [GPR_REG RS, GPR_REG RT]⟩
  | .TGEU, _ => ⟨"tgeu\t%s, %s", [GPR_REG RS, GPR_REG RT]⟩
  | .TLT, _ => ⟨"tlt\t%s, %s", [GPR_REG RS, GPR_REG RT]⟩
  | .TLTU, _ => ⟨"tltu\t%s, %s", [GPR_REG RS, GPR_REG RT]⟩
  | .TEQ, _ => ⟨"teq\t%s, %s", [GPR_REG RS, GPR_REG RT]⟩
  | .TNE, _ => ⟨"tne\t%s, %s", [GPR_REG RS, GPR_REG RT]⟩
  | .TGEI, _ => ⟨"tgei\t%s, 0x%04lX", [GPR_REG RS, DECODE_IMMED]⟩
  | .TGEIU, _ => ⟨"tgeiu\t%s,0x%04lX", [GPR_REG RS, DECODE_IMMED]⟩
  | .TLTI, _ => ⟨"tlti\t%s, 0x%04lX", [GPR_REG RS, DECODE_IMMED]⟩
  | .TLTIU, _ => ⟨"tltiu\t%s,0x%04lX", [GPR_REG RS, DECODE_IMMED]⟩
  | .TEQI, _ => ⟨"teqi\t%s, 0x%04lX", [GPR_REG RS, DECODE_IMMED]⟩
  | .TNEI, _ => ⟨"tnei\t%s, 0x%04lX", [GPR_REG RS, DECODE_IMMED]⟩
  | .MTSAB, _ => ⟨"mtsab\t%s, 0x%04lX", [GPR_REG RS, DECODE_IMMED]⟩
  | .MTSAH, _ => ⟨"mtsah\t%s, 0x%04lX", [GPR_REG RS, DECODE_IMMED]⟩
  | .CACHE, _ => ⟨"cache   ---", []⟩
  | .PREF, _ => ⟨"pref ---", []⟩
  | .LWC1, _ => ⟨"lwc1\t%s, 0x%04lX(%s)", [COP1_REG_FP FT, DECODE_IMMED, GPR_REG RS]⟩
  | .SWC1, _ => ⟨"swc1\t%s, 0x%04lX(%s)", [COP1_REG_FP FT, DECODE_IMMED, GPR_REG RS]⟩
  | .LQC2, _ => ⟨"lqc2\t%s, 0x%04lX(%s)", [COP2_REG_FP FT, DECODE_IMMED, GPR_REG RS]⟩
  | .SQC2, _ => ⟨"sqc2\t%s, 0x%04lX(%s)", [COP2_REG_FP FT, DECODE_IMMED, GPR_REG RS]⟩
  -- entries of the trace's tables only
  | .PEXTS, _ | .PPACS, _ | .NULL, _ => ⟨"", []⟩

end Printers

/-- `disR5900Fasm`: the line of the report for the word `code` at `pc`. -/
def disR5900FasmText (code pc : U32) : String :=
  sprintf "%08lX:\t%s" [.num pc.toNat, .str (((disR5900Fasm code).P code).text code pc)]

end Ps2Unpacker
