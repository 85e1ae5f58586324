import Ps2Unpacker.Framework.Printf
import Ps2Unpacker.Machine.Disassembler

/-!
# Operands of the report disassembler

Each function `P_X` of `DisR5900asm.c` is one call of `sprintf`: a format, and arguments decoded
from the word and from the address it is shown for. A `Format` is that call, with the arguments
named as in the source.

* `Arg.value`: the arguments; a register is printed by its name.
* `Format.text`: what the call leaves in the buffer.

A jump is shown with the region of its own address, not of its delay slot, and the target of a
branch is computed with 64 bits (`DECODE_OFFSET` adds an `int` to an `unsigned long`, the type that
`defines.h` takes for `u64`).
-/

namespace Ps2Unpacker

open CPrintf

/-! ### Names of registers -/

namespace DisR5900asm

def GPR_REG : Vector String 32 :=
  #v[
    "zero", "at", "v0", "v1", "a0", "a1", "a2", "a3",
    "t0", "t1", "t2", "t3", "t4", "t5", "t6", "t7",
    "s0", "s1", "s2", "s3", "s4", "s5", "s6", "s7",
    "t8", "t9", "k0", "k1", "gp", "sp", "fp", "ra"]

def COP0_REG : Vector String 32 :=
  #v[
    "Index", "Random", "EntryLo0", "EntryLo1", "Context", "PageMask", "Wired", "C0r7",
    "BadVaddr", "Count", "EntryHi", "Compare", "Status", "Cause", "EPC", "PRId",
    "Config", "C0r17", "C0r18", "C0r19", "C0r20", "C0r21", "C0r22", "C0r23",
    "Debug", "Perf", "C0r26", "C0r27", "TagLo", "TagHi", "ErrorPC", "C0r31"]

-- Register 22 is spelled as register 21 is, here and in the next two tables.
def COP1_REG_FP : Vector String 32 :=
  #v[
    "f00", "f01", "f02", "f03", "f04", "f05", "f06", "f07",
    "f08", "f09", "f10", "f11", "f12", "f13", "f14", "f15",
    "f16", "f17", "f18", "f19", "f20", "f21", "f21", "f23",
    "f24", "f25", "f26", "f27", "f28", "f29", "f30", "f31"]

def COP1_REG_FCR : Vector String 32 :=
  #v[
    "fcr00", "fcr01", "fcr02", "fcr03", "fcr04", "fcr05", "fcr06", "fcr07",
    "fcr08", "fcr09", "fcr10", "fcr11", "fcr12", "fcr13", "fcr14", "fcr15",
    "fcr16", "fcr17", "fcr18", "fcr19", "fcr20", "fcr21", "fcr21", "fcr23",
    "fcr24", "fcr25", "fcr26", "fcr27", "fcr28", "fcr29", "fcr30", "fcr31"]

def COP2_REG_FP : Vector String 32 :=
  #v[
    "vf00", "vf01", "vf02", "vf03", "vf04", "vf05", "vf06", "vf07",
    "vf08", "vf09", "vf10", "vf11", "vf12", "vf13", "vf14", "vf15",
    "vf16", "vf17", "vf18", "vf19", "vf20", "vf21", "vf21", "vf23",
    "vf24", "vf25", "vf26", "vf27", "vf28", "vf29", "vf30", "vf31"]

def COP2_REG_CTL : Vector String 32 :=
  #v[
    "vi00", "vi01", "vi02", "vi03", "vi04", "vi05", "vi06", "vi07",
    "vi08", "vi09", "vi10", "vi11", "vi12", "vi13", "vi14", "vi15",
    "Status", "MACflag", "ClipFlag", "c2c19", "R", "I", "Q", "c2c23",
    "c2c24", "c2c25", "TPC", "CMSAR0", "FBRST", "VPU-STAT", "c2c30", "CMSAR1"]

end DisR5900asm

/-! ### Decoding -/

/-- A register field of the word. -/
inductive RegField where
  | RD | RT | RS | SA
  deriving DecidableEq

/-- `DECODE_RD`, `DECODE_RT`, `DECODE_RS` and `DECODE_SA`. -/
def RegField.decode : RegField → U32 → BitVec 5
  | RD, code => code.extractLsb' 11 5
  | RT, code => code.extractLsb' 16 5
  | RS, code => code.extractLsb' 21 5
  | SA, code => code.extractLsb' 6 5

-- `DECODE_FS`, `DECODE_FT` and `DECODE_FD`
abbrev RegField.FS : RegField := .RD
abbrev RegField.FT : RegField := .RT
abbrev RegField.FD : RegField := .SA

namespace DisR5900asm

variable (code pc : U32)

/-- `DECODE_IMMED`. -/
def DECODE_IMMED : U32 := code &&& 0xFFFF

/-- `DECODE_OFFSET`. -/
def DECODE_OFFSET : U64 :=
  (((DECODE_IMMED code).setWidth 16).signExtend 32 * 4).signExtend 64 + pc.setWidth 64 + 4

/-- `DECODE_JUMP`. -/
def DECODE_JUMP : U64 := (pc &&& 0xf0000000 ||| (code &&& 0x3ffffff) <<< 2).setWidth 64

def jump_decode : String := sprintf "0x%08lX" [.num (DECODE_JUMP code pc).toNat]

def offset_decode : String := sprintf "0x%08lX" [.num (DECODE_OFFSET code pc).toNat]

/-- The fields of a vector that an instruction of `COP2` writes. -/
def dest_string : String :=
  String.ofList ((if code.getLsbD 24 then ['x'] else []) ++
    (if code.getLsbD 23 then ['y'] else []) ++ (if code.getLsbD 22 then ['z'] else []) ++
    if code.getLsbD 21 then ['w'] else [])

end DisR5900asm

/-! ### Formats -/

/-- An argument of a `sprintf`; the tables of names are indexed by a field. -/
inductive Arg where
  | GPR_REG (i : RegField)
  | COP0_REG (i : RegField)
  | COP1_REG_FP (i : RegField)
  | COP1_REG_FCR (i : RegField)
  | COP2_REG_FP (i : RegField)
  | COP2_REG_CTL (i : RegField)
  | DECODE_SA
  | DECODE_IMMED
  | jump_decode
  | offset_decode
  | dest_string
  deriving DecidableEq

def Arg.value (code pc : U32) : Arg → Value
  | .GPR_REG i => .str (DisR5900asm.GPR_REG.get (i.decode code).toFin)
  | .COP0_REG i => .str (DisR5900asm.COP0_REG.get (i.decode code).toFin)
  | .COP1_REG_FP i => .str (DisR5900asm.COP1_REG_FP.get (i.decode code).toFin)
  | .COP1_REG_FCR i => .str (DisR5900asm.COP1_REG_FCR.get (i.decode code).toFin)
  | .COP2_REG_FP i => .str (DisR5900asm.COP2_REG_FP.get (i.decode code).toFin)
  | .COP2_REG_CTL i => .str (DisR5900asm.COP2_REG_CTL.get (i.decode code).toFin)
  | .DECODE_SA => .num (RegField.SA.decode code).toNat
  | .DECODE_IMMED => .num (DisR5900asm.DECODE_IMMED code).toNat
  | .jump_decode => .str (DisR5900asm.jump_decode code pc)
  | .offset_decode => .str (DisR5900asm.offset_decode code pc)
  | .dest_string => .str (DisR5900asm.dest_string code)

/-- `sprintf(buf, format, args…)`; a `strcpy(buf, format)` has no arguments. -/
structure Format where
  format : String
  args : List Arg
  deriving DecidableEq

/-- The text in the buffer. -/
def Format.text (f : Format) (code pc : U32) : String :=
  sprintf f.format (f.args.map (Arg.value code pc))

end Ps2Unpacker
