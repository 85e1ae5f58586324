import Ps2Unpacker.Machine.Operands

/-!
# Coprocessor instructions in the reports

The tables of `DisR5900asm.c` behind the opcodes `COP0`, `COP1` and `COP2`. The interpreter executes
no more than three of these words, and the report shows them all.

* `CopOp`: the functions `P_X` that these tables hold, `CopOp.P` what they print.
* `P_COP0`, `P_COP1`, `P_COP2`: the one a word reaches.
-/

namespace Ps2Unpacker

/-- A function that prints a coprocessor instruction. -/
inductive CopOp where
  | MFC0 | COP0_Unknown | MTC0 | BC0F | BC0T | BC0FL | BC0TL | TLBR | TLBWI | TLBWR | TLBP | ERET
  | EI | DI
  | MFC1 | COP1_Unknown | CFC1 | MTC1 | CTC1 | BC1F | BC1T | BC1FL | BC1TL | ADD_S | SUB_S | MUL_S
  | DIV_S | SQRT_S | ABS_S | MOV_S | NEG_S | RSQRT_S | ADDA_S | SUBA_S | MULA_S | MADD_S | MSUB_S
  | MADDA_S | MSUBA_S | CVT_W | MAX_S | MIN_S | C_F | C_EQ | C_LT | C_LE | CVT_S
  | COP2_Unknown | QMFC2 | CFC2 | QMTC2 | CTC2 | BC2F | BC2T | BC2FL | BC2TL | VADDx | VADDy
  | VADDz | VADDw | VSUBx | VSUBy | VSUBz | VSUBw | VMADDx | VMADDy | VMADDz | VMADDw | VMSUBx
  | VMSUBy | VMSUBz | VMSUBw | VMAXx | VMAXy | VMAXz | VMAXw | VMINIx | VMINIy | VMINIz | VMINIw
  | VMULx | VMULy | VMULz | VMULw | VMULq | VMAXi | VMULi | VMINIi | VADDq | VMADDq | VADDi
  | VMADDi | VSUBq | VMSUBq | VSUbi | VMSUBi | VADD | VMADD | VMUL | VMAX | VSUB | VMSUB | VOPMSUB
  | VMINI | VIADD | VISUB | VIADDI | VIAND | VIOR | VCALLMS | CALLMSR | VADDAx | VADDAy | VADDAz
  | VADDAw | VSUBAx | VSUBAy | VSUBAz | VSUBAw | VMADDAx | VMADDAy | VMADDAz | VMADDAw | VMSUBAx
  | VMSUBAy | VMSUBAz | VMSUBAw | VITOF0 | VITOF4 | VITOF12 | VITOF15 | VFTOI0 | VFTOI4 | VFTOI12
  | VFTOI15 | VMULAx | VMULAy | VMULAz | VMULAw | VMULAq | VABS | VMULAi | VCLIPw | VADDAq
  | VMADDAq | VADDAi | VMADDAi | VSUBAq | VMSUBAq | VSUBAi | VMSUBAi | VADDA | VMADDA | VMULA
  | VSUBA | VMSUBA | VOPMULA | VNOP | VMONE | VMR32 | VLQI | VSQI | VLQD | VSQD | VDIV | VSQRT
  | VRSQRT | VWAITQ | VMTIR | VMFIR | VILWR | VISWR | VRNEXT | VRGET | VRINIT | VRXOR
  deriving DecidableEq

/-- An entry of a table: a function that prints, or one that dispatches on another field. -/
inductive CopEntry where
  | print (o : CopOp)
  | BC0 | Func | BC1 | S | W | BC2 | SPECIAL | SPECIAL2

instance : Coe CopOp CopEntry := ⟨.print⟩

/-! ### What they print -/

section Printers

open Arg RegField

/-- `P_X` for each `X`. -/
def CopOp.P : CopOp → Format
  | MFC0 => ⟨"mfc0\t%s, %s", [GPR_REG RT, COP0_REG FS]⟩
  | COP0_Unknown => ⟨"COP0 ??", []⟩
  | MTC0 => ⟨"mtc0\t%s, %s", [GPR_REG RT, COP0_REG FS]⟩
  | BC0F => ⟨"bc0f\t%s", [offset_decode]⟩
  | BC0T => ⟨"bc0t\t%s", [offset_decode]⟩
  | BC0FL => ⟨"bc0fl\t%s", [offset_decode]⟩
  | BC0TL => ⟨"bc0tl\t%s", [offset_decode]⟩
  | TLBR => ⟨"tlbr", []⟩
  | TLBWI => ⟨"tlbwi", []⟩
  | TLBWR => ⟨"tlbwr", []⟩
  | TLBP => ⟨"tlbp", []⟩
  | ERET => ⟨"eret", []⟩
  | EI => ⟨"ei", []⟩
  | DI => ⟨"di", []⟩
  | MFC1 => ⟨"mfc1\t%s, %s", [GPR_REG RT, COP1_REG_FP FS]⟩
  | COP1_Unknown => ⟨"COP1 ??", []⟩
  | CFC1 => ⟨"cfc1\t%s, %s", [GPR_REG RT, COP1_REG_FCR FS]⟩
  | MTC1 => ⟨"mtc1\t%s, %s", [GPR_REG RT, COP1_REG_FP FS]⟩
  | CTC1 => ⟨"ctc1\t%s, %s", [GPR_REG RT, COP1_REG_FCR FS]⟩
  | BC1F => ⟨"bc1f\t%s", [offset_decode]⟩
  | BC1T => ⟨"bc1t\t%s", [offset_decode]⟩
  | BC1FL => ⟨"bc1fl\t%s", [offset_decode]⟩
  | BC1TL => ⟨"bc1tl\t%s", [offset_decode]⟩
  | ADD_S => ⟨"add.s\t%s, %s, %s", [COP1_REG_FP FD, COP1_REG_FP FS, COP1_REG_FP FT]⟩
  | SUB_S => ⟨"sub.s\t%s, %s, %s", [COP1_REG_FP FD, COP1_REG_FP FS, COP1_REG_FP FT]⟩
  | MUL_S => ⟨"mul.s\t%s, %s, %s", [COP1_REG_FP FD, COP1_REG_FP FS, COP1_REG_FP FT]⟩
  | DIV_S => ⟨"div.s\t%s, %s, %s", [COP1_REG_FP FD, COP1_REG_FP FS, COP1_REG_FP FT]⟩
  | SQRT_S => ⟨"sqrt.s\t%s, %s", [COP1_REG_FP FD, COP1_REG_FP FT]⟩
  | ABS_S => ⟨"abs.s\t%s, %s", [COP1_REG_FP FD, COP1_REG_FP FS]⟩
  | MOV_S => ⟨"mov.s\t%s, %s", [COP1_REG_FP FD, COP1_REG_FP FS]⟩
  | NEG_S => ⟨"neg.s\t%s, %s", [COP1_REG_FP FD, COP1_REG_FP FS]⟩
  | RSQRT_S => ⟨"rsqrt.s\t%s, %s, %s", [COP1_REG_FP FD, COP1_REG_FP FS, COP1_REG_FP FT]⟩
  | ADDA_S => ⟨"adda.s\t%s, %s", [COP1_REG_FP FS, COP1_REG_FP FT]⟩
  | SUBA_S => ⟨"suba.s\t%s, %s", [COP1_REG_FP FS, COP1_REG_FP FT]⟩
  | MULA_S => ⟨"mula.s\t%s, %s", [COP1_REG_FP FS, COP1_REG_FP FT]⟩
  | MADD_S => ⟨"madd.s\t%s, %s, %s", [COP1_REG_FP FD, COP1_REG_FP FS, COP1_REG_FP FT]⟩
  | MSUB_S => ⟨"msub.s\t%s, %s, %s", [COP1_REG_FP FD, COP1_REG_FP FS, COP1_REG_FP FT]⟩
  | MADDA_S => ⟨"madda.s\t%s, %s", [COP1_REG_FP FS, COP1_REG_FP FT]⟩
  | MSUBA_S => ⟨"msuba.s\t%s, %s", [COP1_REG_FP FS, COP1_REG_FP FT]⟩
  | CVT_W => ⟨"cvt.w.s\t%s, %s", [COP1_REG_FP FD, COP1_REG_FP FS]⟩
  | MAX_S => ⟨"max.s\t%s, %s, %s", [COP1_REG_FP FD, COP1_REG_FP FS, COP1_REG_FP FT]⟩
  | MIN_S => ⟨"min.s\t%s, %s, %s", [COP1_REG_FP FD, COP1_REG_FP FS, COP1_REG_FP FT]⟩
  | C_F => ⟨"c.f.s\t%s, %s", [COP1_REG_FP FS, COP1_REG_FP FT]⟩
  | C_EQ => ⟨"c.eq.s\t%s, %s", [COP1_REG_FP FS, COP1_REG_FP FT]⟩
  | C_LT => ⟨"c.lt.s\t%s, %s", [COP1_REG_FP FS, COP1_REG_FP FT]⟩
  | C_LE => ⟨"c.le.s\t%s, %s", [COP1_REG_FP FS, COP1_REG_FP FT]⟩
  | CVT_S => ⟨"cvt.s.w\t%s, %s", [COP1_REG_FP FD, COP1_REG_FP FS]⟩
  | COP2_Unknown => ⟨"COP2 ??", []⟩
  | QMFC2 => ⟨"qmfc2\t%s, %s", [GPR_REG RT, COP2_REG_FP FS]⟩
  | CFC2 => ⟨"cfc2\t%s, %s", [GPR_REG RT, COP2_REG_CTL FS]⟩
  | QMTC2 => ⟨"qmtc2\t%s, %s", [GPR_REG RT, COP2_REG_FP FS]⟩
  | CTC2 => ⟨"ctc2\t%s, %s", [GPR_REG RT, COP2_REG_CTL FS]⟩
  | BC2F => ⟨"bc2f\t%s", [offset_decode]⟩
  | BC2T => ⟨"bc2t\t%s", [offset_decode]⟩
  | BC2FL => ⟨"bc2fl\t%s", [offset_decode]⟩
  | BC2TL => ⟨"bc2tl\t%s", [offset_decode]⟩
  | VADDx =>
    ⟨"vaddx.%s  %s, %s, %sx", [dest_string, COP2_REG_FP FD, COP2_REG_FP FS, COP2_REG_FP FT]⟩
  | VADDy =>
    ⟨"vaddy.%s  %s, %s, %sy", [dest_string, COP2_REG_FP FD, COP2_REG_FP FS, COP2_REG_FP FT]⟩
  | VADDz =>
    ⟨"vaddz.%s  %s, %s, %sz", [dest_string, COP2_REG_FP FD, COP2_REG_FP FS, COP2_REG_FP FT]⟩
  | VADDw =>
    ⟨"vaddw.%s  %s, %s, %sw", [dest_string, COP2_REG_FP FD, COP2_REG_FP FS, COP2_REG_FP FT]⟩
  | VSUBx =>
    ⟨"vsubx.%s  %s, %s, %sx", [dest_string, COP2_REG_FP FD, COP2_REG_FP FS, COP2_REG_FP FT]⟩
  | VSUBy =>
    ⟨"vsuby.%s  %s, %s, %sy", [dest_string, COP2_REG_FP FD, COP2_REG_FP FS, COP2_REG_FP FT]⟩
  | VSUBz =>
    ⟨"vsubz.%s  %s, %s, %sz", [dest_string, COP2_REG_FP FD, COP2_REG_FP FS, COP2_REG_FP FT]⟩
  | VSUBw =>
    ⟨"vsubw.%s  %s, %s, %sw", [dest_string, COP2_REG_FP FD, COP2_REG_FP FS, COP2_REG_FP FT]⟩
  | VMADDx =>
    ⟨"vmaddx.%s  %s, %s, %sx", [dest_string, COP2_REG_FP FD, COP2_REG_FP FS, COP2_REG_FP FT]⟩
  | VMADDy =>
    ⟨"vmaddy.%s  %s, %s, %sy", [dest_string, COP2_REG_FP FD, COP2_REG_FP FS, COP2_REG_FP FT]⟩
  | VMADDz =>
    ⟨"vmaddz.%s  %s, %s, %sz", [dest_string, COP2_REG_FP FD, COP2_REG_FP FS, COP2_REG_FP FT]⟩
  | VMADDw =>
    ⟨"vmaddw.%s  %s, %s, %sw", [dest_string, COP2_REG_FP FD, COP2_REG_FP FS, COP2_REG_FP FT]⟩
  | VMSUBx =>
    ⟨"vmsubx.%s  %s, %s, %sx", [dest_string, COP2_REG_FP FD, COP2_REG_FP FS, COP2_REG_FP FT]⟩
  | VMSUBy =>
    ⟨"vmsuby.%s  %s, %s, %sy", [dest_string, COP2_REG_FP FD, COP2_REG_FP FS, COP2_REG_FP FT]⟩
  | VMSUBz =>
    ⟨"vmsubz.%s  %s, %s, %sz", [dest_string, COP2_REG_FP FD, COP2_REG_FP FS, COP2_REG_FP FT]⟩
  | VMSUBw =>
    ⟨"vmsubw.%s  %s, %s, %sw", [dest_string, COP2_REG_FP FD, COP2_REG_FP FS, COP2_REG_FP FT]⟩
  | VMAXx =>
    ⟨"vmaxx.%s  %s, %s, %sx", [dest_string, COP2_REG_FP FD, COP2_REG_FP FS, COP2_REG_FP FT]⟩
  | VMAXy =>
    ⟨"vmaxy.%s  %s, %s, %sy", [dest_string, COP2_REG_FP FD, COP2_REG_FP FS, COP2_REG_FP FT]⟩
  | VMAXz =>
    ⟨"vmaxz.%s  %s, %s, %sz", [dest_string, COP2_REG_FP FD, COP2_REG_FP FS, COP2_REG_FP FT]⟩
  | VMAXw =>
    ⟨"vmaxw.%s  %s, %s, %sw", [dest_string, COP2_REG_FP FD, COP2_REG_FP FS, COP2_REG_FP FT]⟩
  | VMINIx =>
    ⟨"vminix.%s  %s, %s, %sx", [dest_string, COP2_REG_FP FD, COP2_REG_FP FS, COP2_REG_FP FT]⟩
  | VMINIy =>
    ⟨"vminiy.%s  %s, %s, %sy", [dest_string, COP2_REG_FP FD, COP2_REG_FP FS, COP2_REG_FP FT]⟩
  | VMINIz =>
    ⟨"vminiz.%s  %s, %s, %sz", [dest_string, COP2_REG_FP FD, COP2_REG_FP FS, COP2_REG_FP FT]⟩
  | VMINIw =>
    ⟨"vminiw.%s  %s, %s, %sw", [dest_string, COP2_REG_FP FD, COP2_REG_FP FS, COP2_REG_FP FT]⟩
  | VMULx => ⟨"vmulx.%s  %s,%s,%sx", [dest_string, COP2_REG_FP FD, COP2_REG_FP FS, COP2_REG_FP FT]⟩
  | VMULy => ⟨"vmuly.%s  %s,%s,%sy", [dest_string, COP2_REG_FP FD, COP2_REG_FP FS, COP2_REG_FP FT]⟩
  | VMULz => ⟨"vmulz.%s  %s,%s,%sz", [dest_string, COP2_REG_FP FD, COP2_REG_FP FS, COP2_REG_FP FT]⟩
  | VMULw => ⟨"vmulw.%s  %s,%s,%sw", [dest_string, COP2_REG_FP FD, COP2_REG_FP FS, COP2_REG_FP FT]⟩
  | VMULq => ⟨"vmulq.%s  %s,%s,Q", [dest_string, COP2_REG_FP FD, COP2_REG_FP FS]⟩
  | VMAXi => ⟨"vmaxi.%s  %s,%s,I", [dest_string, COP2_REG_FP FD, COP2_REG_FP FS]⟩
  | VMULi => ⟨"vmuli.%s  %s,%s,I", [dest_string, COP2_REG_FP FD, COP2_REG_FP FS]⟩
  | VMINIi => ⟨"vminii.%s  %s,%s,I", [dest_string, COP2_REG_FP FD, COP2_REG_FP FS]⟩
  | VADDq => ⟨"vaddq.%s  %s,%s,Q", [dest_string, COP2_REG_FP FD, COP2_REG_FP FS]⟩
  | VMADDq => ⟨"vmaddq.%s  %s,%s,Q", [dest_string, COP2_REG_FP FD, COP2_REG_FP FS]⟩
  | VADDi => ⟨"vaddi.%s  %s,%s,I", [dest_string, COP2_REG_FP FD, COP2_REG_FP FS]⟩
  | VMADDi => ⟨"vmaddi.%s  %s,%s,I", [dest_string, COP2_REG_FP FD, COP2_REG_FP FS]⟩
  | VSUBq => ⟨"vsubq.%s  %s,%s,Q", [dest_string, COP2_REG_FP FD, COP2_REG_FP FS]⟩
  | VMSUBq => ⟨"vmsubq.%s  %s,%s,Q", [dest_string, COP2_REG_FP FD, COP2_REG_FP FS]⟩
  | VSUbi => ⟨"vsubi.%s  %s,%s,I", [dest_string, COP2_REG_FP FD, COP2_REG_FP FS]⟩
  | VMSUBi => ⟨"vmsubi.%s  %s,%s,I", [dest_string, COP2_REG_FP FD, COP2_REG_FP FS]⟩
  | VADD => ⟨"vadd.%s  %s, %s, %s", [dest_string, COP2_REG_FP FD, COP2_REG_FP FS, COP2_REG_FP FT]⟩
  | VMADD => ⟨"vmadd.%s  %s, %s, %s", [dest_string, COP2_REG_FP FD, COP2_REG_FP FS, COP2_REG_FP FT]⟩
  | VMUL => ⟨"vmul.%s  %s, %s, %s", [dest_string, COP2_REG_FP FD, COP2_REG_FP FS, COP2_REG_FP FT]⟩
  | VMAX => ⟨"vmax.%s  %s, %s, %s", [dest_string, COP2_REG_FP FD, COP2_REG_FP FS, COP2_REG_FP FT]⟩
  | VSUB => ⟨"vsub.%s  %s, %s, %s", [dest_string, COP2_REG_FP FD, COP2_REG_FP FS, COP2_REG_FP FT]⟩
  | VMSUB => ⟨"vmsub.%s  %s, %s, %s", [dest_string, COP2_REG_FP FD, COP2_REG_FP FS, COP2_REG_FP FT]⟩
  | VOPMSUB => ⟨"vopmsub.xyz  %s, %s, %s", [COP2_REG_FP FD, COP2_REG_FP FS, COP2_REG_FP FT]⟩
  | VMINI => ⟨"vmini.%s  %s, %s, %s", [dest_string, COP2_REG_FP FD, COP2_REG_FP FS, COP2_REG_FP FT]⟩
  | VIADD => ⟨"viadd", []⟩
  | VISUB => ⟨"visub", []⟩
  | VIADDI => ⟨"viaddi", []⟩
  | VIAND => ⟨"viand", []⟩
  | VIOR => ⟨"vior", []⟩
  | VCALLMS => ⟨"vcallms", []⟩
  | CALLMSR => ⟨"callmsr", []⟩
  | VADDAx => ⟨"vaddax.%s ACC,%s,%sx", [dest_string, COP2_REG_FP FS, COP2_REG_FP FT]⟩
  | VADDAy => ⟨"vadday.%s ACC,%s,%sy", [dest_string, COP2_REG_FP FS, COP2_REG_FP FT]⟩
  | VADDAz => ⟨"vaddaz.%s ACC,%s,%sz", [dest_string, COP2_REG_FP FS, COP2_REG_FP FT]⟩
  | VADDAw => ⟨"vaddaw.%s ACC,%s,%sw", [dest_string, COP2_REG_FP FS, COP2_REG_FP FT]⟩
  | VSUBAx => ⟨"vsubax.%s ACC,%s,%sx", [dest_string, COP2_REG_FP FS, COP2_REG_FP FT]⟩
  | VSUBAy => ⟨"vsubay.%s ACC,%s,%sy", [dest_string, COP2_REG_FP FS, COP2_REG_FP FT]⟩
  | VSUBAz => ⟨"vsubaz.%s ACC,%s,%sz", [dest_string, COP2_REG_FP FS, COP2_REG_FP FT]⟩
  | VSUBAw => ⟨"vsubaw.%s ACC,%s,%sw", [dest_string, COP2_REG_FP FS, COP2_REG_FP FT]⟩
  | VMADDAx => ⟨"vmaddax.%s ACC,%s,%sx", [dest_string, COP2_REG_FP FS, COP2_REG_FP FT]⟩
  | VMADDAy => ⟨"vmadday.%s ACC,%s,%sy", [dest_string, COP2_REG_FP FS, COP2_REG_FP FT]⟩
  | VMADDAz => ⟨"vmaddaz.%s ACC,%s,%sz", [dest_string, COP2_REG_FP FS, COP2_REG_FP FT]⟩
  | VMADDAw => ⟨"vmaddaw.%s ACC,%s,%sw", [dest_string, COP2_REG_FP FS, COP2_REG_FP FT]⟩
  | VMSUBAx => ⟨"vmsubax.%s ACC,%s,%sx", [dest_string, COP2_REG_FP FS, COP2_REG_FP FT]⟩
  | VMSUBAy => ⟨"vmsubay.%s ACC,%s,%sy", [dest_string, COP2_REG_FP FS, COP2_REG_FP FT]⟩
  | VMSUBAz => ⟨"vmsubaz.%s ACC,%s,%sz", [dest_string, COP2_REG_FP FS, COP2_REG_FP FT]⟩
  | VMSUBAw => ⟨"vmsubaw.%s ACC,%s,%sw", [dest_string, COP2_REG_FP FS, COP2_REG_FP FT]⟩
  | VITOF0 => ⟨"vitof0.%s  %s, %s", [dest_string, COP2_REG_FP FT, COP2_REG_FP FS]⟩
  | VITOF4 => ⟨"vitof4.%s  %s, %s", [dest_string, COP2_REG_FP FT, COP2_REG_FP FS]⟩
  | VITOF12 => ⟨"vitof12.%s  %s, %s", [dest_string, COP2_REG_FP FT, COP2_REG_FP FS]⟩
  | VITOF15 => ⟨"vitof15.%s  %s, %s", [dest_string, COP2_REG_FP FT, COP2_REG_FP FS]⟩
  | VFTOI0 => ⟨"vftoi0.%s  %s, %s", [dest_string, COP2_REG_FP FT, COP2_REG_FP FS]⟩
  | VFTOI4 => ⟨"vftoi4.%s  %s, %s", [dest_string, COP2_REG_FP FT, COP2_REG_FP FS]⟩
  | VFTOI12 => ⟨"vftoi12.%s  %s, %s", [dest_string, COP2_REG_FP FT, COP2_REG_FP FS]⟩
  | VFTOI15 => ⟨"vftoi15.%s  %s, %s", [dest_string, COP2_REG_FP FT, COP2_REG_FP FS]⟩
  | VMULAx => ⟨"vmulax.%s ACC,%s,%sx", [dest_string, COP2_REG_FP FS, COP2_REG_FP FT]⟩
  | VMULAy => ⟨"vmulay.%s ACC,%s,%sy", [dest_string, COP2_REG_FP FS, COP2_REG_FP FT]⟩
  | VMULAz => ⟨"vmulaz.%s ACC,%s,%sz", [dest_string, COP2_REG_FP FS, COP2_REG_FP FT]⟩
  | VMULAw => ⟨"vmulaw.%s ACC,%s,%sw", [dest_string, COP2_REG_FP FS, COP2_REG_FP FT]⟩
  | VMULAq => ⟨"vmulaq.%s ACC %s, Q", [dest_string, COP2_REG_FP FS]⟩
  | VABS => ⟨"vabs.%s  %s, %s", [dest_string, COP2_REG_FP FT, COP2_REG_FP FS]⟩
  | VMULAi => ⟨"vmulaq.%s ACC %s, I", [dest_string, COP2_REG_FP FS]⟩
  | VCLIPw => ⟨"vclip", []⟩
  | VADDAq => ⟨"vaddaq.%s ACC %s, Q", [dest_string, COP2_REG_FP FS]⟩
  | VMADDAq => ⟨"vmaddaq.%s ACC %s, Q", [dest_string, COP2_REG_FP FS]⟩
  | VADDAi => ⟨"vaddai.%s ACC %s, I", [dest_string, COP2_REG_FP FS]⟩
  | VMADDAi => ⟨"vmaddai.%s ACC %s, Q", [dest_string, COP2_REG_FP FS]⟩
  | VSUBAq => ⟨"vsubaq.%s ACC %s, Q", [dest_string, COP2_REG_FP FS]⟩
  | VMSUBAq => ⟨"vmsubaq.%s ACC %s, Q", [dest_string, COP2_REG_FP FS]⟩
  | VSUBAi => ⟨"vsubai.%s ACC %s, I", [dest_string, COP2_REG_FP FS]⟩
  | VMSUBAi => ⟨"vmsubai.%s ACC %s, I", [dest_string, COP2_REG_FP FS]⟩
  | VADDA => ⟨"vadda.%s ACC %s, %s", [dest_string, COP2_REG_FP FS, COP2_REG_FP FT]⟩
  | VMADDA => ⟨"vmadda.%s ACC %s, %s", [dest_string, COP2_REG_FP FS, COP2_REG_FP FT]⟩
  | VMULA => ⟨"vmula.%s ACC %s, %s", [dest_string, COP2_REG_FP FS, COP2_REG_FP FT]⟩
  | VSUBA => ⟨"vsuba.%s ACC %s, %s", [dest_string, COP2_REG_FP FS, COP2_REG_FP FT]⟩
  | VMSUBA => ⟨"vmsuba.%s ACC %s, %s", [dest_string, COP2_REG_FP FS, COP2_REG_FP FT]⟩
  | VOPMULA => ⟨"vopmula.xyz %sxyz, %sxyz", [COP2_REG_FP FS, COP2_REG_FP FT]⟩
  | VNOP => ⟨"vnop", []⟩
  | VMONE => ⟨"vmove.%s, %s, %s", [dest_string, COP2_REG_FP FT, COP2_REG_FP FS]⟩
  | VMR32 => ⟨"vmr32.%s, %s, %s", [dest_string, COP2_REG_FP FT, COP2_REG_FP FS]⟩
  | VLQI => ⟨"vlqi", []⟩
  | VSQI => ⟨"vsqi", []⟩
  | VLQD => ⟨"vlqd", []⟩
  | VSQD => ⟨"vsqd", []⟩
  | VDIV => ⟨"vdiv", []⟩
  | VSQRT => ⟨"vsqrt", []⟩
  | VRSQRT => ⟨"vrsqrt", []⟩
  | VWAITQ => ⟨"vwaitq", []⟩
  | VMTIR => ⟨"vmtir", []⟩
  | VMFIR => ⟨"vmfir", []⟩
  | VILWR => ⟨"vilwr", []⟩
  | VISWR => ⟨"viswr", []⟩
  | VRNEXT => ⟨"vrnext", []⟩
  | VRGET => ⟨"vrget", []⟩
  | VRINIT => ⟨"vrinit", []⟩
  | VRXOR => ⟨"vrxor", []⟩

end Printers

/-! ### The tables -/

section Tables

open CopOp CopEntry

def COP0PrintTable : Vector CopEntry 32 :=
  #v[
    MFC0, COP0_Unknown, COP0_Unknown, COP0_Unknown,
      MTC0, COP0_Unknown, COP0_Unknown, COP0_Unknown,
    BC0, COP0_Unknown, COP0_Unknown, COP0_Unknown,
      COP0_Unknown, COP0_Unknown, COP0_Unknown, COP0_Unknown,
    Func, COP0_Unknown, COP0_Unknown, COP0_Unknown,
      COP0_Unknown, COP0_Unknown, COP0_Unknown, COP0_Unknown,
    COP0_Unknown, COP0_Unknown, COP0_Unknown, COP0_Unknown,
      COP0_Unknown, COP0_Unknown, COP0_Unknown, COP0_Unknown]

def COP0BC0PrintTable : Vector CopOp 32 :=
  #v[
    BC0F, BC0T, BC0FL, BC0TL, COP0_Unknown, COP0_Unknown, COP0_Unknown, COP0_Unknown,
    COP0_Unknown, COP0_Unknown, COP0_Unknown, COP0_Unknown,
      COP0_Unknown, COP0_Unknown, COP0_Unknown, COP0_Unknown,
    COP0_Unknown, COP0_Unknown, COP0_Unknown, COP0_Unknown,
      COP0_Unknown, COP0_Unknown, COP0_Unknown, COP0_Unknown,
    COP0_Unknown, COP0_Unknown, COP0_Unknown, COP0_Unknown,
      COP0_Unknown, COP0_Unknown, COP0_Unknown, COP0_Unknown]

def COP0C0PrintTable : Vector CopOp 64 :=
  ⟨⟨
    COP0_Unknown :: TLBR :: TLBWI :: COP0_Unknown ::
      COP0_Unknown :: COP0_Unknown :: TLBWR :: COP0_Unknown ::
    TLBP :: COP0_Unknown :: COP0_Unknown :: COP0_Unknown ::
      COP0_Unknown :: COP0_Unknown :: COP0_Unknown :: COP0_Unknown ::
    COP0_Unknown :: COP0_Unknown :: COP0_Unknown :: COP0_Unknown ::
      COP0_Unknown :: COP0_Unknown :: COP0_Unknown :: COP0_Unknown ::
    ERET :: COP0_Unknown :: COP0_Unknown :: COP0_Unknown ::
      COP0_Unknown :: COP0_Unknown :: COP0_Unknown :: COP0_Unknown ::
    COP0_Unknown :: COP0_Unknown :: COP0_Unknown :: COP0_Unknown ::
      COP0_Unknown :: COP0_Unknown :: COP0_Unknown :: COP0_Unknown ::
    COP0_Unknown :: COP0_Unknown :: COP0_Unknown :: COP0_Unknown ::
      COP0_Unknown :: COP0_Unknown :: COP0_Unknown :: COP0_Unknown ::
    COP0_Unknown :: COP0_Unknown :: COP0_Unknown :: COP0_Unknown ::
      COP0_Unknown :: COP0_Unknown :: COP0_Unknown :: COP0_Unknown ::
    EI :: DI :: COP0_Unknown :: COP0_Unknown ::
      COP0_Unknown :: COP0_Unknown :: COP0_Unknown :: COP0_Unknown :: []⟩, rfl⟩

def COP1PrintTable : Vector CopEntry 32 :=
  #v[
    MFC1, COP1_Unknown, CFC1, COP1_Unknown, MTC1, COP1_Unknown, CTC1, COP1_Unknown,
    BC1, COP1_Unknown, COP1_Unknown, COP1_Unknown,
      COP1_Unknown, COP1_Unknown, COP1_Unknown, COP1_Unknown,
    S, COP1_Unknown, COP1_Unknown, COP1_Unknown, W, COP1_Unknown, COP1_Unknown, COP1_Unknown,
    COP1_Unknown, COP1_Unknown, COP1_Unknown, COP1_Unknown,
      COP1_Unknown, COP1_Unknown, COP1_Unknown, COP1_Unknown]

def COP1BC1PrintTable : Vector CopOp 32 :=
  #v[
    BC1F, BC1T, BC1FL, BC1TL, COP1_Unknown, COP1_Unknown, COP1_Unknown, COP1_Unknown,
    COP1_Unknown, COP1_Unknown, COP1_Unknown, COP1_Unknown,
      COP1_Unknown, COP1_Unknown, COP1_Unknown, COP1_Unknown,
    COP1_Unknown, COP1_Unknown, COP1_Unknown, COP1_Unknown,
      COP1_Unknown, COP1_Unknown, COP1_Unknown, COP1_Unknown,
    COP1_Unknown, COP1_Unknown, COP1_Unknown, COP1_Unknown,
      COP1_Unknown, COP1_Unknown, COP1_Unknown, COP1_Unknown]

def COP1SPrintTable : Vector CopOp 64 :=
  ⟨⟨
    ADD_S :: SUB_S :: MUL_S :: DIV_S :: SQRT_S :: ABS_S :: MOV_S :: NEG_S ::
    COP1_Unknown :: COP1_Unknown :: COP1_Unknown :: COP1_Unknown ::
      COP1_Unknown :: COP1_Unknown :: COP1_Unknown :: COP1_Unknown ::
    COP1_Unknown :: COP1_Unknown :: COP1_Unknown :: COP1_Unknown ::
      COP1_Unknown :: COP1_Unknown :: RSQRT_S :: COP1_Unknown ::
    ADDA_S :: SUBA_S :: MULA_S :: COP1_Unknown :: MADD_S :: MSUB_S :: MADDA_S :: MSUBA_S ::
    COP1_Unknown :: COP1_Unknown :: COP1_Unknown :: COP1_Unknown ::
      CVT_W :: COP1_Unknown :: COP1_Unknown :: COP1_Unknown ::
    MAX_S :: MIN_S :: COP1_Unknown :: COP1_Unknown ::
      COP1_Unknown :: COP1_Unknown :: COP1_Unknown :: COP1_Unknown ::
    C_F :: COP1_Unknown :: C_EQ :: COP1_Unknown :: C_LT :: COP1_Unknown :: C_LE :: COP1_Unknown ::
    COP1_Unknown :: COP1_Unknown :: COP1_Unknown :: COP1_Unknown ::
      COP1_Unknown :: COP1_Unknown :: COP1_Unknown :: COP1_Unknown :: []⟩, rfl⟩

def COP1WPrintTable : Vector CopOp 64 :=
  ⟨⟨
    COP1_Unknown :: COP1_Unknown :: COP1_Unknown :: COP1_Unknown ::
      COP1_Unknown :: COP1_Unknown :: COP1_Unknown :: COP1_Unknown ::
    COP1_Unknown :: COP1_Unknown :: COP1_Unknown :: COP1_Unknown ::
      COP1_Unknown :: COP1_Unknown :: COP1_Unknown :: COP1_Unknown ::
    COP1_Unknown :: COP1_Unknown :: COP1_Unknown :: COP1_Unknown ::
      COP1_Unknown :: COP1_Unknown :: COP1_Unknown :: COP1_Unknown ::
    COP1_Unknown :: COP1_Unknown :: COP1_Unknown :: COP1_Unknown ::
      COP1_Unknown :: COP1_Unknown :: COP1_Unknown :: COP1_Unknown ::
    CVT_S :: COP1_Unknown :: COP1_Unknown :: COP1_Unknown ::
      COP1_Unknown :: COP1_Unknown :: COP1_Unknown :: COP1_Unknown ::
    COP1_Unknown :: COP1_Unknown :: COP1_Unknown :: COP1_Unknown ::
      COP1_Unknown :: COP1_Unknown :: COP1_Unknown :: COP1_Unknown ::
    COP1_Unknown :: COP1_Unknown :: COP1_Unknown :: COP1_Unknown ::
      COP1_Unknown :: COP1_Unknown :: COP1_Unknown :: COP1_Unknown ::
    COP1_Unknown :: COP1_Unknown :: COP1_Unknown :: COP1_Unknown ::
      COP1_Unknown :: COP1_Unknown :: COP1_Unknown :: COP1_Unknown :: []⟩, rfl⟩

def COP2PrintTable : Vector CopEntry 32 :=
  #v[
    COP2_Unknown, QMFC2, CFC2, COP2_Unknown, COP2_Unknown, QMTC2, CTC2, COP2_Unknown,
    BC2, COP2_Unknown, COP2_Unknown, COP2_Unknown,
      COP2_Unknown, COP2_Unknown, COP2_Unknown, COP2_Unknown,
    SPECIAL, SPECIAL, SPECIAL, SPECIAL, SPECIAL, SPECIAL, SPECIAL, SPECIAL,
    SPECIAL, SPECIAL, SPECIAL, SPECIAL, SPECIAL, SPECIAL, SPECIAL, SPECIAL]

def COP2BC2PrintTable : Vector CopOp 32 :=
  #v[
    BC2F, BC2T, BC2FL, BC2TL, COP2_Unknown, COP2_Unknown, COP2_Unknown, COP2_Unknown,
    COP2_Unknown, COP2_Unknown, COP2_Unknown, COP2_Unknown,
      COP2_Unknown, COP2_Unknown, COP2_Unknown, COP2_Unknown,
    COP2_Unknown, COP2_Unknown, COP2_Unknown, COP2_Unknown,
      COP2_Unknown, COP2_Unknown, COP2_Unknown, COP2_Unknown,
    COP2_Unknown, COP2_Unknown, COP2_Unknown, COP2_Unknown,
      COP2_Unknown, COP2_Unknown, COP2_Unknown, COP2_Unknown]

def COP2SPECIAL1PrintTable : Vector CopEntry 64 :=
  ⟨⟨
    VADDx :: VADDy :: VADDz :: VADDw :: VSUBx :: VSUBy :: VSUBz :: VSUBw ::
    VMADDx :: VMADDy :: VMADDz :: VMADDw :: VMSUBx :: VMSUBy :: VMSUBz :: VMSUBw ::
    VMAXx :: VMAXy :: VMAXz :: VMAXw :: VMINIx :: VMINIy :: VMINIz :: VMINIw ::
    VMULx :: VMULy :: VMULz :: VMULw :: VMULq :: VMAXi :: VMULi :: VMINIi ::
    VADDq :: VMADDq :: VADDi :: VMADDi :: VSUBq :: VMSUBq :: VSUbi :: VMSUBi ::
    VADD :: VMADD :: VMUL :: VMAX :: VSUB :: VMSUB :: VOPMSUB :: VMINI ::
    VIADD :: VISUB :: VIADDI :: COP2_Unknown :: VIAND :: VIOR :: COP2_Unknown :: COP2_Unknown ::
    VCALLMS :: CALLMSR :: COP2_Unknown :: COP2_Unknown ::
      SPECIAL2 :: SPECIAL2 :: SPECIAL2 :: SPECIAL2 :: []⟩, rfl⟩

def COP2SPECIAL2PrintTable : Vector CopOp 128 :=
  ⟨⟨
    VADDAx :: VADDAy :: VADDAz :: VADDAw :: VSUBAx :: VSUBAy :: VSUBAz :: VSUBAw ::
    VMADDAx :: VMADDAy :: VMADDAz :: VMADDAw :: VMSUBAx :: VMSUBAy :: VMSUBAz :: VMSUBAw ::
    VITOF0 :: VITOF4 :: VITOF12 :: VITOF15 :: VFTOI0 :: VFTOI4 :: VFTOI12 :: VFTOI15 ::
    VMULAx :: VMULAy :: VMULAz :: VMULAw :: VMULAq :: VABS :: VMULAi :: VCLIPw ::
    VADDAq :: VMADDAq :: VADDAi :: VMADDAi :: VSUBAq :: VMSUBAq :: VSUBAi :: VMSUBAi ::
    VADDA :: VMADDA :: VMULA :: COP2_Unknown :: VSUBA :: VMSUBA :: VOPMULA :: VNOP ::
    VMONE :: VMR32 :: COP2_Unknown :: COP2_Unknown :: VLQI :: VSQI :: VLQD :: VSQD ::
    VDIV :: VSQRT :: VRSQRT :: VWAITQ :: VMTIR :: VMFIR :: VILWR :: VISWR ::
    VRNEXT :: VRGET :: VRINIT :: VRXOR ::
      COP2_Unknown :: COP2_Unknown :: COP2_Unknown :: COP2_Unknown ::
    COP2_Unknown :: COP2_Unknown :: COP2_Unknown :: COP2_Unknown ::
      COP2_Unknown :: COP2_Unknown :: COP2_Unknown :: COP2_Unknown ::
    COP2_Unknown :: COP2_Unknown :: COP2_Unknown :: COP2_Unknown ::
      COP2_Unknown :: COP2_Unknown :: COP2_Unknown :: COP2_Unknown ::
    COP2_Unknown :: COP2_Unknown :: COP2_Unknown :: COP2_Unknown ::
      COP2_Unknown :: COP2_Unknown :: COP2_Unknown :: COP2_Unknown ::
    COP2_Unknown :: COP2_Unknown :: COP2_Unknown :: COP2_Unknown ::
      COP2_Unknown :: COP2_Unknown :: COP2_Unknown :: COP2_Unknown ::
    COP2_Unknown :: COP2_Unknown :: COP2_Unknown :: COP2_Unknown ::
      COP2_Unknown :: COP2_Unknown :: COP2_Unknown :: COP2_Unknown ::
    COP2_Unknown :: COP2_Unknown :: COP2_Unknown :: COP2_Unknown ::
      COP2_Unknown :: COP2_Unknown :: COP2_Unknown :: COP2_Unknown ::
    COP2_Unknown :: COP2_Unknown :: COP2_Unknown :: COP2_Unknown ::
      COP2_Unknown :: COP2_Unknown :: COP2_Unknown :: COP2_Unknown :: []⟩, rfl⟩

end Tables

/-! ### Table calls -/

section Calls

variable (code : U32)

def P_COP0 : CopOp :=
  match COP0PrintTable.get (RegField.RS.decode code).toFin with
  | .print o => o
  -- `DECODE_C0BC`, two bits only
  | .BC0 => COP0BC0PrintTable.get ((code.extractLsb' 16 2).setWidth 5).toFin
  | _ => COP0C0PrintTable.get (code.extractLsb' 0 6).toFin

def P_COP1 : CopOp :=
  match COP1PrintTable.get (RegField.RS.decode code).toFin with
  | .print o => o
  | .BC1 => COP1BC1PrintTable.get ((code.extractLsb' 16 2).setWidth 5).toFin
  | .S => COP1SPrintTable.get (code.extractLsb' 0 6).toFin
  | _ => COP1WPrintTable.get (code.extractLsb' 0 6).toFin

/-- The index is bits 6 to 10 of the word, then its lowest two. -/
def P_COP2_SPECIAL2 : CopOp :=
  COP2SPECIAL2PrintTable.get (code.extractLsb' 6 5 ++ code.extractLsb' 0 2).toFin

def P_COP2_SPECIAL : CopOp :=
  match COP2SPECIAL1PrintTable.get (code.extractLsb' 0 6).toFin with
  | .print o => o
  | _ => P_COP2_SPECIAL2 code

def P_COP2 : CopOp :=
  match COP2PrintTable.get (RegField.RS.decode code).toFin with
  | .print o => o
  | .BC2 => COP2BC2PrintTable.get ((code.extractLsb' 16 2).setWidth 5).toFin
  | _ => P_COP2_SPECIAL code

end Calls

end Ps2Unpacker
