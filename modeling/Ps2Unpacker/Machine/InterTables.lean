import Ps2Unpacker.Machine.MMI

/-!
# The dispatch tables and the interpreter step

`InterTables.c` and `execI`. The tables hold pointers to handlers; here they hold names, sorted by
what the handler may touch: `RegOp` computes on registers, `MemOp` also accesses memory, `BranchOp`
runs the delay slot, and the rest of `Op` are the system instructions and the two error handlers.
`SPECIAL`, `REGIMM` and the `MMI` family dispatch again and are resolved by `decode`.

`execI` recurses through its branch handlers; its first argument bounds the depth.
-/

namespace Ps2Unpacker

open CProg

/-- Handlers that compute on registers alone. -/
inductive RegOp where
  | ADDI | ADDIU | SLTI | SLTIU | ANDI | ORI | XORI | LUI | DADDI | DADDIU | SLL | SRL | SRA
  | SLLV | SRLV | SRAV | MOVZ | MOVN | MFHI | MTHI | MFLO | MTLO | DSLLV | DSRLV | DSRAV | MULT
  | MULTU | DIV | DIVU | ADD | ADDU | SUB | SUBU | AND | OR | XOR | NOR | SLT | SLTU | DADD
  | DADDU | DSUB | DSUBU | DSLL | DSRL | DSRA | DSLL32 | DSRL32 | DSRA32 | MADD | MADDU | PLZCW
  | MFHI1 | MTHI1 | MFLO1 | MTLO1 | MULT1 | MULTU1 | DIV1 | DIVU1 | MADD1 | MADDU1 | PMFHL
  | PMTHL | PSLLH | PSRLH | PSRAH | PSLLW | PSRLW | PSRAW | PADDW | PSUBW | PCGTW | PMAXW | PADDH
  | PSUBH | PCGTH | PMAXH | PADDB | PSUBB | PCGTB | PADDSW | PSUBSW | PEXTLW | PPACW | PADDSH
  | PSUBSH | PEXTLH | PPACH | PADDSB | PSUBSB | PEXTLB | PPACB | PEXT5 | PPAC5 | PABSW | PCEQW
  | PMINW | PADSBH | PABSH | PCEQH | PMINH | PCEQB | PADDUW | PSUBUW | PEXTUW | PADDUH | PSUBUH
  | PEXTUH | PADDUB | PSUBUB | PEXTUB | QFSRV | PMADDW | PSLLVW | PSRLVW | PMSUBW | PMFHI | PMFLO
  | PINTH | PMULTW | PDIVW | PCPYLD | PMADDH | PHMADH | PAND | PXOR | PMSUBH | PHMSBH | PEXEH
  | PREVH | PMULTH | PDIVBW | PEXEW | PROT3W | PMADDUW | PSRAVW | PMTHI | PMTLO | PINTEH
  | PMULTUW | PDIVUW | PCPYUD | POR | PNOR | PEXCH | PCPYH | PEXCW
  deriving DecidableEq

/-- The loads and stores. -/
inductive MemOp where
  | LB | LBU | LH | LHU | LW | LWU | LWL | LWR | LD | LDL | LDR | LQ | SB | SH | SW | SWL | SWR
  | SD | SDL | SDR | SQ
  deriving DecidableEq

/-- The branches and jumps. -/
inductive BranchOp where
  | J | JAL | JR | JALR | BEQ | BNE | BLEZ | BGTZ | BEQL | BNEL | BLEZL | BGTZL | BLTZ | BGEZ
  | BLTZL | BGEZL | BLTZAL | BGEZAL | BLTZALL | BGEZALL
  deriving DecidableEq

/-- A handler. -/
inductive Op where
  | register (o : RegOp)
  | memory (o : MemOp)
  | branch (o : BranchOp)
  | COP0 | SYSCALL | BREAK | UnknownOpcode | MMI_Unknown
  deriving DecidableEq

/-- An entry of a table: a handler, or a function that dispatches on another field. -/
inductive Entry where
  | handler (o : Op)
  | SPECIAL | REGIMM | MMI | MMI0 | MMI1 | MMI2 | MMI3

instance : Coe RegOp Op := ⟨.register⟩
instance : Coe MemOp Op := ⟨.memory⟩
instance : Coe BranchOp Op := ⟨.branch⟩
instance : Coe Op Entry := ⟨.handler⟩

/-! ### The tables -/

section Tables

open RegOp MemOp BranchOp Op Entry

-- By the opcode, the upper six bits of the word.
def Int_OpcodePrintTable : Vector Entry 64 :=
  ⟨⟨
    SPECIAL :: REGIMM :: J :: JAL :: BEQ :: BNE :: BLEZ :: BGTZ ::
    ADDI :: ADDIU :: SLTI :: SLTIU :: ANDI :: ORI :: XORI :: LUI ::
    COP0 :: UnknownOpcode :: UnknownOpcode :: UnknownOpcode :: BEQL :: BNEL :: BLEZL :: BGTZL ::
    DADDI :: DADDIU :: LDL :: LDR :: MMI :: UnknownOpcode :: LQ :: SQ ::
    LB :: LH :: LWL :: LW :: LBU :: LHU :: LWR :: LWU ::
    SB :: SH :: SWL :: SW :: SDL :: SDR :: SWR :: UnknownOpcode ::
    UnknownOpcode :: UnknownOpcode :: UnknownOpcode :: UnknownOpcode ::
      UnknownOpcode :: UnknownOpcode :: UnknownOpcode :: LD ::
    UnknownOpcode :: UnknownOpcode :: UnknownOpcode :: UnknownOpcode ::
      UnknownOpcode :: UnknownOpcode :: UnknownOpcode :: SD :: []⟩, rfl⟩

-- By `_Funct_`, the lower six bits.
def Int_SpecialPrintTable : Vector Op 64 :=
  ⟨⟨
    SLL :: UnknownOpcode :: SRL :: SRA :: SLLV :: UnknownOpcode :: SRLV :: SRAV ::
    JR :: JALR :: MOVZ :: MOVN :: SYSCALL :: BREAK :: UnknownOpcode :: UnknownOpcode ::
    MFHI :: MTHI :: MFLO :: MTLO :: DSLLV :: UnknownOpcode :: DSRLV :: DSRAV ::
    MULT :: MULTU :: DIV :: DIVU ::
      UnknownOpcode :: UnknownOpcode :: UnknownOpcode :: UnknownOpcode ::
    ADD :: ADDU :: SUB :: SUBU :: AND :: OR :: XOR :: NOR ::
    UnknownOpcode :: UnknownOpcode :: SLT :: SLTU :: DADD :: DADDU :: DSUB :: DSUBU ::
    UnknownOpcode :: UnknownOpcode :: UnknownOpcode :: UnknownOpcode ::
      UnknownOpcode :: UnknownOpcode :: UnknownOpcode :: UnknownOpcode ::
    DSLL :: UnknownOpcode :: DSRL :: DSRA :: DSLL32 :: UnknownOpcode :: DSRL32 :: DSRA32 :: []⟩,
    rfl⟩

-- By `_Rt_`.
def Int_REGIMMPrintTable : Vector Op 32 :=
  #v[
    BLTZ, BGEZ, BLTZL, BGEZL, UnknownOpcode, UnknownOpcode, UnknownOpcode, UnknownOpcode,
    UnknownOpcode, UnknownOpcode, UnknownOpcode, UnknownOpcode,
      UnknownOpcode, UnknownOpcode, UnknownOpcode, UnknownOpcode,
    BLTZAL, BGEZAL, BLTZALL, BGEZALL, UnknownOpcode, UnknownOpcode, UnknownOpcode, UnknownOpcode,
    UnknownOpcode, UnknownOpcode, UnknownOpcode, UnknownOpcode,
      UnknownOpcode, UnknownOpcode, UnknownOpcode, UnknownOpcode]

-- By `_Funct_` as well.
def Int_MMIPrintTable : Vector Entry 64 :=
  ⟨⟨
    MADD :: MADDU :: MMI_Unknown :: MMI_Unknown ::
      PLZCW :: MMI_Unknown :: MMI_Unknown :: MMI_Unknown ::
    MMI0 :: MMI2 :: MMI_Unknown :: MMI_Unknown ::
      MMI_Unknown :: MMI_Unknown :: MMI_Unknown :: MMI_Unknown ::
    MFHI1 :: MTHI1 :: MFLO1 :: MTLO1 :: MMI_Unknown :: MMI_Unknown :: MMI_Unknown :: MMI_Unknown ::
    MULT1 :: MULTU1 :: DIV1 :: DIVU1 :: MMI_Unknown :: MMI_Unknown :: MMI_Unknown :: MMI_Unknown ::
    MADD1 :: MADDU1 :: MMI_Unknown :: MMI_Unknown ::
      MMI_Unknown :: MMI_Unknown :: MMI_Unknown :: MMI_Unknown ::
    MMI1 :: MMI3 :: MMI_Unknown :: MMI_Unknown ::
      MMI_Unknown :: MMI_Unknown :: MMI_Unknown :: MMI_Unknown ::
    PMFHL :: PMTHL :: MMI_Unknown :: MMI_Unknown :: PSLLH :: MMI_Unknown :: PSRLH :: PSRAH ::
    MMI_Unknown :: MMI_Unknown :: MMI_Unknown :: MMI_Unknown ::
      PSLLW :: MMI_Unknown :: PSRLW :: PSRAW :: []⟩, rfl⟩

def Int_MMI0PrintTable : Vector Op 32 :=
  #v[
    PADDW, PSUBW, PCGTW, PMAXW,
    PADDH, PSUBH, PCGTH, PMAXH,
    PADDB, PSUBB, PCGTB, MMI_Unknown,
    MMI_Unknown, MMI_Unknown, MMI_Unknown, MMI_Unknown,
    PADDSW, PSUBSW, PEXTLW, PPACW,
    PADDSH, PSUBSH, PEXTLH, PPACH,
    PADDSB, PSUBSB, PEXTLB, PPACB,
    MMI_Unknown, MMI_Unknown, PEXT5, PPAC5]

def Int_MMI1PrintTable : Vector Op 32 :=
  #v[
    MMI_Unknown, PABSW, PCEQW, PMINW,
    PADSBH, PABSH, PCEQH, PMINH,
    MMI_Unknown, MMI_Unknown, PCEQB, MMI_Unknown,
    MMI_Unknown, MMI_Unknown, MMI_Unknown, MMI_Unknown,
    PADDUW, PSUBUW, PEXTUW, MMI_Unknown,
    PADDUH, PSUBUH, PEXTUH, MMI_Unknown,
    PADDUB, PSUBUB, PEXTUB, QFSRV,
    MMI_Unknown, MMI_Unknown, MMI_Unknown, MMI_Unknown]

def Int_MMI2PrintTable : Vector Op 32 :=
  #v[
    PMADDW, MMI_Unknown, PSLLVW, PSRLVW,
    PMSUBW, MMI_Unknown, MMI_Unknown, MMI_Unknown,
    PMFHI, PMFLO, PINTH, MMI_Unknown,
    PMULTW, PDIVW, PCPYLD, MMI_Unknown,
    PMADDH, PHMADH, PAND, PXOR,
    PMSUBH, PHMSBH, MMI_Unknown, MMI_Unknown,
    MMI_Unknown, MMI_Unknown, PEXEH, PREVH,
    PMULTH, PDIVBW, PEXEW, PROT3W]

def Int_MMI3PrintTable : Vector Op 32 :=
  #v[
    PMADDUW, MMI_Unknown, MMI_Unknown, PSRAVW,
    MMI_Unknown, MMI_Unknown, MMI_Unknown, MMI_Unknown,
    PMTHI, PMTLO, PINTEH, MMI_Unknown,
    PMULTUW, PDIVUW, PCPYUD, MMI_Unknown,
    MMI_Unknown, MMI_Unknown, POR, PNOR,
    MMI_Unknown, MMI_Unknown, MMI_Unknown, MMI_Unknown,
    MMI_Unknown, MMI_Unknown, PEXCH, PCPYH,
    MMI_Unknown, MMI_Unknown, PEXCW, MMI_Unknown]

end Tables

/-- The handler an instruction word reaches: the index into each table is a field of the word. -/
def decode (code : U32) : Op :=
  match Int_OpcodePrintTable[(code.extractLsb' 26 6).toFin] with
  | .handler o => o
  -- By `_Funct_` and by `_Rt_`.
  | .SPECIAL => Int_SpecialPrintTable[(code.extractLsb' 0 6).toFin]
  | .REGIMM => Int_REGIMMPrintTable[(code.extractLsb' 16 5).toFin]
  -- `MMI` by `_Funct_`, and its four sub-tables by `_Sa_`.
  | _ =>
    match Int_MMIPrintTable[(code.extractLsb' 0 6).toFin] with
    | .handler o => o
    | .MMI0 => Int_MMI0PrintTable[(code.extractLsb' 6 5).toFin]
    | .MMI1 => Int_MMI1PrintTable[(code.extractLsb' 6 5).toFin]
    | .MMI2 => Int_MMI2PrintTable[(code.extractLsb' 6 5).toFin]
    | _ => Int_MMI3PrintTable[(code.extractLsb' 6 5).toFin]

/-! ### Running a handler -/

def RegOp.run : RegOp → CpuRegisters → Option CpuRegisters
  | ADDI, r => some (Handler.ADDI r)
  | ADDIU, r => some (Handler.ADDIU r)
  | SLTI, r => some (Handler.SLTI r)
  | SLTIU, r => some (Handler.SLTIU r)
  | ANDI, r => some (Handler.ANDI r)
  | ORI, r => some (Handler.ORI r)
  | XORI, r => some (Handler.XORI r)
  | LUI, r => some (Handler.LUI r)
  | DADDI, r => some (Handler.DADDI r)
  | DADDIU, r => some (Handler.DADDIU r)
  | SLL, r => some (Handler.SLL r)
  | SRL, r => some (Handler.SRL r)
  | SRA, r => some (Handler.SRA r)
  | SLLV, r => some (Handler.SLLV r)
  | SRLV, r => some (Handler.SRLV r)
  | SRAV, r => some (Handler.SRAV r)
  | MOVZ, r => some (Handler.MOVZ r)
  | MOVN, r => some (Handler.MOVN r)
  | MFHI, r => some (Handler.MFHI r)
  | MTHI, r => some (Handler.MTHI r)
  | MFLO, r => some (Handler.MFLO r)
  | MTLO, r => some (Handler.MTLO r)
  | DSLLV, r => some (Handler.DSLLV r)
  | DSRLV, r => some (Handler.DSRLV r)
  | DSRAV, r => some (Handler.DSRAV r)
  | MULT, r => some (Handler.MULT r)
  | MULTU, r => some (Handler.MULTU r)
  | DIV, r => Handler.DIV r
  | DIVU, r => some (Handler.DIVU r)
  | ADD, r => some (Handler.ADD r)
  | ADDU, r => some (Handler.ADDU r)
  | SUB, r => some (Handler.SUB r)
  | SUBU, r => some (Handler.SUBU r)
  | AND, r => some (Handler.AND r)
  | OR, r => some (Handler.OR r)
  | XOR, r => some (Handler.XOR r)
  | NOR, r => some (Handler.NOR r)
  | SLT, r => some (Handler.SLT r)
  | SLTU, r => some (Handler.SLTU r)
  | DADD, r => some (Handler.DADD r)
  | DADDU, r => some (Handler.DADDU r)
  | DSUB, r => some (Handler.DSUB r)
  | DSUBU, r => some (Handler.DSUBU r)
  | DSLL, r => some (Handler.DSLL r)
  | DSRL, r => some (Handler.DSRL r)
  | DSRA, r => some (Handler.DSRA r)
  | DSLL32, r => some (Handler.DSLL32 r)
  | DSRL32, r => some (Handler.DSRL32 r)
  | DSRA32, r => some (Handler.DSRA32 r)
  | MADD, r => some (Handler.MADD r)
  | MADDU, r => some (Handler.MADDU r)
  | PLZCW, r => some (Handler.PLZCW r)
  | MFHI1, r => some (Handler.MFHI1 r)
  | MTHI1, r => some (Handler.MTHI1 r)
  | MFLO1, r => some (Handler.MFLO1 r)
  | MTLO1, r => some (Handler.MTLO1 r)
  | MULT1, r => some (Handler.MULT1 r)
  | MULTU1, r => some (Handler.MULTU1 r)
  | DIV1, r => Handler.DIV1 r
  | DIVU1, r => some (Handler.DIVU1 r)
  | MADD1, r => some (Handler.MADD1 r)
  | MADDU1, r => some (Handler.MADDU1 r)
  | PMFHL, r => some (Handler.PMFHL r)
  | PMTHL, r => some (Handler.PMTHL r)
  | PSLLH, r => some (Handler.PSLLH r)
  | PSRLH, r => some (Handler.PSRLH r)
  | PSRAH, r => some (Handler.PSRAH r)
  | PSLLW, r => some (Handler.PSLLW r)
  | PSRLW, r => some (Handler.PSRLW r)
  | PSRAW, r => some (Handler.PSRAW r)
  | PADDW, r => some (Handler.PADDW r)
  | PSUBW, r => some (Handler.PSUBW r)
  | PCGTW, r => some (Handler.PCGTW r)
  | PMAXW, r => some (Handler.PMAXW r)
  | PADDH, r => some (Handler.PADDH r)
  | PSUBH, r => some (Handler.PSUBH r)
  | PCGTH, r => some (Handler.PCGTH r)
  | PMAXH, r => some (Handler.PMAXH r)
  | PADDB, r => some (Handler.PADDB r)
  | PSUBB, r => some (Handler.PSUBB r)
  | PCGTB, r => some (Handler.PCGTB r)
  | PADDSW, r => some (Handler.PADDSW r)
  | PSUBSW, r => some (Handler.PSUBSW r)
  | PEXTLW, r => some (Handler.PEXTLW r)
  | PPACW, r => some (Handler.PPACW r)
  | PADDSH, r => some (Handler.PADDSH r)
  | PSUBSH, r => some (Handler.PSUBSH r)
  | PEXTLH, r => some (Handler.PEXTLH r)
  | PPACH, r => some (Handler.PPACH r)
  | PADDSB, r => some (Handler.PADDSB r)
  | PSUBSB, r => some (Handler.PSUBSB r)
  | PEXTLB, r => some (Handler.PEXTLB r)
  | PPACB, r => some (Handler.PPACB r)
  | PEXT5, r => some (Handler.PEXT5 r)
  | PPAC5, r => some (Handler.PPAC5 r)
  | PABSW, r => some (Handler.PABSW r)
  | PCEQW, r => some (Handler.PCEQW r)
  | PMINW, r => some (Handler.PMINW r)
  | PADSBH, r => some (Handler.PADSBH r)
  | PABSH, r => some (Handler.PABSH r)
  | PCEQH, r => some (Handler.PCEQH r)
  | PMINH, r => some (Handler.PMINH r)
  | PCEQB, r => some (Handler.PCEQB r)
  | PADDUW, r => some (Handler.PADDUW r)
  | PSUBUW, r => some (Handler.PSUBUW r)
  | PEXTUW, r => some (Handler.PEXTUW r)
  | PADDUH, r => some (Handler.PADDUH r)
  | PSUBUH, r => some (Handler.PSUBUH r)
  | PEXTUH, r => some (Handler.PEXTUH r)
  | PADDUB, r => some (Handler.PADDUB r)
  | PSUBUB, r => some (Handler.PSUBUB r)
  | PEXTUB, r => some (Handler.PEXTUB r)
  | QFSRV, r => Handler.QFSRV r
  | PMADDW, r => some (Handler.PMADDW r)
  | PSLLVW, r => some (Handler.PSLLVW r)
  | PSRLVW, r => some (Handler.PSRLVW r)
  | PMSUBW, r => some (Handler.PMSUBW r)
  | PMFHI, r => some (Handler.PMFHI r)
  | PMFLO, r => some (Handler.PMFLO r)
  | PINTH, r => some (Handler.PINTH r)
  | PMULTW, r => some (Handler.PMULTW r)
  | PDIVW, r => Handler.PDIVW r
  | PCPYLD, r => some (Handler.PCPYLD r)
  | PMADDH, r => some (Handler.PMADDH r)
  | PHMADH, r => some (Handler.PHMADH r)
  | PAND, r => some (Handler.PAND r)
  | PXOR, r => some (Handler.PXOR r)
  | PMSUBH, r => some (Handler.PMSUBH r)
  | PHMSBH, r => some (Handler.PHMSBH r)
  | PEXEH, r => some (Handler.PEXEH r)
  | PREVH, r => some (Handler.PREVH r)
  | PMULTH, r => some (Handler.PMULTH r)
  | PDIVBW, r => Handler.PDIVBW r
  | PEXEW, r => some (Handler.PEXEW r)
  | PROT3W, r => some (Handler.PROT3W r)
  | PMADDUW, r => some (Handler.PMADDUW r)
  | PSRAVW, r => some (Handler.PSRAVW r)
  | PMTHI, r => some (Handler.PMTHI r)
  | PMTLO, r => some (Handler.PMTLO r)
  | PINTEH, r => some (Handler.PINTEH r)
  | PMULTUW, r => some (Handler.PMULTUW r)
  | PDIVUW, r => some (Handler.PDIVUW r)
  | PCPYUD, r => some (Handler.PCPYUD r)
  | POR, r => some (Handler.POR r)
  | PNOR, r => some (Handler.PNOR r)
  | PEXCH, r => some (Handler.PEXCH r)
  | PCPYH, r => some (Handler.PCPYH r)
  | PEXCW, r => some (Handler.PEXCW r)

section Run

variable (host : Host) (report : U32 → M Unit) (execI : M Unit)

def MemOp.run : MemOp → M Unit
  | LB => Handler.LB report
  | LBU => Handler.LBU report
  | LH => Handler.LH report
  | LHU => Handler.LHU report
  | LW => Handler.LW report
  | LWU => Handler.LWU report
  | LWL => Handler.LWL report
  | LWR => Handler.LWR report
  | LD => Handler.LD report
  | LDL => Handler.LDL report
  | LDR => Handler.LDR report
  | LQ => Handler.LQ report
  | SB => Handler.SB report
  | SH => Handler.SH report
  | SW => Handler.SW report
  | SWL => Handler.SWL report
  | SWR => Handler.SWR report
  | SD => Handler.SD report
  | SDL => Handler.SDL report
  | SDR => Handler.SDR report
  | SQ => Handler.SQ report host

def BranchOp.run : BranchOp → M Unit
  | J => Handler.J execI
  | JAL => Handler.JAL execI
  | JR => Handler.JR execI
  | JALR => Handler.JALR execI
  | BEQ => Handler.BEQ execI
  | BNE => Handler.BNE execI
  | BLEZ => Handler.BLEZ execI
  | BGTZ => Handler.BGTZ execI
  | BEQL => Handler.BEQL execI
  | BNEL => Handler.BNEL execI
  | BLEZL => Handler.BLEZL execI
  | BGTZL => Handler.BGTZL execI
  | BLTZ => Handler.BLTZ execI
  | BGEZ => Handler.BGEZ execI
  | BLTZL => Handler.BLTZL execI
  | BGEZL => Handler.BGEZL execI
  | BLTZAL => Handler.BLTZAL execI
  | BGEZAL => Handler.BGEZAL execI
  | BLTZALL => Handler.BLTZALL execI
  | BGEZALL => Handler.BGEZALL execI

def Op.run : Op → M Unit
  | register o => modifyCpu? o.run
  | memory o => o.run host report
  | branch o => o.run execI
  | COP0 => Handler.COP0 report
  | SYSCALL => Handler.SYSCALL report
  | BREAK => Handler.BREAK
  | UnknownOpcode => Handler.UnknownOpcode report
  | MMI_Unknown => Handler.MMI_Unknown report

end Run

/-! ### The interpreter step -/

section Step

variable (host : Host) (report : U32 → M Unit)

/-- The part of `execI` up to the dispatch. -/
def fetch : M Unit := do
  let pc := (← cpu).pc
  -- The counter moves on before the word is read: a report about this fetch names `pc - 4` again.
  modifyCpu fun r => { r with pc := r.pc + 4, cycle := r.cycle + 1 }
  let r ← cpu
  printfIf (r.cycle &&& 0xffffff = 0) (.stillRunning (r.pc - 4) r.cycle)
  let code ← memRead32 report pc
  modifyCpu fun r => { r with code := code }
  printfIf (← Prog.get).trace (.trace code pc)
  emit (.exec (← cpu))

/-- `execI`, with the depth of its recursion through delay slots. -/
def execI : Nat → M Unit
  | 0 => Prog.diverge
  | depth + 1 => do
    fetch report
    (decode (← cpu).code).run host report (execI depth)

end Step

/-- A call of `execI` from `s` that returns in `s'`. -/
def Returns (host : Host) (s s' : Machine) : Prop :=
  ∃ depth levels, execI host (dumpasm depth) levels s = .ok () s'

end Ps2Unpacker
