import Ps2Unpacker.Machine.Memory

/-!
# The instruction handlers of `Interpreter.c`

One definition for each C function, under its name. A handler that only computes on registers is a
function on `CpuRegisters` (partial where C leaves a case undefined); the others are programs. Two
parameters stand for the recursion of the source: `report` is `dumpasm`, called from fatal paths,
and `execI` is the interpreter itself, which `doBranch` calls for the delay slot.
-/

namespace Ps2Unpacker

open CProg Lanes

namespace Handler

section Immediate

/-! ### Arithmetic with immediate operand -/

variable (r : CpuRegisters)

-- The four additions do not trap on overflow, and wrap.
def ADDI : CpuRegisters := r.setRt ((UL 0 (r.GPR r.rs) + r.imm.signExtend 32).signExtend 64)

def ADDIU : CpuRegisters := r.setRt ((UL 0 (r.GPR r.rs) + r.imm.signExtend 32).signExtend 64)

def DADDI : CpuRegisters := r.setRt (UD 0 (r.GPR r.rs) + r.imm.signExtend 64)

def DADDIU : CpuRegisters := r.setRt (UD 0 (r.GPR r.rs) + r.imm.signExtend 64)

def ANDI : CpuRegisters := r.setRt (UD 0 (r.GPR r.rs) &&& r.immU.setWidth 64)

def ORI : CpuRegisters := r.setRt (UD 0 (r.GPR r.rs) ||| r.immU.setWidth 64)

def XORI : CpuRegisters := r.setRt (UD 0 (r.GPR r.rs) ^^^ r.immU.setWidth 64)

def SLTI : CpuRegisters := r.setRt (truth ((UD 0 (r.GPR r.rs)).slt (r.imm.signExtend 64)))

def SLTIU : CpuRegisters := r.setRt (truth ((UD 0 (r.GPR r.rs)).ult (r.imm.signExtend 64)))

/-! ### Register arithmetic -/

-- Neither do these; the source names the exception in its comments on `ADD` and `SUB`.
def ADD : CpuRegisters := r.setRd ((UL 0 (r.GPR r.rs) + UL 0 (r.GPR r.rt)).signExtend 64)

def ADDU : CpuRegisters := r.setRd ((UL 0 (r.GPR r.rs) + UL 0 (r.GPR r.rt)).signExtend 64)

def DADD : CpuRegisters := r.setRd (UD 0 (r.GPR r.rs) + UD 0 (r.GPR r.rt))

def DADDU : CpuRegisters := r.setRd (UD 0 (r.GPR r.rs) + UD 0 (r.GPR r.rt))

def SUB : CpuRegisters := r.setRd ((UL 0 (r.GPR r.rs) - UL 0 (r.GPR r.rt)).signExtend 64)

def SUBU : CpuRegisters := r.setRd ((UL 0 (r.GPR r.rs) - UL 0 (r.GPR r.rt)).signExtend 64)

def DSUB : CpuRegisters := r.setRd (UD 0 (r.GPR r.rs) - UD 0 (r.GPR r.rt))

def DSUBU : CpuRegisters := r.setRd (UD 0 (r.GPR r.rs) - UD 0 (r.GPR r.rt))

def AND : CpuRegisters := r.setRd (UD 0 (r.GPR r.rs) &&& UD 0 (r.GPR r.rt))

def OR : CpuRegisters := r.setRd (UD 0 (r.GPR r.rs) ||| UD 0 (r.GPR r.rt))

def XOR : CpuRegisters := r.setRd (UD 0 (r.GPR r.rs) ^^^ UD 0 (r.GPR r.rt))

def NOR : CpuRegisters := r.setRd (~~~(UD 0 (r.GPR r.rs) ||| UD 0 (r.GPR r.rt)))

def SLT : CpuRegisters := r.setRd (truth ((UD 0 (r.GPR r.rs)).slt (UD 0 (r.GPR r.rt))))

def SLTU : CpuRegisters := r.setRd (truth ((UD 0 (r.GPR r.rs)).ult (UD 0 (r.GPR r.rt))))

/-! ### Multiplication and division -/

/-- The division of two `int`s, undefined where the quotient does not fit. -/
def divides (n d : U32) : Bool := !(n == 0x80000000 && d == 0xffffffff)

/-- The quotient and the remainder of the words `ss` of `rs` and `rt`, sign-extended, go to
doubleword `dd` of `LO` and `HI`. -/
def divideInto (dd ss : Nat) : Option CpuRegisters :=
  let n := UL ss (r.GPR r.rs)
  let d := UL ss (r.GPR r.rt)
  -- Without a divisor nothing is written.
  if d = 0 then some r
  else if divides n d then
    some ((r.setLOLane dd ((n.sdiv d).signExtend 64)).setHILane dd ((n.srem d).signExtend 64))
  else none

/-- The unsigned division, zero-extended. -/
def divideIntoU (dd ss : Nat) : CpuRegisters :=
  let n := UL ss (r.GPR r.rs)
  let d := UL ss (r.GPR r.rt)
  if d = 0 then r
  else (r.setLOLane dd ((n / d).setWidth 64)).setHILane dd ((n % d).setWidth 64)

def DIV : Option CpuRegisters := divideInto r 0 0

def DIVU : CpuRegisters := divideIntoU r 0 0

/-- The two halves of a 64-bit result, sign-extended, go to doubleword `d` of `LO` and `HI`, and the
one in `LO` to `rd`. -/
def storeProduct (d : Nat) (res : U64) : CpuRegisters :=
  let r' := (r.setLOLane d ((res.setWidth 32).signExtend 64)).setHILane d
    (((res >>> 32).setWidth 32).signExtend 64)
  r'.setRd (UD d r'.LO)

/-- The signed product of word `k` of `rs` and `rt`. -/
def product (k : Nat) : U64 :=
  (UL k (r.GPR r.rs)).signExtend 64 * (UL k (r.GPR r.rt)).signExtend 64

/-- The unsigned product of word `k` of `rs` and `rt`. -/
def productU (k : Nat) : U64 :=
  (UL k (r.GPR r.rs)).setWidth 64 * (UL k (r.GPR r.rt)).setWidth 64

def MULT : CpuRegisters := storeProduct r 0 (product r 0)

def MULTU : CpuRegisters := storeProduct r 0 (productU r 0)

-- The immediate is shifted as part of the whole word.
def LUI : CpuRegisters := r.setRt ((r.code <<< 16).signExtend 64)

def MFHI : CpuRegisters := r.setRd (UD 0 r.HI)

def MFLO : CpuRegisters := r.setRd (UD 0 r.LO)

def MTHI : CpuRegisters := r.setHILane 0 (UD 0 (r.GPR r.rs))

def MTLO : CpuRegisters := r.setLOLane 0 (UD 0 (r.GPR r.rs))

/-! ### Shifts -/

-- A constant shift amount has five bits, and the `32` variants add to it.
def SLL : CpuRegisters := r.setRd ((UL 0 (r.GPR r.rt) <<< r.saField.toNat).signExtend 64)

def DSLL : CpuRegisters := r.setRd (UD 0 (r.GPR r.rt) <<< r.saField.toNat)

def DSLL32 : CpuRegisters := r.setRd (UD 0 (r.GPR r.rt) <<< (r.saField.toNat + 32))

def SRA : CpuRegisters := r.setRd (((UL 0 (r.GPR r.rt)).sshiftRight r.saField.toNat).signExtend 64)

def DSRA : CpuRegisters := r.setRd ((UD 0 (r.GPR r.rt)).sshiftRight r.saField.toNat)

def DSRA32 : CpuRegisters := r.setRd ((UD 0 (r.GPR r.rt)).sshiftRight (r.saField.toNat + 32))

def SRL : CpuRegisters := r.setRd ((UL 0 (r.GPR r.rt) >>> r.saField.toNat).signExtend 64)

def DSRL : CpuRegisters := r.setRd (UD 0 (r.GPR r.rt) >>> r.saField.toNat)

def DSRL32 : CpuRegisters := r.setRd (UD 0 (r.GPR r.rt) >>> (r.saField.toNat + 32))

/-- The variable shift amount of the word shifts, `UL[0] & 0x1f` of `rs`. -/
def shift5 : Nat := (UL 0 (r.GPR r.rs) &&& 0x1f).toNat

/-- The variable shift amount of the doubleword shifts, `UL[0] & 0x3f` of `rs`. -/
def shift6 : Nat := (UL 0 (r.GPR r.rs) &&& 0x3f).toNat

def SLLV : CpuRegisters := r.setRd ((UL 0 (r.GPR r.rt) <<< shift5 r).signExtend 64)

def SRAV : CpuRegisters := r.setRd (((UL 0 (r.GPR r.rt)).sshiftRight (shift5 r)).signExtend 64)

def SRLV : CpuRegisters := r.setRd ((UL 0 (r.GPR r.rt) >>> shift5 r).signExtend 64)

def DSLLV : CpuRegisters := r.setRd (UD 0 (r.GPR r.rt) <<< shift6 r)

def DSRAV : CpuRegisters := r.setRd ((UD 0 (r.GPR r.rt)).sshiftRight (shift6 r))

def DSRLV : CpuRegisters := r.setRd (UD 0 (r.GPR r.rt) >>> shift6 r)

/-! ### Conditional moves -/

def MOVZ : CpuRegisters :=
  if r.rd = 0 then r
  else if UD 0 (r.GPR r.rt) = 0 then r.setLane r.rd 0 (UD 0 (r.GPR r.rs)) else r

def MOVN : CpuRegisters :=
  if r.rd = 0 then r
  else if UD 0 (r.GPR r.rt) ≠ 0 then r.setLane r.rd 0 (UD 0 (r.GPR r.rs)) else r

end Immediate

/-! ### Branches and jumps -/

section Branch

variable (execI : M Unit)

/-- What `doBranch` does once the delay slot has run. -/
def finishBranch : M Unit := do
  -- `branchPC` is global: after a branch in the delay slot it is the target of that branch.
  Prog.modify fun s => { s with cpu := { s.cpu with branch := 0, pc := s.branchPC.setWidth 32 } }
  let s ← Prog.get
  -- Nothing keeps the index of `has_write(branchPC)` inside of `tags`.
  if ← Prog.require (hasWrite s (s.branchPC.setWidth 32)) then
    printf (.execHitWritten (s.branchPC.setWidth 32))
    -- The entry point is found, and with it the loop of `main` ends.
    Prog.modify fun s => { s with bouncePc := s.branchPC.setWidth 32 }

def doBranch (tar : U32) : M Unit := do
  Prog.modify fun s =>
    { s with branch2 := 1, cpu := { s.cpu with branch := 1 }, branchPC := tar.setWidth 64 }
  execI
  finishBranch

def J : M Unit := do
  doBranch execI (← cpu).jumpTarget

-- The link is written before the delay slot runs.
def JAL : M Unit := do
  modifyCpu fun r => r.setLink 31
  doBranch execI (← cpu).jumpTarget

def JR : M Unit := do
  let r ← cpu
  doBranch execI (UL 0 (r.GPR r.rs))

def JALR : M Unit := do
  let r ← cpu
  -- The target is read before the link, which may overwrite `rs`.
  let temp := UL 0 (r.GPR r.rs)
  modifyCpu fun r => if r.rd = 0 then r else r.setLink r.rd
  doBranch execI temp

/-- `RepBranchi32` and `RepZBranchi32`. -/
def repBranch (cond : CpuRegisters → Bool) : M Unit := do
  let r ← cpu
  if cond r then doBranch execI r.branchTarget

/-- `RepZBranchLinki32`. -/
def repBranchLink (cond : CpuRegisters → Bool) : M Unit := do
  modifyCpu fun r => r.setLink 31
  repBranch execI cond

/-- `RepBranchi32Likely` and `RepZBranchi32Likely`. -/
def repBranchLikely (cond : CpuRegisters → Bool) : M Unit := do
  let r ← cpu
  if cond r then doBranch execI r.branchTarget
  -- The delay slot is skipped.
  else modifyCpu fun r => { r with pc := r.pc + 4 }

/-- `RepZBranchLinki32Likely`. -/
def repBranchLinkLikely (cond : CpuRegisters → Bool) : M Unit := do
  modifyCpu fun r => r.setLink 31
  repBranchLikely execI cond

/-- `GPR[rs] == GPR[rt]`, on the low doublewords; so are the conditions below. -/
def condEQ (r : CpuRegisters) : Bool := UD 0 (r.GPR r.rs) == UD 0 (r.GPR r.rt)

def condNE (r : CpuRegisters) : Bool := UD 0 (r.GPR r.rs) != UD 0 (r.GPR r.rt)

def condGEZ (r : CpuRegisters) : Bool := (0 : U64).sle (UD 0 (r.GPR r.rs))

def condGTZ (r : CpuRegisters) : Bool := (0 : U64).slt (UD 0 (r.GPR r.rs))

def condLEZ (r : CpuRegisters) : Bool := (UD 0 (r.GPR r.rs)).sle 0

def condLTZ (r : CpuRegisters) : Bool := (UD 0 (r.GPR r.rs)).slt 0

def BEQ : M Unit := repBranch execI condEQ

def BNE : M Unit := repBranch execI condNE

def BGEZ : M Unit := repBranch execI condGEZ

def BGEZAL : M Unit := repBranchLink execI condGEZ

def BGTZ : M Unit := repBranch execI condGTZ

def BLEZ : M Unit := repBranch execI condLEZ

def BLTZ : M Unit := repBranch execI condLTZ

def BLTZAL : M Unit := repBranchLink execI condLTZ

def BEQL : M Unit := repBranchLikely execI condEQ

def BNEL : M Unit := repBranchLikely execI condNE

def BLEZL : M Unit := repBranchLikely execI condLEZ

def BGTZL : M Unit := repBranchLikely execI condGTZ

def BLTZL : M Unit := repBranchLikely execI condLTZ

def BGEZL : M Unit := repBranchLikely execI condGEZ

def BLTZALL : M Unit := repBranchLinkLikely execI condLTZ

def BGEZALL : M Unit := repBranchLinkLikely execI condGEZ

end Branch

/-! ### Loads -/

section Memory

variable (report : U32 → M Unit)

/-- `GPR[rs].UL[0] + _Imm_`. -/
def address (r : CpuRegisters) : U32 := UL 0 (r.GPR r.rs) + r.imm.signExtend 32

/-- `GPR[rs].UL[0]` plus the offset written out by sign and magnitude, as `LW` and the stores from
`SW` on have it. -/
def addressOut (r : CpuRegisters) : U32 :=
  UL 0 (r.GPR r.rs) +
    ((if r.code &&& 0x8000 ≠ 0 then 0xFFFF8000 else 0) ||| (r.code &&& 0x7fff))

/-- Assign to the low doubleword of `rt` unless that is `r0`. -/
def loadRt (v : U64) : M Unit := modifyCpu fun r => r.setRt v

def LB : M Unit := do
  let val ← memRead8 report (address (← cpu))
  loadRt (val.signExtend 64)

def LBU : M Unit := do
  let val ← memRead8 report (address (← cpu))
  loadRt (val.setWidth 64)

def LH : M Unit := do
  let val ← memRead16 report (address (← cpu))
  loadRt (val.signExtend 64)

def LHU : M Unit := do
  let val ← memRead16 report (address (← cpu))
  loadRt (val.setWidth 64)

def LW : M Unit := do
  let val ← memRead32 report (addressOut (← cpu))
  loadRt (val.signExtend 64)

def LWU : M Unit := do
  let val ← memRead32 report (address (← cpu))
  loadRt (val.setWidth 64)

def LWL_MASK : Vector U32 4 := #v[0xffffff, 0xffff, 0xff, 0]
def LWL_SHIFT : Vector Nat 4 := #v[24, 16, 8, 0]

/-- `addr & 3`. -/
def low2 (addr : U32) : Fin 4 := (addr.extractLsb' 0 2).toFin

/-- `addr & 7`. -/
def low3 (addr : U32) : Fin 8 := (addr.extractLsb' 0 3).toFin

-- The word merged replaces the low doubleword, with zeros above it.
def LWL : M Unit := do
  let r ← cpu
  let addr := address r
  let shift := low2 addr
  if r.rt = 0 then pure () else
    let mem ← memRead32 report (addr &&& ~~~3)
    modifyCpu fun r => r.setLane r.rt 0
      (((UL 0 (r.GPR r.rt) &&& LWL_MASK[shift]) ||| (mem <<< LWL_SHIFT[shift])).setWidth 64)

def LWR_MASK : Vector U32 4 := #v[0, 0xff000000, 0xffff0000, 0xffffff00]
def LWR_SHIFT : Vector Nat 4 := #v[0, 8, 16, 24]

def LWR : M Unit := do
  let r ← cpu
  let addr := address r
  let shift := low2 addr
  if r.rt = 0 then pure () else
    let mem ← memRead32 report (addr &&& ~~~3)
    modifyCpu fun r => r.setLane r.rt 0
      (((UL 0 (r.GPR r.rt) &&& LWR_MASK[shift]) ||| (mem >>> LWR_SHIFT[shift])).setWidth 64)

def LD : M Unit := do
  let val ← memRead64 report (address (← cpu))
  loadRt val

def LDL_MASK : Vector U64 8 :=
  #v[0x00ffffffffffffff, 0x0000ffffffffffff, 0x000000ffffffffff, 0x00000000ffffffff,
    0x0000000000ffffff, 0x000000000000ffff, 0x00000000000000ff, 0x0000000000000000]
def LDL_SHIFT : Vector Nat 8 := #v[56, 48, 40, 32, 24, 16, 8, 0]

def LDL : M Unit := do
  let r ← cpu
  let addr := address r
  let shift := low3 addr
  if r.rt = 0 then pure () else
    let mem ← memRead64 report (addr &&& ~~~7)
    modifyCpu fun r => r.setLane r.rt 0
      ((UD 0 (r.GPR r.rt) &&& LDL_MASK[shift]) ||| (mem <<< LDL_SHIFT[shift]))

def LDR_MASK : Vector U64 8 :=
  #v[0x0000000000000000, 0xff00000000000000, 0xffff000000000000, 0xffffff0000000000,
    0xffffffff00000000, 0xffffffffff000000, 0xffffffffffff0000, 0xffffffffffffff00]
def LDR_SHIFT : Vector Nat 8 := #v[0, 8, 16, 24, 32, 40, 48, 56]

def LDR : M Unit := do
  let r ← cpu
  let addr := address r
  let shift := low3 addr
  if r.rt = 0 then pure () else
    let mem ← memRead64 report (addr &&& ~~~7)
    modifyCpu fun r => r.setLane r.rt 0
      ((UD 0 (r.GPR r.rt) &&& LDR_MASK[shift]) ||| (mem >>> LDR_SHIFT[shift]))

-- Without a destination the quadword is read all the same.
def LQ : M Unit := do
  let val ← memRead128 report (address (← cpu) &&& ~~~0xf)
  modifyCpu fun r => if r.rt = 0 then r else r.setGPR r.rt val

/-! ### Stores -/

def SB : M Unit := do
  let r ← cpu
  memWrite8 report (address r) (UC 0 (r.GPR r.rt))

def SH : M Unit := do
  let r ← cpu
  memWrite16 report (address r) (US 0 (r.GPR r.rt))

def SW : M Unit := do
  let r ← cpu
  memWrite32 report (addressOut r) (UL 0 (r.GPR r.rt))

def SWL_MASK : Vector U32 4 := #v[0xffffff00, 0xffff0000, 0xff000000, 0x00000000]
def SWL_SHIFT : Vector Nat 4 := #v[24, 16, 8, 0]

-- The stores that merge read the block first, which tags it as read too.
def SWL : M Unit := do
  let r ← cpu
  let addr := addressOut r
  let shift := low2 addr
  let mem ← memRead32 report (addr &&& ~~~3)
  memWrite32 report (addr &&& ~~~3)
    ((UL 0 (r.GPR r.rt) >>> SWL_SHIFT[shift]) ||| (mem &&& SWL_MASK[shift]))

def SWR_MASK : Vector U32 4 := #v[0x00000000, 0x000000ff, 0x0000ffff, 0x00ffffff]
def SWR_SHIFT : Vector Nat 4 := #v[0, 8, 16, 24]

def SWR : M Unit := do
  let r ← cpu
  let addr := addressOut r
  let shift := low2 addr
  let mem ← memRead32 report (addr &&& ~~~3)
  memWrite32 report (addr &&& ~~~3)
    ((UL 0 (r.GPR r.rt) <<< SWR_SHIFT[shift]) ||| (mem &&& SWR_MASK[shift]))

def SD : M Unit := do
  let r ← cpu
  memWrite64 report (addressOut r) (UD 0 (r.GPR r.rt))

def SDL_MASK : Vector U64 8 :=
  #v[0xffffffffffffff00, 0xffffffffffff0000, 0xffffffffff000000, 0xffffffff00000000,
    0xffffff0000000000, 0xffff000000000000, 0xff00000000000000, 0x0000000000000000]
def SDL_SHIFT : Vector Nat 8 := #v[56, 48, 40, 32, 24, 16, 8, 0]

def SDL : M Unit := do
  let r ← cpu
  let addr := addressOut r
  let shift := low3 addr
  let mem ← memRead64 report (addr &&& ~~~7)
  memWrite64 report (addr &&& ~~~7)
    ((UD 0 (r.GPR r.rt) >>> SDL_SHIFT[shift]) ||| (mem &&& SDL_MASK[shift]))

def SDR_MASK : Vector U64 8 :=
  #v[0x0000000000000000, 0x00000000000000ff, 0x000000000000ffff, 0x0000000000ffffff,
    0x00000000ffffffff, 0x000000ffffffffff, 0x0000ffffffffffff, 0x00ffffffffffffff]
def SDR_SHIFT : Vector Nat 8 := #v[0, 8, 16, 24, 32, 40, 48, 56]

def SDR : M Unit := do
  let r ← cpu
  let addr := addressOut r
  let shift := low3 addr
  let mem ← memRead64 report (addr &&& ~~~7)
  memWrite64 report (addr &&& ~~~7)
    ((UD 0 (r.GPR r.rt) <<< SDR_SHIFT[shift]) ||| (mem &&& SDR_MASK[shift]))

/-- `&cpuRegs.GPR.r[_Rt_].UD[0]`. -/
def addressOfRt (host : Host) (r : CpuRegisters) : U64 :=
  host.gprAddress + 16 * r.rt.setWidth 64

-- What `memWrite128` gets is a pointer to the register.
def SQ (host : Host) : M Unit := do
  let r ← cpu
  memWrite128 report host (addressOut r &&& ~~~0xf) (addressOfRt host r)

/-! ### The remaining functions -/

def UnknownOpcode : M Unit := do
  let r ← cpu
  fatal report (.unknownOpcode r.code (r.pc - 4))

/-- The general register `s0`. -/
abbrev s0 : Reg := 16

/-- The general registers `SYSCALL` reads and writes. -/
abbrev v0 : Reg := 2
abbrev v1 : Reg := 3
abbrev a0 : Reg := 4
abbrev a1 : Reg := 5
abbrev a2 : Reg := 6
abbrev a3 : Reg := 7
abbrev t0 : Reg := 8

def COP0 : M Unit := do
  let r ← cpu
  -- `mfc0 s0, Status`: only the low word of `s0` is cleared.
  if r.code = 0x40106000 then modifyCpu fun r => r.setLane s0 0 (0 : U32)
  -- `EI` and `DI`
  else if r.code = 0x42000038 then pure ()
  else if r.code = 0x42000039 then pure ()
  else fatal report (.cop0 r.code (r.pc - 4))

/-- The call number of `SYSCALL`: a negative `v1` gives the number of the interrupt-safe variant. -/
def callNumber (r : CpuRegisters) : U8 :=
  if (UL 0 (r.GPR v1)).slt 0 then (-UL 0 (r.GPR v1)).setWidth 8 else UC 0 (r.GPR v1)

def SYSCALL : M Unit := do
  let r ← cpu
  let call := callNumber r
  -- `SleepThread`
  if call = 0x32 then fatal report (.sleepThread (r.pc - 4))
  -- `RFU060`
  else if call = 0x3c then
    Prog.modify fun s =>
      { s with
        gp := UL 0 (r.GPR a0), stack := UL 0 (r.GPR a1), stackSize := UL 0 (r.GPR a2),
        args := UL 0 (r.GPR a3), root := UL 0 (r.GPR t0) }
    printf (.rfu060 (UL 0 (r.GPR a0)) (UL 0 (r.GPR a1)) (UL 0 (r.GPR a2)) (UL 0 (r.GPR a3))
      (UL 0 (r.GPR t0)))
  -- `RFU061`
  else if call = 0x3d then
    Prog.modify fun s => { s with heapStart := UL 0 (r.GPR a0), heapSize := UL 0 (r.GPR a1) }
    printf (.rfu061 (UL 0 (r.GPR a0)) (UL 0 (r.GPR a1)))
  -- End of heap: only the low word of `v0` is written.
  else if call = 0x3e then
    modifyCpu fun r => r.setLane v0 0 (0x02000000 : U32)
    printf (.endOfHeap (UL 0 ((← cpu).GPR v0)))
  -- Flush cache
  else if call = 0x64 then pure ()
  -- `ExecPS2`
  else if call = 0x07 then
    printf (.execPS2 (r.pc - 4) (UL 0 (r.GPR a0)))
    Prog.modify fun s => { s with bouncePc := UL 0 (r.GPR a0) }
  else
    printf (.unknownSyscall call (r.pc - 4))
    Prog.exit (-1)

def BREAK : M Unit := do
  let r ← cpu
  printf (.break r.code (r.pc - 4))
  Prog.exit (-1)

/-- `MMI_Unknown` of `MMI.c`. -/
def MMI_Unknown : M Unit := fatal report .unknownMMI

end Memory

end Handler

end Ps2Unpacker
