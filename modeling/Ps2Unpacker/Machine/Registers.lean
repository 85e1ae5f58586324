import Ps2Unpacker.Framework.Lanes

/-!
# The register file

The processor state of `R5900.h`: thirty-two 128-bit general registers, `HI` and `LO`, the program
counter, the instruction word and the cycle count. A `GPR_reg` is a C union of the same sixteen
bytes as two doublewords, four words, eight halfwords or sixteen bytes; here it is a `BitVec 128`
read and written by lanes (`UD`, `UL`, `US`, `UC`). The signed members `SD`, `SL`, `SS`, `SC`
overlay the same bits, so the sign of an access shows only in the conversion or comparison applied
to the lane.

The counters, the interrupt word and the operating mode of `cpuRegisters` are read by nothing in the
interpreter and are left out.
-/

namespace Ps2Unpacker

open Lanes

abbrev U8 := BitVec 8
abbrev U16 := BitVec 16
abbrev U32 := BitVec 32
abbrev U64 := BitVec 64
abbrev U128 := BitVec 128

/-- The number of a general register. -/
abbrev Reg := BitVec 5

/-- Doubleword `k` of a register. -/
abbrev UD (k : Nat) (x : U128) : U64 := lane 64 k x

/-- Word `k` of a register. -/
abbrev UL (k : Nat) (x : U128) : U32 := lane 32 k x

/-- Halfword `k` of a register. -/
abbrev US (k : Nat) (x : U128) : U16 := lane 16 k x

/-- Byte `k` of a register. -/
abbrev UC (k : Nat) (x : U128) : U8 := lane 8 k x

/-- The value of a C comparison, as it is stored in a doubleword. -/
def truth (b : Bool) : U64 := if b then 1 else 0

structure CpuRegisters where
  GPR : Reg → U128
  HI : U128
  LO : U128
  CP0 : Reg → U32
  /-- The address of the next instruction: the one that runs is at `pc - 4`. -/
  pc : U32
  /-- The instruction word that runs. -/
  code : U32
  cycle : U32
  /-- The shift amount of `QFSRV`. -/
  sa : U32
  /-- Set while a delay slot runs. -/
  branch : Int

/-- `memset(&cpuRegs, 0, sizeof(cpuRegs))` followed by the assignment to `pc`. -/
def CpuRegisters.zeroed (pc : U32) : CpuRegisters where
  GPR _ := 0
  HI := 0
  LO := 0
  CP0 _ := 0
  pc := pc
  code := 0
  cycle := 0
  sa := 0
  branch := 0

namespace CpuRegisters

/-! ### The fields of the instruction word -/

section Fields

variable (r : CpuRegisters)

/-- `_Rd_`. -/
def rd : Reg := r.code.extractLsb' 11 5

/-- `_Rt_`. -/
def rt : Reg := r.code.extractLsb' 16 5

/-- `_Rs_`. -/
def rs : Reg := r.code.extractLsb' 21 5

/-- `_Sa_`. -/
def saField : BitVec 5 := r.code.extractLsb' 6 5

/-- `_Imm_`, a signed halfword. -/
def imm : U16 := r.code.setWidth 16

/-- `_ImmU_`. -/
def immU : U32 := r.code &&& 0xffff

/-- `_Target_`. -/
def target : U32 := r.code &&& 0x03ffffff

/-- `_JumpTarget_`. -/
def jumpTarget : U32 := r.target * 4 + (r.pc &&& 0xf0000000)

/-- `_BranchTarget_`. -/
def branchTarget : U32 := r.imm.signExtend 32 * 4 + r.pc

end Fields

/-! ### Writes -/

def setGPR (i : Reg) (v : U128) (r : CpuRegisters) : CpuRegisters :=
  { r with GPR := fun j => if j = i then v else r.GPR j }

def setHI (v : U128) (r : CpuRegisters) : CpuRegisters := { r with HI := v }

def setLO (v : U128) (r : CpuRegisters) : CpuRegisters := { r with LO := v }

/-- Assign to lane `k` of general register `i`; the width is that of the value. -/
def setLane {w : Nat} (i : Reg) (k : Nat) (v : BitVec w) (r : CpuRegisters) : CpuRegisters :=
  r.setGPR i (Lanes.setLane k v (r.GPR i))

/-- Assign to lane `k` of `HI`. -/
def setHILane {w : Nat} (k : Nat) (v : BitVec w) (r : CpuRegisters) : CpuRegisters :=
  r.setHI (Lanes.setLane k v r.HI)

/-- Assign to lane `k` of `LO`. -/
def setLOLane {w : Nat} (k : Nat) (v : BitVec w) (r : CpuRegisters) : CpuRegisters :=
  r.setLO (Lanes.setLane k v r.LO)

/-- `_SetLink(x)`: the return address, zero-extended. -/
def setLink (i : Reg) (r : CpuRegisters) : CpuRegisters :=
  r.setLane i 0 ((r.pc + 4).setWidth 64)

/-- `if (_Rd_) cpuRegs.GPR.r[_Rd_] = v`, for lane `k` of the register. -/
def setRdAt {w : Nat} (k : Nat) (v : BitVec w) (r : CpuRegisters) : CpuRegisters :=
  if r.rd = 0 then r else r.setLane r.rd k v

/-- The assignment most handlers end with: the low doubleword of `rd`, unless that is `r0`. -/
def setRd (v : U64) (r : CpuRegisters) : CpuRegisters := r.setRdAt 0 v

/-- The assignment of the handlers with an immediate and of the loads. -/
def setRt (v : U64) (r : CpuRegisters) : CpuRegisters :=
  if r.rt = 0 then r else r.setLane r.rt 0 v

/-- Assign to the lanes of register `i` one after the other, from lane `k` on. -/
def setLanes {w : Nat} (i : Reg) : Nat → List (BitVec w) → CpuRegisters → CpuRegisters
  | _, [], r => r
  | k, v :: vs, r => (r.setLane i k v).setLanes i (k + 1) vs

/-- The handlers of `MMI.c` that fill `rd` from values read before. -/
def setRdLanes {w : Nat} (vs : List (BitVec w)) (r : CpuRegisters) : CpuRegisters :=
  if r.rd = 0 then r else r.setLanes r.rd 0 vs

/-- The element-wise macros of `MMI.c`: for each of the lanes `k, k + 1, …` in turn, lane `k` of
`rd` becomes `f` of lane `k` of `rs` and of `rt`. The source registers are read again for each lane,
after the lanes before it were written. -/
def perLane (w : Nat) (f : BitVec w → BitVec w → BitVec w) : Nat → Nat → CpuRegisters → CpuRegisters
  | _, 0, r => r
  | k, n + 1, r =>
    (r.setLane r.rd k (f (lane w k (r.GPR r.rs)) (lane w k (r.GPR r.rt)))).perLane w f (k + 1) n

/-- The same for a function that C leaves undefined on some operands. -/
def perLane? (w : Nat) (f : BitVec w → BitVec w → Option (BitVec w)) :
    Nat → Nat → CpuRegisters → Option CpuRegisters
  | _, 0, r => some r
  | k, n + 1, r => do
    let v ← f (lane w k (r.GPR r.rs)) (lane w k (r.GPR r.rt))
    (r.setLane r.rd k v).perLane? w f (k + 1) n

/-- The element-wise macros behind the test `if (!_Rd_) return;`. -/
def setRdPerLane (w : Nat) (f : BitVec w → BitVec w → BitVec w) (k n : Nat) (r : CpuRegisters) :
    CpuRegisters :=
  if r.rd = 0 then r else r.perLane w f k n

/-! ### What a write leaves alone -/

section Frame

variable (i j : Reg) (v : U128) (r : CpuRegisters)

/-- What a write to a general register leaves of the others. -/
theorem setGPR_GPR : (r.setGPR i v).GPR j = if j = i then v else r.GPR j := rfl

@[simp] theorem setGPR_GPR_self : (r.setGPR i v).GPR i = v := by
  rw [setGPR_GPR, if_pos rfl]

/-- Another register keeps its value. -/
theorem setGPR_GPR_of_ne {i j : Reg} (h : j ≠ i) : (r.setGPR i v).GPR j = r.GPR j := by
  rw [setGPR_GPR, if_neg h]

@[simp] theorem setGPR_HI : (r.setGPR i v).HI = r.HI := rfl
@[simp] theorem setGPR_LO : (r.setGPR i v).LO = r.LO := rfl
@[simp] theorem setGPR_CP0 : (r.setGPR i v).CP0 = r.CP0 := rfl
@[simp] theorem setGPR_pc : (r.setGPR i v).pc = r.pc := rfl
@[simp] theorem setGPR_code : (r.setGPR i v).code = r.code := rfl
@[simp] theorem setGPR_cycle : (r.setGPR i v).cycle = r.cycle := rfl
@[simp] theorem setGPR_sa : (r.setGPR i v).sa = r.sa := rfl
@[simp] theorem setGPR_branch : (r.setGPR i v).branch = r.branch := rfl

@[simp] theorem setHI_GPR : (r.setHI v).GPR = r.GPR := rfl
@[simp] theorem setHI_HI : (r.setHI v).HI = v := rfl
@[simp] theorem setHI_LO : (r.setHI v).LO = r.LO := rfl
@[simp] theorem setHI_code : (r.setHI v).code = r.code := rfl

@[simp] theorem setLO_GPR : (r.setLO v).GPR = r.GPR := rfl
@[simp] theorem setLO_HI : (r.setLO v).HI = r.HI := rfl
@[simp] theorem setLO_LO : (r.setLO v).LO = v := rfl
@[simp] theorem setLO_code : (r.setLO v).code = r.code := rfl

@[simp] theorem setLane_code {w : Nat} (k : Nat) (u : BitVec w) :
    (r.setLane i k u).code = r.code := rfl

@[simp] theorem setLane_rd {w : Nat} (k : Nat) (u : BitVec w) : (r.setLane i k u).rd = r.rd := rfl

end Frame

/-! ### Register-only effect

`Quiet r r'` is what an instruction that is neither a branch, nor a system call, nor a memory access
may do to the processor: it writes general registers other than `r0`, `HI` and `LO`, and nothing
else. -/

structure Quiet (r r' : CpuRegisters) : Prop where
  zero : r'.GPR 0 = r.GPR 0
  CP0 : r'.CP0 = r.CP0
  pc : r'.pc = r.pc
  code : r'.code = r.code
  cycle : r'.cycle = r.cycle
  sa : r'.sa = r.sa
  branch : r'.branch = r.branch

@[simp] theorem Quiet.refl (r : CpuRegisters) : Quiet r r :=
  ⟨rfl, rfl, rfl, rfl, rfl, rfl, rfl⟩

/-- Two quiet updates in turn are quiet. -/
theorem Quiet.trans {r₁ r₂ r₃ : CpuRegisters} (h : Quiet r₁ r₂) (h' : Quiet r₂ r₃) :
    Quiet r₁ r₃ where
  zero := h'.zero.trans h.zero
  CP0 := h'.CP0.trans h.CP0
  pc := h'.pc.trans h.pc
  code := h'.code.trans h.code
  cycle := h'.cycle.trans h.cycle
  sa := h'.sa.trans h.sa
  branch := h'.branch.trans h.branch

/-- A write to a register other than register zero is quiet. -/
theorem Quiet.setGPR {r r' : CpuRegisters} (h : Quiet r r') {i : Reg} (hi : i ≠ 0) (v : U128) :
    Quiet r (r'.setGPR i v) :=
  h.trans ⟨setGPR_GPR_of_ne v r' (Ne.symm hi), rfl, rfl, rfl, rfl, rfl, rfl⟩

theorem Quiet.setHI {r r' : CpuRegisters} (h : Quiet r r') (v : U128) : Quiet r (r'.setHI v) :=
  h.trans ⟨rfl, rfl, rfl, rfl, rfl, rfl, rfl⟩

theorem Quiet.setLO {r r' : CpuRegisters} (h : Quiet r r') (v : U128) : Quiet r (r'.setLO v) :=
  h.trans ⟨rfl, rfl, rfl, rfl, rfl, rfl, rfl⟩

/-- A lane of a register other than register zero is written quietly. -/
theorem Quiet.setLane {r r' : CpuRegisters} (h : Quiet r r') {i : Reg} (hi : i ≠ 0) {w : Nat}
    (k : Nat) (v : BitVec w) : Quiet r (r'.setLane i k v) :=
  h.setGPR hi _

theorem Quiet.setLanes {i : Reg} (hi : i ≠ 0) {w : Nat} (vs : List (BitVec w)) :
    ∀ {r r' : CpuRegisters} (_ : Quiet r r') (k : Nat), Quiet r (r'.setLanes i k vs) := by
  induction vs with
  | nil => exact fun h _ => h
  | cons v vs ih => exact fun h k => ih (h.setLane hi k v) (k + 1)

/-- So are those that an element-wise macro computes. -/
theorem Quiet.perLane {w : Nat} (f : BitVec w → BitVec w → BitVec w) (n : Nat) :
    ∀ {r r' : CpuRegisters} (_ : Quiet r r') (_ : r'.rd ≠ 0) (k : Nat),
      Quiet r (r'.perLane w f k n) := by
  -- The instruction word, and with it the guard on `rd`, survives each write.
  -- On the lanes that are left.
  induction n with
  | zero => exact fun h _ _ => h
  | succ n ih => exact fun h hd k => ih (h.setLane hd k _) hd (k + 1)

/-- The guard on `rd` or `rt` that keeps `r0`. -/
theorem Quiet.guard {r r' : CpuRegisters} {i : Reg} {w : CpuRegisters} (h : Quiet r r')
    (hw : i ≠ 0 → Quiet r w) : Quiet r (if i = 0 then r' else w) := by
  by_cases hi : i = 0
  · rw [if_pos hi]; exact h
  · rw [if_neg hi]; exact hw hi

theorem Quiet.setRdAt {r r' : CpuRegisters} (h : Quiet r r') {w : Nat} (k : Nat) (v : BitVec w) :
    Quiet r (r'.setRdAt k v) :=
  h.guard fun hi => h.setLane hi k v

theorem Quiet.setRd {r r' : CpuRegisters} (h : Quiet r r') (v : U64) : Quiet r (r'.setRd v) :=
  h.setRdAt 0 v

theorem Quiet.setRt {r r' : CpuRegisters} (h : Quiet r r') (v : U64) : Quiet r (r'.setRt v) :=
  h.guard fun hi => h.setLane hi 0 v

theorem Quiet.setRdLanes {r r' : CpuRegisters} (h : Quiet r r') {w : Nat} (vs : List (BitVec w)) :
    Quiet r (r'.setRdLanes vs) :=
  h.guard fun hi => Quiet.setLanes hi vs h 0

theorem Quiet.setRdPerLane {r r' : CpuRegisters} (h : Quiet r r') {w : Nat}
    (f : BitVec w → BitVec w → BitVec w) (k n : Nat) : Quiet r (r'.setRdPerLane w f k n) :=
  h.guard fun hi => Quiet.perLane f n h hi k

theorem Quiet.setHILane {r r' : CpuRegisters} (h : Quiet r r') {w : Nat} (k : Nat) (v : BitVec w) :
    Quiet r (r'.setHILane k v) :=
  h.setHI _

theorem Quiet.setLOLane {r r' : CpuRegisters} (h : Quiet r r') {w : Nat} (k : Nat) (v : BitVec w) :
    Quiet r (r'.setLOLane k v) :=
  h.setLO _

end CpuRegisters

end Ps2Unpacker
