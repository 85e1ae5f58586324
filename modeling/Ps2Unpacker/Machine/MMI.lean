import Ps2Unpacker.Machine.Interpreter

/-!
# The multimedia handlers of `MMI.c`

Every handler here works on the registers alone. Most are instances of two shapes: an element-wise
macro behind the test on `rd` (`setRdPerLane`) and a shuffle of values read beforehand
(`setRdLanes`). The multiply-accumulate handlers have no such test at their head and write `rd`
between two reads of their operands, so they keep the order of the source.

A comparison such as `sTemp64 < 0x180000000` is kept even where the value cannot reach the bound.
-/

namespace Ps2Unpacker

open Lanes

namespace Handler

variable (r : CpuRegisters)

/-! ### `MMI` -/

/-- `(u64)LO.UL[k] | ((u64)HI.UL[k] << 32)`. -/
def accumulator (k : Nat) : U64 :=
  (UL k r.LO).setWidth 64 ||| (UL k r.HI).setWidth 64 <<< 32

def MADD : CpuRegisters := storeProduct r 0 (accumulator r 0 + product r 0)

def MADDU : CpuRegisters := storeProduct r 0 (accumulator r 0 + productU r 0)

/-- The loop of `_PLZCW` from bit `n - 1` down: one more than the index at which it stops. -/
def plzcwLoop (x : U32) : Nat → Nat
  | 0 => 0
  | i + 1 => if (x >>> i) &&& 1 ≠ x >>> 31 then i + 1 else plzcwLoop x i

def PLZCW : CpuRegisters :=
  r.setRdPerLane 32 (fun s _ => BitVec.ofNat 32 (31 - plzcwLoop s 31)) 0 2

-- Pipeline 1 has the upper doublewords of `LO` and `HI`, the words from 2 on.
def MADD1 : CpuRegisters := storeProduct r 1 (accumulator r 2 + product r 0)

def MADDU1 : CpuRegisters := storeProduct r 1 (accumulator r 2 + productU r 0)

def MFHI1 : CpuRegisters := r.setRd (UD 1 r.HI)

def MFLO1 : CpuRegisters := r.setRd (UD 1 r.LO)

def MTHI1 : CpuRegisters := r.setHILane 1 (UD 0 (r.GPR r.rs))

def MTLO1 : CpuRegisters := r.setLOLane 1 (UD 0 (r.GPR r.rs))

def MULT1 : CpuRegisters := storeProduct r 1 (product r 0)

def MULTU1 : CpuRegisters := storeProduct r 1 (productU r 0)

def DIV1 : Option CpuRegisters := divideInto r 1 0

def DIVU1 : CpuRegisters := divideIntoU r 1 0

/-- `PMFHL_CLAMP`; both comparisons are unsigned. -/
def PMFHL_CLAMP (src : U32) : U16 :=
  -- A negative word is a large number here, so it is clamped from above.
  if src > 0x00007fff then 0x7fff else if src < 0xffff8000 then 0x8000 else src.setWidth 16

/-- The saturation of `PMFHL.SLW` on word `k`; both comparisons are unsigned. -/
def PMFHL_SLW (k : Nat) : U64 :=
  if accumulator r k ≥ 0x000000007fffffff then 0x000000007fffffff
  -- Whatever is left is below the second bound, so the last line is never reached.
  else if accumulator r k ≤ 0xffffffff80000000 then 0xffffffff80000000
  else (UL k r.LO).signExtend 64

def PMFHL : CpuRegisters :=
  -- `LW` and `UW`
  if r.saField = 0 then r.setRdLanes [UL 0 r.LO, UL 0 r.HI, UL 2 r.LO, UL 2 r.HI]
  else if r.saField = 1 then r.setRdLanes [UL 1 r.LO, UL 1 r.HI, UL 3 r.LO, UL 3 r.HI]
  -- `SLW`
  else if r.saField = 2 then r.setRdLanes [PMFHL_SLW r 0, PMFHL_SLW r 2]
  -- `LH`
  else if r.saField = 3 then
    r.setRdLanes [US 0 r.LO, US 2 r.LO, US 0 r.HI, US 2 r.HI, US 4 r.LO, US 6 r.LO, US 4 r.HI,
      US 6 r.HI]
  -- `SH`
  else if r.saField = 4 then
    r.setRdLanes [PMFHL_CLAMP (UL 0 r.LO), PMFHL_CLAMP (UL 1 r.LO), PMFHL_CLAMP (UL 0 r.HI),
      PMFHL_CLAMP (UL 1 r.HI), PMFHL_CLAMP (UL 2 r.LO), PMFHL_CLAMP (UL 3 r.LO),
      PMFHL_CLAMP (UL 2 r.HI), PMFHL_CLAMP (UL 3 r.HI)]
  else r

def PMTHL : CpuRegisters :=
  -- Only `LW` exists.
  if r.saField ≠ 0 then r
  else
    let s := r.GPR r.rs
    (((r.setLOLane 0 (UL 0 s)).setHILane 0 (UL 1 s)).setLOLane 2 (UL 2 s)).setHILane 2 (UL 3 s)

/-- `_Sa_ & 0xf`. -/
def sa4 : Nat := (r.saField &&& 0xf).toNat

def PSLLH : CpuRegisters := r.setRdPerLane 16 (fun _ t => t <<< sa4 r) 0 8

def PSRLH : CpuRegisters := r.setRdPerLane 16 (fun _ t => t >>> sa4 r) 0 8

def PSRAH : CpuRegisters := r.setRdPerLane 16 (fun _ t => t.sshiftRight (sa4 r)) 0 8

def PSLLW : CpuRegisters := r.setRdPerLane 32 (fun _ t => t <<< r.saField.toNat) 0 4

def PSRLW : CpuRegisters := r.setRdPerLane 32 (fun _ t => t >>> r.saField.toNat) 0 4

def PSRAW : CpuRegisters := r.setRdPerLane 32 (fun _ t => t.sshiftRight r.saField.toNat) 0 4

/-! ### `MMI0` -/

/-- The mask a comparison leaves in a lane. -/
def allOrNone {w : Nat} (b : Bool) : BitVec w := if b then BitVec.allOnes w else 0

/-- The signed saturation macros: `temp` is clamped to `max` and `min` by the tests of the source,
`temp > max` and `lo ≤ temp < hi`. -/
def clampAdd {v : Nat} (w : Nat) (max min : BitVec w) (bound lo hi temp : BitVec v) : BitVec w :=
  if bound.slt temp then max
  -- Whatever would pass this test has passed the first one.
  else if temp.slt hi && lo.sle temp then min
  else temp.setWidth w

/-- The same for the subtractions, which test `temp ≥ max`. -/
def clampSub {v : Nat} (w : Nat) (max min : BitVec w) (bound lo hi temp : BitVec v) : BitVec w :=
  if bound.sle temp then max
  else if temp.slt hi && lo.sle temp then min
  else temp.setWidth w

def PADDW : CpuRegisters := r.setRdPerLane 32 (fun s t => s + t) 0 4

def PSUBW : CpuRegisters := r.setRdPerLane 32 (fun s t => s - t) 0 4

def PCGTW : CpuRegisters := r.setRdPerLane 32 (fun s t => allOrNone (t.slt s)) 0 4

def PMAXW : CpuRegisters := r.setRdPerLane 32 (fun s t => if t.slt s then s else t) 0 4

def PADDH : CpuRegisters := r.setRdPerLane 16 (fun s t => s + t) 0 8

def PSUBH : CpuRegisters := r.setRdPerLane 16 (fun s t => s - t) 0 8

def PCGTH : CpuRegisters := r.setRdPerLane 16 (fun s t => allOrNone (t.slt s)) 0 8

def PMAXH : CpuRegisters := r.setRdPerLane 16 (fun s t => if t.slt s then s else t) 0 8

def PADDB : CpuRegisters := r.setRdPerLane 8 (fun s t => s + t) 0 16

def PSUBB : CpuRegisters := r.setRdPerLane 8 (fun s t => s - t) 0 16

def PCGTB : CpuRegisters := r.setRdPerLane 8 (fun s t => allOrNone (t.slt s)) 0 16

def PADDSW : CpuRegisters :=
  r.setRdPerLane 32 (fun s t => clampAdd 32 0x7FFFFFFF 0x80000000 0x7FFFFFFF 0x100000000 0x180000000
    (s.signExtend 64 + t.signExtend 64)) 0 4

/-- The words are zero-extended here, unlike in `PADDSW`. -/
def PSUBSW : CpuRegisters :=
  r.setRdPerLane 32 (fun s t => clampSub 32 0x7FFFFFFF 0x80000000 0x7FFFFFFF 0x100000000 0x180000000
    (s.setWidth 64 - t.setWidth 64)) 0 4

def PEXTLW : CpuRegisters :=
  let s := r.GPR r.rs
  let t := r.GPR r.rt
  r.setRdLanes [UL 0 t, UL 0 s, UL 1 t, UL 1 s]

def PPACW : CpuRegisters :=
  let s := r.GPR r.rs
  let t := r.GPR r.rt
  r.setRdLanes [UL 0 t, UL 2 t, UL 0 s, UL 2 s]

def PADDSH : CpuRegisters :=
  r.setRdPerLane 16 (fun s t => clampAdd 16 0x7FFF 0x8000 0x7FFF 0x10000 0x18000
    (s.signExtend 32 + t.signExtend 32)) 0 8

def PSUBSH : CpuRegisters :=
  r.setRdPerLane 16 (fun s t => clampSub 16 0x7FFF 0x8000 0x7FFF 0x10000 0x18000
    (s.signExtend 32 - t.signExtend 32)) 0 8

def PEXTLH : CpuRegisters :=
  let s := r.GPR r.rs
  let t := r.GPR r.rt
  r.setRdLanes [US 0 t, US 0 s, US 1 t, US 1 s, US 2 t, US 2 s, US 3 t, US 3 s]

def PPACH : CpuRegisters :=
  let s := r.GPR r.rs
  let t := r.GPR r.rt
  r.setRdLanes [US 0 t, US 2 t, US 4 t, US 6 t, US 0 s, US 2 s, US 4 s, US 6 s]

def PADDSB : CpuRegisters :=
  r.setRdPerLane 8 (fun s t => clampAdd 8 0x7F 0x80 0x7F 0x100 0x180
    (s.signExtend 16 + t.signExtend 16)) 0 16

def PSUBSB : CpuRegisters :=
  r.setRdPerLane 8 (fun s t => clampSub 8 0x7F 0x80 0x7F 0x100 0x180
    (s.signExtend 16 - t.signExtend 16)) 0 16

def PEXTLB : CpuRegisters :=
  let s := r.GPR r.rs
  let t := r.GPR r.rt
  r.setRdLanes [UC 0 t, UC 0 s, UC 1 t, UC 1 s, UC 2 t, UC 2 s, UC 3 t, UC 3 s, UC 4 t, UC 4 s,
    UC 5 t, UC 5 s, UC 6 t, UC 6 s, UC 7 t, UC 7 s]

def PPACB : CpuRegisters :=
  let s := r.GPR r.rs
  let t := r.GPR r.rt
  r.setRdLanes [UC 0 t, UC 2 t, UC 4 t, UC 6 t, UC 8 t, UC 10 t, UC 12 t, UC 14 t, UC 0 s, UC 2 s,
    UC 4 s, UC 6 s, UC 8 s, UC 10 s, UC 12 s, UC 14 s]

def PEXT5 : CpuRegisters :=
  r.setRdPerLane 32 (fun _ t =>
    ((t &&& 0x0000001F) <<< 3) ||| ((t &&& 0x000003E0) <<< 6) ||| ((t &&& 0x00007C00) <<< 9) |||
      ((t &&& 0x00008000) <<< 16)) 0 4

def PPAC5 : CpuRegisters :=
  r.setRdPerLane 32 (fun _ t =>
    ((t >>> 3) &&& 0x0000001F) ||| ((t >>> 6) &&& 0x000003E0) ||| ((t >>> 9) &&& 0x00007C00) |||
      ((t >>> 16) &&& 0x00008000)) 0 4

/-! ### `MMI1` -/

/-- `abs` of the C library, undefined on the least `int`. -/
def abs? (x : U32) : Option U32 := if x = 0x80000000 then none else some x.abs

/-- The least word is its own negation here, as a processor computes it. -/
def PABSW : CpuRegisters := r.setRdPerLane 32 (fun _ t => t.abs) 0 4

/-- `PABSW` by the letter of C. -/
def PABSW? : Option CpuRegisters :=
  if r.rd = 0 then some r else r.perLane? 32 (fun _ t => abs? t) 0 4

def PCEQW : CpuRegisters := r.setRdPerLane 32 (fun s t => allOrNone (s == t)) 0 4

def PMINW : CpuRegisters := r.setRdPerLane 32 (fun s t => if s.slt t then s else t) 0 4

-- Four differences in the lower halfwords, four sums in the upper ones.
def PADSBH : CpuRegisters :=
  (r.setRdPerLane 16 (fun s t => s - t) 0 4).setRdPerLane 16 (fun s t => s + t) 4 4

def PABSH : CpuRegisters := r.setRdPerLane 16 (fun _ t => t.abs) 0 8

/-- `PABSH` by the letter of C: the halfword is promoted to `int`. -/
def PABSH? : Option CpuRegisters :=
  if r.rd = 0 then some r
  else r.perLane? 16 (fun _ t => (abs? (t.signExtend 32)).map fun v => v.setWidth 16) 0 8

def PCEQH : CpuRegisters := r.setRdPerLane 16 (fun s t => allOrNone (s == t)) 0 8

def PMINH : CpuRegisters := r.setRdPerLane 16 (fun s t => if s.slt t then s else t) 0 8

def PCEQB : CpuRegisters := r.setRdPerLane 8 (fun s t => allOrNone (s == t)) 0 16

/-- The unsigned saturation macros at the upper end. -/
def clampAddU {v : Nat} (w : Nat) (max temp : BitVec v) : BitVec w :=
  -- The comparison is signed, on a lane that is wide enough for it.
  if max.slt temp then BitVec.allOnes w else temp.setWidth w

/-- The unsigned saturation macros at zero. -/
def clampSubU {v : Nat} (w : Nat) (temp : BitVec v) : BitVec w :=
  if temp.sle 0 then 0 else temp.setWidth w

def PADDUW : CpuRegisters :=
  r.setRdPerLane 32 (fun s t => clampAddU 32 0xffffffff (s.setWidth 64 + t.setWidth 64)) 0 4

def PSUBUW : CpuRegisters :=
  r.setRdPerLane 32 (fun s t => clampSubU 32 (s.setWidth 64 - t.setWidth 64)) 0 4

def PEXTUW : CpuRegisters :=
  let s := r.GPR r.rs
  let t := r.GPR r.rt
  r.setRdLanes [UL 2 t, UL 2 s, UL 3 t, UL 3 s]

def PADDUH : CpuRegisters :=
  r.setRdPerLane 16 (fun s t => clampAddU 16 0xFFFF (s.setWidth 32 + t.setWidth 32)) 0 8

def PSUBUH : CpuRegisters :=
  r.setRdPerLane 16 (fun s t => clampSubU 16 (s.setWidth 32 - t.setWidth 32)) 0 8

def PEXTUH : CpuRegisters :=
  let s := r.GPR r.rs
  let t := r.GPR r.rt
  r.setRdLanes [US 4 t, US 4 s, US 5 t, US 5 s, US 6 t, US 6 s, US 7 t, US 7 s]

def PADDUB : CpuRegisters :=
  r.setRdPerLane 8 (fun s t => clampAddU 8 0xFF (s.setWidth 16 + t.setWidth 16)) 0 16

def PSUBUB : CpuRegisters :=
  r.setRdPerLane 8 (fun s t => clampSubU 8 (s.setWidth 16 - t.setWidth 16)) 0 16

def PEXTUB : CpuRegisters :=
  let s := r.GPR r.rs
  let t := r.GPR r.rt
  r.setRdLanes [UC 8 t, UC 8 s, UC 9 t, UC 9 s, UC 10 t, UC 10 s, UC 11 t, UC 11 s, UC 12 t,
    UC 12 s, UC 13 t, UC 13 s, UC 14 t, UC 14 s, UC 15 t, UC 15 s]

/-- The funnel shift, undefined where a doubleword would be shifted by 64 or more. -/
def QFSRV : Option CpuRegisters :=
  if r.rd = 0 then some r
  else if r.sa = 0 then
    let r₁ := r.setLane r.rd 0 (UD 0 (r.GPR r.rt))
    some (r₁.setLane r.rd 1 (UD 1 (r₁.GPR r.rt)))
  -- The four assignments read the sources again, `rd` possibly among them.
  else if r.sa < 64 then
    let r₁ := r.setLane r.rd 0 (UD 0 (r.GPR r.rt) >>> r.sa.toNat)
    let r₂ := r₁.setLane r.rd 1 (UD 1 (r₁.GPR r.rt) >>> r.sa.toNat)
    let r₃ := r₂.setLane r.rd 0
      (UD 0 (r₂.GPR r.rd) ||| UD 1 (r₂.GPR r.rt) <<< (64 - r.sa).toNat)
    some (r₃.setLane r.rd 1 (UD 1 (r₃.GPR r.rd) ||| UD 0 (r₃.GPR r.rs) <<< (64 - r.sa).toNat))
  else if 64 < r.sa ∧ r.sa < 128 then
    let r₁ := r.setLane r.rd 0 (UD 1 (r.GPR r.rt) >>> (r.sa - 64).toNat)
    let r₂ := r₁.setLane r.rd 1 (UD 0 (r₁.GPR r.rs) >>> (r.sa - 64).toNat)
    let r₃ := r₂.setLane r.rd 0
      (UD 0 (r₂.GPR r.rd) ||| UD 0 (r₂.GPR r.rs) <<< (128 - r.sa).toNat)
    some (r₃.setLane r.rd 1 (UD 1 (r₃.GPR r.rd) ||| UD 1 (r₃.GPR r.rs) <<< (128 - r.sa).toNat))
  else none

/-! ### `MMI2` -/

/-- The tail of the paired multiplications: the halves of `temp`, sign-extended, go to doubleword
`dd` of `LO` and `HI`, and all of it to doubleword `dd` of `rd`. -/
def storeWide (dd : Nat) (temp : U64) : CpuRegisters :=
  ((r.setLOLane dd ((temp.setWidth 32).signExtend 64)).setHILane dd
    (((temp >>> 32).setWidth 32).signExtend 64)).setRdAt dd temp

/-- `(s64)LO.SL[ss] | ((s64)HI.SL[ss] << 32)`: the low half is sign-extended before the `or`. -/
def accumulatorS (ss : Nat) : U64 :=
  (UL ss r.LO).signExtend 64 ||| (UL ss r.HI).signExtend 64 <<< 32

/-- `_PMADDW`. -/
def pmaddw (dd ss : Nat) : CpuRegisters := storeWide r dd (accumulatorS r ss + product r ss)

def PMADDW : CpuRegisters := pmaddw (pmaddw r 0 0) 1 2

def PSLLVW : CpuRegisters :=
  let r₁ := r.setRdAt 0 ((UL 0 (r.GPR r.rt) <<< (UL 0 (r.GPR r.rs) &&& 0x1F).toNat).signExtend 64)
  -- The second half reads the registers again, after the first write.
  r₁.setRdAt 1 ((UL 2 (r₁.GPR r.rt) <<< (UL 2 (r₁.GPR r.rs) &&& 0x1F).toNat).signExtend 64)

def PSRLVW : CpuRegisters :=
  let r₁ := r.setRdAt 0 ((UL 0 (r.GPR r.rt) >>> (UL 0 (r.GPR r.rs) &&& 0x1F).toNat).setWidth 64)
  r₁.setRdAt 1 ((UL 2 (r₁.GPR r.rt) >>> (UL 2 (r₁.GPR r.rs) &&& 0x1F).toNat).setWidth 64)

/-- `_PMSUBW`. -/
def pmsubw (dd ss : Nat) : CpuRegisters := storeWide r dd (accumulatorS r ss - product r ss)

def PMSUBW : CpuRegisters := pmsubw (pmsubw r 0 0) 1 2

def PMFHI : CpuRegisters := r.setRdLanes [UD 0 r.HI, UD 1 r.HI]

def PMFLO : CpuRegisters := r.setRdLanes [UD 0 r.LO, UD 1 r.LO]

-- The lower half of `rt` and the upper half of `rs`, interleaved.
def PINTH : CpuRegisters :=
  let s := r.GPR r.rs
  let t := r.GPR r.rt
  r.setRdLanes [US 0 t, US 4 s, US 1 t, US 5 s, US 2 t, US 6 s, US 3 t, US 7 s]

/-- `_PMULTW`. -/
def pmultw (dd ss : Nat) : CpuRegisters := storeWide r dd (product r ss)

def PMULTW : CpuRegisters := pmultw (pmultw r 0 0) 1 2

def PDIVW : Option CpuRegisters := do
  let r₁ ← divideInto r 0 0
  divideInto r₁ 1 2

def PCPYLD : CpuRegisters :=
  -- The upper doubleword first.
  let r₁ := r.setRdAt 1 (UD 0 (r.GPR r.rs))
  r₁.setRdAt 0 (UD 0 (r₁.GPR r.rt))

/-- Which of the two accumulator registers a halfword handler writes. -/
inductive HiLo where
  | HI
  | LO
  deriving DecidableEq

def HiLo.read : HiLo → CpuRegisters → U128
  | HI, r => r.HI
  | LO, r => r.LO

def HiLo.write (hlr : HiLo) (k : Nat) (v : U32) (r : CpuRegisters) : CpuRegisters :=
  match hlr with
  | HI => r.setHILane k v
  | LO => r.setLOLane k v

/-- The signed product of halfword `n` of `rs` and `rt`. -/
def productH (n : Nat) : U32 :=
  (US n (r.GPR r.rs)).signExtend 32 * (US n (r.GPR r.rt)).signExtend 32

/-- One assignment of `PMADDH`, `PMSUBH` and `PMULTH`: `temp` is computed from word `k` of `hlr` and
the product of the halfwords `n`, and goes back to that word and to word `rdd` of `rd`. -/
def accumulateH (op : U32 → U32 → U32) (hlr : HiLo) (k n : Nat) (rdd : Option Nat)
    (r : CpuRegisters) : CpuRegisters :=
  let temp := op (UL k (hlr.read r)) (productH r n)
  let r' := hlr.write k temp r
  match rdd with
  | some j => r'.setRdAt j temp
  | none => r'

/-- The eight assignments, in the order of the source. -/
def accumulateAllH (op : U32 → U32 → U32) (r : CpuRegisters) : CpuRegisters :=
  -- The even halfwords reach `rd`, the odd ones only the accumulators.
  let r := accumulateH op .LO 0 0 (some 0) r
  let r := accumulateH op .LO 1 1 none r
  let r := accumulateH op .HI 0 2 (some 1) r
  let r := accumulateH op .HI 1 3 none r
  let r := accumulateH op .LO 2 4 (some 2) r
  let r := accumulateH op .LO 3 5 none r
  let r := accumulateH op .HI 2 6 (some 3) r
  accumulateH op .HI 3 7 none r

def PMADDH : CpuRegisters := accumulateAllH (fun acc p => acc + p) r

/-- `_PHMADH` and `_PHMSBH`: the products of the halfwords `n + 1` and `n`. -/
def horizontalH (op : U32 → U32 → U32) (hlr : HiLo) (dd n rdd : Nat) (r : CpuRegisters) :
    CpuRegisters :=
  let temp := op (productH r (n + 1)) (productH r n)
  (hlr.write dd temp r).setRdAt rdd temp

def PHMADH : CpuRegisters :=
  -- The pairs of halfwords overlap here; those of `PHMSBH` do not.
  let r := horizontalH (fun p q => p + q) .LO 0 0 0 r
  let r := horizontalH (fun p q => p + q) .HI 0 1 1 r
  let r := horizontalH (fun p q => p + q) .LO 2 2 2 r
  horizontalH (fun p q => p + q) .HI 2 3 3 r

def PAND : CpuRegisters := r.setRdPerLane 64 (fun s t => s &&& t) 0 2

def PXOR : CpuRegisters := r.setRdPerLane 64 (fun s t => s ^^^ t) 0 2

def PMSUBH : CpuRegisters := accumulateAllH (fun acc p => acc - p) r

def PHMSBH : CpuRegisters :=
  -- The halfwords 0 and 1, 2 and 3, 4 and 5, 6 and 7.
  let r := horizontalH (fun p q => p - q) .LO 0 0 0 r
  let r := horizontalH (fun p q => p - q) .HI 0 2 1 r
  let r := horizontalH (fun p q => p - q) .LO 2 4 2 r
  horizontalH (fun p q => p - q) .HI 2 6 3 r

def PEXEH : CpuRegisters :=
  let t := r.GPR r.rt
  r.setRdLanes [US 2 t, US 1 t, US 0 t, US 3 t, US 6 t, US 5 t, US 4 t, US 7 t]

def PREVH : CpuRegisters :=
  let t := r.GPR r.rt
  r.setRdLanes [US 3 t, US 2 t, US 1 t, US 0 t, US 7 t, US 6 t, US 5 t, US 4 t]

def PMULTH : CpuRegisters := accumulateAllH (fun _ p => p) r

/-- `_PDIVBW`: word `n` of `rs` by halfword 0 of `rt`; the remainder is cut to a halfword. -/
def pdivbw (n : Nat) : Option CpuRegisters :=
  let a := UL n (r.GPR r.rs)
  let d := (US 0 (r.GPR r.rt)).signExtend 32
  -- The caller has tested the divisor, so only a quotient that is no word is left.
  if divides a d then
    some ((r.setLOLane n (a.sdiv d)).setHILane n (((a.srem d).setWidth 16).signExtend 32))
  else none

def PDIVBW : Option CpuRegisters :=
  -- One test for the four divisions, which share their divisor.
  if US 0 (r.GPR r.rt) = 0 then some r
  else do
    let r ← pdivbw r 0
    let r ← pdivbw r 1
    let r ← pdivbw r 2
    pdivbw r 3

def PEXEW : CpuRegisters :=
  let t := r.GPR r.rt
  r.setRdLanes [UL 2 t, UL 1 t, UL 0 t, UL 3 t]

def PROT3W : CpuRegisters :=
  let t := r.GPR r.rt
  r.setRdLanes [UL 1 t, UL 2 t, UL 0 t, UL 3 t]

/-! ### `MMI3` -/

/-- `_PMADDUW`. -/
def pmadduw (dd ss : Nat) : CpuRegisters := storeWide r dd (accumulator r ss + productU r ss)

def PMADDUW : CpuRegisters := pmadduw (pmadduw r 0 0) 1 2

def PSRAVW : CpuRegisters :=
  let r₁ := r.setRdAt 0
    (((UL 0 (r.GPR r.rt)).sshiftRight (UL 0 (r.GPR r.rs) &&& 0x1F).toNat).signExtend 64)
  r₁.setRdAt 1
    (((UL 2 (r₁.GPR r.rt)).sshiftRight (UL 2 (r₁.GPR r.rs) &&& 0x1F).toNat).signExtend 64)

def PMTHI : CpuRegisters :=
  (r.setHILane 0 (UD 0 (r.GPR r.rs))).setHILane 1 (UD 1 (r.GPR r.rs))

def PMTLO : CpuRegisters :=
  (r.setLOLane 0 (UD 0 (r.GPR r.rs))).setLOLane 1 (UD 1 (r.GPR r.rs))

def PINTEH : CpuRegisters :=
  let s := r.GPR r.rs
  let t := r.GPR r.rt
  r.setRdLanes [US 0 t, US 0 s, US 2 t, US 2 s, US 4 t, US 4 s, US 6 t, US 6 s]

/-- `_PMULTUW`. -/
def pmultuw (dd ss : Nat) : CpuRegisters := storeWide r dd (productU r ss)

def PMULTUW : CpuRegisters := pmultuw (pmultuw r 0 0) 1 2

def PDIVUW : CpuRegisters := divideIntoU (divideIntoU r 0 0) 1 2

def PCPYUD : CpuRegisters :=
  let r₁ := r.setRdAt 0 (UD 1 (r.GPR r.rs))
  r₁.setRdAt 1 (UD 1 (r₁.GPR r.rt))

def POR : CpuRegisters := r.setRdPerLane 64 (fun s t => s ||| t) 0 2

def PNOR : CpuRegisters := r.setRdPerLane 64 (fun s t => ~~~(s ||| t)) 0 2

def PEXCH : CpuRegisters :=
  let t := r.GPR r.rt
  r.setRdLanes [US 0 t, US 2 t, US 1 t, US 3 t, US 4 t, US 6 t, US 5 t, US 7 t]

def PCPYH : CpuRegisters :=
  let t := r.GPR r.rt
  r.setRdLanes [US 0 t, US 0 t, US 0 t, US 0 t, US 4 t, US 4 t, US 4 t, US 4 t]

def PEXCW : CpuRegisters :=
  let t := r.GPR r.rt
  r.setRdLanes [UL 0 t, UL 2 t, UL 1 t, UL 3 t]

end Handler

end Ps2Unpacker
