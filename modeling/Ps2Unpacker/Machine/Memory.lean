import Mathlib.Tactic.IntervalCases
import Ps2Unpacker.Machine.State

/-!
# The emulated memory

`memory.c` and the reporter `dumpasm` of `Interpreter.c`. The two are mutually recursive in the
source: a failing access prints the disassembly around the program counter, and that disassembly
reads memory. Here every accessor takes the reporter as the parameter `report`, and `dumpasm` closes
the recursion, one level of depth a call.

The accessors return the value instead of storing it through a pointer. Their `int` result is left
out: they return 0 or do not return, so the tests for -1 in their callers never hold.
-/

namespace Ps2Unpacker

open CProg Lanes

/-! ### Reports -/

section Access

variable (report : U32 → M Unit)

/-- The end of every fatal path: print, disassemble around the instruction, exit. -/
def fatal {α : Type} (msg : Message) : M α := do
  printf msg
  report ((← cpu).pc - 4)
  Prog.exit (-1)

/-! ### Bytes -/

/-- The mapping switch of `memRead8` and `memWrite8`. -/
def unmap (access : Access) (mem : U32) : M U32 :=
  -- Main memory, then its copy, which is folded onto it.
  if (mem &&& 0xf8000000) >>> 24 = 0 then pure mem
  else if (mem &&& 0xf8000000) >>> 24 = 8 then pure (mem &&& 0xf7ffffff)
  else fatal report (.unknownMapping access (mem &&& 0xf8000000) mem)

/-- Their range check. -/
def inRange (access : Access) (mem : U32) : M (Fin MEMSIZE) :=
  -- Behind the switch the address is an index, possibly too large.
  if h : mem.toNat < MEMSIZE then pure ⟨mem.toNat, h⟩
  else do fatal report (.outOfRange access mem ((← cpu).pc - 4))

/-- The index into `memory` and `tags`. -/
def translate (access : Access) (mem : U32) : M (Fin MEMSIZE) := do
  inRange report access (← unmap report access mem)

end Access

/-- `tags[m] |= bit`. -/
def Machine.tag (bit : U8) (m : Fin MEMSIZE) (s : Machine) : Machine :=
  { s with tags := fun j => if j = m then s.tags m ||| bit else s.tags j }

def tagRead (m : Fin MEMSIZE) : M Unit := Prog.modify (Machine.tag 1 m)

def tagWrite (m : Fin MEMSIZE) : M Unit := Prog.modify (Machine.tag 2 m)

/-- `has_write`: is bit 1 of `tags[mem]` set? `none` when the index lies outside the array. -/
def hasWrite (s : Machine) (mem : U32) : Option Bool :=
  if h : mem.toNat < MEMSIZE then some (decide (s.tags ⟨mem.toNat, h⟩ &&& 2 ≠ 0)) else none

/-- `is_zero`: `none` when the index lies outside the array. -/
def isZero (s : Machine) (mem : U32) : Option Bool :=
  if h : mem.toNat < MEMSIZE then some (decide (s.memory ⟨mem.toNat, h⟩ = 0)) else none

section Access

variable (report : U32 → M Unit)

def memRead8 (mem : U32) : M U8 := do
  let m ← translate report .reading mem
  let s ← Prog.get
  tagRead m
  pure (s.memory m)

def memWrite8 (mem : U32) (value : U8) : M Unit := do
  let m ← translate report .writing mem
  Prog.modify fun s => { s with memory := fun j => if j = m then value else s.memory j }
  tagWrite m
  -- The history has the address as it was asked for, in either window.
  emit (.store mem value)

/-! ### Wider accesses

Byte `k` of the value is at `mem + k`. -/

/-- Read the bytes `k, k + 1, …` of a value, `n` of them. -/
def readFrom {w : Nat} (mem : U32) : Nat → Nat → BitVec w → M (BitVec w)
  | _, 0, value => pure value
  | k, n + 1, value => do
    let b ← memRead8 report (mem + BitVec.ofNat 32 k)
    readFrom mem (k + 1) n (setLane k b value)

/-- Write the bytes `k, k + 1, …` of a value, `n` of them. -/
def writeFrom {w : Nat} (mem : U32) (value : BitVec w) : Nat → Nat → M Unit
  | _, 0 => pure ()
  | k, n + 1 => do
    memWrite8 report (mem + BitVec.ofNat 32 k) (lane 8 k value)
    writeFrom mem value (k + 1) n

def memRead16 (mem : U32) : M U16 := readFrom report mem 0 2 0

def memRead32 (mem : U32) : M U32 := readFrom report mem 0 4 0

def memRead64 (mem : U32) : M U64 := readFrom report mem 0 8 0

/-- The two doublewords `out[0]` and `out[1]` as one value. -/
def memRead128 (mem : U32) : M U128 := readFrom report mem 0 16 0

def memWrite16 (mem : U32) (value : U16) : M Unit := writeFrom report mem value 0 2

def memWrite32 (mem : U32) (value : U32) : M Unit := writeFrom report mem value 0 4

def memWrite64 (mem : U32) (value : U64) : M Unit := writeFrom report mem value 0 8

/-- The parameter of `memWrite128` is a pointer, and the sixteen bytes are taken from the address of
that parameter: the eight bytes of the pointer, then whatever lies behind it on the stack. -/
def memWrite128 (host : Host) (mem : U32) (value : U64) : M Unit := do
  let s ← Prog.get
  writeFrom report mem (host.behindValue s ++ value) 0 16

end Access

/-- The words `dumpasm` prints: `for (i = -32; i <= 32; i += 4)`. -/
def dumpOffsets : List U32 := (List.range 17).map fun k => BitVec.ofNat 32 (4 * k) - 32

/-- Print the words at the given offsets from `pc`. The disassembler writes only its own buffers: it
saves and restores `cpuRegs.code`. -/
def dumpWords (report : U32 → M Unit) (pc : U32) : List U32 → M Unit
  | [] => pure ()
  | i :: is => do
    let code ← memRead32 report (pc + i)
    printf (.disassembly code (pc + i))
    dumpWords report pc is

/-- `dumpasm`, with the depth of its recursion through a failing `memRead32`. -/
def dumpasm : Nat → U32 → M Unit
  | 0, _ => Prog.diverge
  -- Each level can fail again, on a word that cannot be read.
  | depth + 1, pc => dumpWords (dumpasm depth) pc dumpOffsets

/-! ### The two windows

The addresses `memRead8` and `memWrite8` accept: the 32 MiB from zero, and their copy at
`0x08000000`. -/

/-- The byte an address denotes. -/
def foldAddr (mem : U32) : Option (Fin MEMSIZE) :=
  if h : mem.toNat < MEMSIZE then some ⟨mem.toNat, h⟩
  else if h : 0x08000000 ≤ mem.toNat ∧ mem.toNat < 0x08000000 + MEMSIZE then
    some ⟨mem.toNat - 0x08000000, by omega⟩
  else none

/-- The mapping bits are the five bits from bit 27 on. -/
theorem mapping_eq (mem : U32) : (mem &&& 0xf8000000) >>> 24 = (mem >>> 27) <<< 3 := by
  apply BitVec.eq_of_getLsbD_eq
  intro i hi
  interval_cases i <;> simp

/-- As a number, the mapping is the quotient by `2 ^ 27`, times eight. -/
theorem mapping_toNat (mem : U32) :
    ((mem &&& 0xf8000000) >>> 24).toNat = mem.toNat / 0x08000000 * 8 := by
  have hlt := mem.isLt
  rw [mapping_eq]
  simp only [BitVec.toNat_shiftLeft, BitVec.toNat_ushiftRight, Nat.shiftLeft_eq,
    Nat.shiftRight_eq_div_pow]
  omega

/-- The switch takes an address for main memory below 128 MiB. -/
theorem mapping_eq_zero (mem : U32) :
    (mem &&& 0xf8000000) >>> 24 = 0 ↔ mem.toNat < 0x08000000 := by
  rw [← BitVec.toNat_inj, mapping_toNat, show (0 : U32).toNat = 0 from rfl]
  omega

/-- The second case of the switch is the next 128 MiB. -/
theorem mapping_eq_eight (mem : U32) :
    (mem &&& 0xf8000000) >>> 24 = 8 ↔ 0x08000000 ≤ mem.toNat ∧ mem.toNat < 0x10000000 := by
  rw [← BitVec.toNat_inj, mapping_toNat, show (8 : U32).toNat = 8 from rfl]
  omega

end Ps2Unpacker
