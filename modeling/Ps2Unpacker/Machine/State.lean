import Ps2Unpacker.Framework.Outcome
import Ps2Unpacker.Machine.Registers

/-!
# The state of the unpacker

The globals of `memory.c`, `Interpreter.c` and `ps2-unpacker.c` that a run reads or writes, in one
record `Machine`, with a history variable `log`: what was printed, which instructions were
dispatched and which bytes were stored, newest first. No function of the program reads the log; the
properties of runs are stated over it.

`Host` is what the program takes from the machine it is compiled for: where the linker placed the
register file, and what lies on the stack behind a parameter. Plain `char` is signed, `long` has 64
bits and the byte order is little-endian, as with `gcc` on the platform of the `Makefile`.

One convention holds for what C leaves undefined. Signed addition, subtraction, multiplication and
negation wrap, as the machine code for them does. A quotient that is no word, a shift by the width
or more, an index outside of an array and a pointer outside of a buffer have no value: the run goes
wrong. Beside the two handlers that take absolute values stand `Handler.PABSW?` and
`Handler.PABSH?`, which read the library's `abs` by the letter of C; no run uses them.
-/

namespace Ps2Unpacker

open CProg

/-- `MEMSIZE`, 32 MiB. -/
abbrev MEMSIZE : Nat := 32 * 1024 * 1024

/-- The size in decimal, for arithmetic. -/
theorem MEMSIZE_eq : MEMSIZE = 33554432 := rfl

/-- Which of `memRead8` and `memWrite8` reports. -/
inductive Access where
  | reading
  | writing
  deriving DecidableEq

/-- Everything `printf` is called with while the emulation runs, and the errors of `main`. -/
inductive Message where
  | usage
  | unknownOption (c : Char)
  | filesSpecified (n : Int)
  /-- Also what `main` prints about an input file that does not open. -/
  | openingOutputFile (name : String)
  | readingElf
  | notElf (magic : U32)
  | writingElfHeader
  | writingProgramHeader
  | dumpingSection
  | stillRunning (pc cycle : U32)
  | trace (code pc : U32)
  | disassembly (code pc : U32)
  | execHitWritten (tar : U32)
  | unknownOpcode (code pc : U32)
  | unknownMMI
  | cop0 (code pc : U32)
  | sleepThread (pc : U32)
  | rfu060 (gp stack stackSize args root : U32)
  | rfu061 (heapStart heapSize : U32)
  | endOfHeap (v0 : U32)
  | execPS2 (pc a0 : U32)
  | unknownSyscall (call : U8) (pc : U32)
  | break (code pc : U32)
  | unknownMapping (access : Access) (mapping mem : U32)
  | outOfRange (access : Access) (mem pc : U32)

/-- One entry of the history. -/
inductive Event where
  /-- `printf` was called. -/
  | printed (msg : Message)
  /-- The instruction `r.code`, fetched from `r.pc - 4`, is dispatched with the registers `r`. -/
  | exec (r : CpuRegisters)
  /-- `memWrite8` stored `value`; `mem` is the address it was called with. -/
  | store (mem : U32) (value : U8)

structure Machine where
  cpu : CpuRegisters
  memory : Fin MEMSIZE → U8
  /-- Bit 0 marks a byte that was read, bit 1 a byte that was written. -/
  tags : Fin MEMSIZE → U8
  branch2 : Int
  /-- The target of the last taken branch; an `unsigned long` that only ever holds an address. -/
  branchPC : U64
  /-- The entry point found, or zero. -/
  bouncePc : U32
  gp : U32
  stack : U32
  stackSize : U32
  args : U32
  root : U32
  heapStart : U32
  heapSize : U32
  trace : Bool
  log : List Event

/-- The state in which the emulation starts: memory as the loader left it, no tags, registers zero
except for `pc`. -/
def Machine.start (memory : Fin MEMSIZE → U8) (pc : U32) (trace : Bool) : Machine where
  cpu := CpuRegisters.zeroed pc
  memory := memory
  tags _ := 0
  branch2 := 0
  branchPC := 0
  bouncePc := 0
  gp := 0
  stack := 0
  stackSize := 0
  args := 0
  root := 0
  heapStart := 0
  heapSize := 0
  trace := trace
  log := []

/-- What the program sees of the machine it runs on. -/
structure Host where
  /-- The address of `cpuRegs.GPR`. -/
  gprAddress : U64
  /-- The eight bytes behind the parameter of `memWrite128` on its stack frame. -/
  behindValue : Machine → U64

/-- A C function over the globals. -/
abbrev M (α : Type) : Type := Prog Machine α

/-- The current registers. -/
def cpu : M CpuRegisters := fun s => .ok s.cpu s

def modifyCpu (f : CpuRegisters → CpuRegisters) : M Unit :=
  Prog.modify fun s => { s with cpu := f s.cpu }

def modifyCpu? (f : CpuRegisters → Option CpuRegisters) : M Unit :=
  Prog.modify? fun s => (f s.cpu).map fun r => { s with cpu := r }

/-- Append to the history. -/
def emit (e : Event) : M Unit := Prog.modify fun s => { s with log := e :: s.log }

def printf (msg : Message) : M Unit := emit (.printed msg)

/-- `if (c) printf(msg);` -/
def printfIf (c : Bool) (msg : Message) : M Unit := if c then printf msg else pure ()

@[simp] theorem cpu_bind {β : Type} (f : CpuRegisters → M β) (s : Machine) :
    (cpu >>= f) s = f s.cpu s := rfl

@[simp] theorem modifyCpu_bind {β : Type} (f : CpuRegisters → CpuRegisters) (g : Unit → M β)
    (s : Machine) : (modifyCpu f >>= g) s = g () { s with cpu := f s.cpu } := rfl

@[simp] theorem printf_apply (msg : Message) (s : Machine) :
    printf msg s = .ok () { s with log := .printed msg :: s.log } := rfl

/-- A partial update of the registers returns where it is defined. -/
theorem modifyCpu?_eq_ok {f : CpuRegisters → Option CpuRegisters} {s s' : Machine} {u : Unit} :
    modifyCpu? f s = .ok u s' ↔ ∃ r, f s.cpu = some r ∧ s' = { s with cpu := r } := by
  unfold modifyCpu?
  rw [Prog.modify?_eq_ok, Option.map_eq_some_iff]
  simp only [eq_comm]

end Ps2Unpacker
