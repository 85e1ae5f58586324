import Ps2Unpacker.Framework.LittleEndian
import Ps2Unpacker.Machine.Memory

/-!
# Reading and writing ELF files

The structures `elf_header_t` and `elf_pheader_t` of `ps2-unpacker.c`, the loops of `main` over them
and the two copies `load_section` and `dump_section` of `memory.c`.

A file is a list of bytes. `main` reads the members of a header through a pointer into its buffer
and checks no bound: a member outside the buffer, a copy that leaves the buffer and a copy that
leaves `memory` are undefined. A copy of no bytes touches nothing. On a 64-bit host a pointer is the
buffer plus an integer that does not wrap; the product `phentsize * i` has type `int`.
-/

namespace Ps2Unpacker

open CProg Lanes

/-! ### Headers -/

def ELF_MAGIC : U32 := 0x464c457f

def PT_LOAD : U32 := 1
def PF_X : U32 := 1
def PF_W : U32 := 2
def PF_R : U32 := 4

/-- `elf_header_t`. -/
structure ElfHeader where
  ident : Vector U8 16
  type : U16
  machine : U16
  version : U32
  entry : U32
  phoff : U32
  shoff : U32
  flags : U32
  ehsize : U16
  phentsize : U16
  phnum : U16
  shentsize : U16
  shnum : U16
  shstrndx : U16

/-- `elf_pheader_t`. -/
structure ElfPheader where
  type : U32
  offset : U32
  vaddr : U32
  paddr : U32
  filesz : U32
  memsz : U32
  flags : U32
  align : U32

/-- The structure as `fwrite` writes it: no padding, little-endian. -/
def ElfHeader.bytes (h : ElfHeader) : List U8 :=
  h.ident.toList ++ (toBytes 2 h.type ++ (toBytes 2 h.machine ++ (toBytes 4 h.version ++
    (toBytes 4 h.entry ++ (toBytes 4 h.phoff ++ (toBytes 4 h.shoff ++ (toBytes 4 h.flags ++
    (toBytes 2 h.ehsize ++ (toBytes 2 h.phentsize ++ (toBytes 2 h.phnum ++
    (toBytes 2 h.shentsize ++ (toBytes 2 h.shnum ++ toBytes 2 h.shstrndx))))))))))))

def ElfPheader.bytes (h : ElfPheader) : List U8 :=
  toBytes 4 h.type ++ (toBytes 4 h.offset ++ (toBytes 4 h.vaddr ++ (toBytes 4 h.paddr ++
    (toBytes 4 h.filesz ++ (toBytes 4 h.memsz ++ (toBytes 4 h.flags ++ toBytes 4 h.align))))))

/-- `sizeof(elf_header_t)`. -/
abbrev ehSize : Nat := 52

/-- `sizeof(elf_pheader_t)`. -/
abbrev ephSize : Nat := 32

/-! ### Members read through a pointer -/

/-- `eh->entry`. -/
def ehEntry (bytes : List U8) : Option U32 := peek 32 bytes 24

/-- `eh->phoff`. -/
def ehPhoff (bytes : List U8) : Option U32 := peek 32 bytes 28

/-- `eh->phentsize`. -/
def ehPhentsize (bytes : List U8) : Option U16 := peek 16 bytes 42

/-- `eh->phnum`. -/
def ehPhnum (bytes : List U8) : Option U16 := peek 16 bytes 44

/-- `eph->type`, for the pointer `bytes + eph`. -/
def ephType (bytes : List U8) (eph : Int) : Option U32 := peek 32 bytes eph

/-- `eph->offset`. -/
def ephOffset (bytes : List U8) (eph : Int) : Option U32 := peek 32 bytes (eph + 4)

/-- `eph->vaddr`. -/
def ephVaddr (bytes : List U8) (eph : Int) : Option U32 := peek 32 bytes (eph + 8)

/-- `eph->filesz`. -/
def ephFilesz (bytes : List U8) (eph : Int) : Option U32 := peek 32 bytes (eph + 16)

/-- `eh->phoff + eh->phentsize * i`: an offset, and a product of two `int`s. -/
def ephPointer (phoff : U32) (phentsize : U16) (i : Nat) : Int :=
  phoff.toNat + (phentsize.setWidth 32 * BitVec.ofNat 32 i : U32).toInt

/-! ### Copies -/

/-- Memory with `size` bytes of the buffer from `offset` on copied to `mem`. -/
def copyIn (memory : Fin MEMSIZE → U8) (mem : Nat) (bytes : List U8) (offset size : Nat) :
    Fin MEMSIZE → U8 := fun m =>
  if mem ≤ m.val ∧ m.val < mem + size then bytes[offset + (m.val - mem)]?.getD 0 else memory m

/-- `load_section(mem, bytes + offset, size)`. -/
def loadSection (mem : U32) (bytes : List U8) (offset : Nat) (size : U32) : M Unit :=
  Prog.modify? fun s =>
    -- A `memcpy` of no bytes reads and writes nothing, wherever the two pointers lead.
    if size = 0 then some s
    else if offset + size.toNat ≤ bytes.length ∧ mem.toNat + size.toNat ≤ MEMSIZE then
      -- The file may be shorter than its headers say: then the copy is undefined.
      some { s with memory := copyIn s.memory mem.toNat bytes offset size.toNat }
    else none

/-- `dump_section(mem, bytes, size)`, with the buffer as its result. -/
def dumpSection (mem size : U32) : M (List U8) := do
  let s ← Prog.get
  -- With nothing to copy the range is not looked at.
  if size = 0 then pure []
  else if mem.toNat + size.toNat ≤ MEMSIZE then
    pure ((List.range size.toNat).map fun k =>
      if h : mem.toNat + k < MEMSIZE then s.memory ⟨mem.toNat + k, h⟩ else 0)
  else Prog.require none

/-! ### The loader -/

/-- One turn of the loop over the program headers, for the one at `bytes + eph`. -/
def loadSegment (bytes : List U8) (eph : Int) : M Unit := do
  let type ← Prog.require (ephType bytes eph)
  if type = PT_LOAD then do
    let vaddr ← Prog.require (ephVaddr bytes eph)
    let offset ← Prog.require (ephOffset bytes eph)
    let filesz ← Prog.require (ephFilesz bytes eph)
    -- `memsz` is not read: what the file does not hold stays as `mem_init` left it.
    loadSection vaddr bytes offset.toNat filesz
  else pure ()

/-- The loop: `n` turns are left, the next one is turn `i`, for the program header at `bytes + eph`.
-/
def loadSegments (bytes : List U8) : Nat → Nat → Int → M Unit
  | 0, _, _ => pure ()
  | n + 1, i, eph => do
    loadSegment bytes eph
    -- The pointer for the next turn is computed after each turn, also after the last one.
    let phoff ← Prog.require (ehPhoff bytes)
    let phentsize ← Prog.require (ehPhentsize bytes)
    loadSegments bytes n (i + 1) (ephPointer phoff phentsize (i + 1))

/-- The branch of `main` that reads an ELF file. -/
def loadElf (bytes : List U8) : M Unit := do
  let magic ← Prog.require (peek 32 bytes 0)
  -- The magic number is all that is checked of a file.
  if magic ≠ ELF_MAGIC then
    printf (.notElf magic)
    Prog.exit (-1)
  else
    let phoff ← Prog.require (ehPhoff bytes)
    let phnum ← Prog.require (ehPhnum bytes)
    loadSegments bytes phnum.toNat 0 phoff.toNat

/-! ### The dump -/

def ident : Vector U8 16 :=
  #v[0x7F, 0x45, 0x4C, 0x46, 0x01, 0x01, 0x01, 0x00,
    0x00, 0x00, 0x00, 0x00, 0x00, 0x00, 0x00, 0x00]

/-- `weh`. -/
def dumpHeader (bouncePc : U32) : ElfHeader where
  ident := ident
  type := 2
  machine := 8
  version := 1
  entry := bouncePc
  -- The one program header follows the header.
  phoff := BitVec.ofNat 32 ehSize
  shoff := 0
  flags := 0
  ehsize := BitVec.ofNat 16 ehSize
  phentsize := BitVec.ofNat 16 ephSize
  phnum := 1
  shentsize := 0
  shnum := 0
  shstrndx := 0

/-- `weph`. -/
def dumpPheader (lo hi : U32) : ElfPheader where
  type := PT_LOAD
  offset := 0x1000
  vaddr := lo
  paddr := lo
  filesz := hi - lo
  -- As long in memory as in the file.
  memsz := hi - lo
  flags := PF_R ||| PF_W ||| PF_X
  align := 0x1000

/-- `fseek(out, 0x1000, SEEK_SET)` and `fwrite` of `data` after the bytes `file`: the gap reads as
zero, and without data the file ends where it ended. -/
def writeAt (file : List U8) (offset : Nat) (data : List U8) : List U8 :=
  if data = [] then file else file ++ List.replicate (offset - file.length) 0 ++ data

/-- What `main` writes into the output file. -/
def dump (lo hi : U32) : M (List U8) := do
  let s ← Prog.get
  let data ← dumpSection lo (hi - lo)
  pure (writeAt ((dumpHeader s.bouncePc).bytes ++ (dumpPheader lo hi).bytes) 0x1000 data)

end Ps2Unpacker
