import Ps2Unpacker.Framework.Scan
import Ps2Unpacker.Machine.Elf
import Ps2Unpacker.Machine.InterTables

/-!
# The program

`main` of `ps2-unpacker.c`: the options, the loader, the emulation, the search for the range to
dump, and the dump.

`getopt_long` and the files are the library's: `main` gets the options in the order and with the
values (`strtol`, a `long`) the library delivers them, the names that are left, and `Files`, which
says how the calls on files turn out. Every result `main` tests is there. What it does not test is
left out: a failing `strdup`, `malloc`, `fseek` or `fclose`; and so are the messages that only
report progress.
-/

namespace Ps2Unpacker

open CProg

/-! ### Options -/

/-- What `getopt_long` delivers. It is `help` for `--help`, and for `-h` if an argument follows: the
short option is declared with one, and alone it is `unknown`. -/
inductive Opt where
  | lo (value : Int)
  | hi (value : Int)
  | trace
  | align (value : Int)
  | help
  | ep (value : Int)
  | raw (value : Int)
  | norun
  | unknown (c : Char)

/-- The variables of `main` the options set, with their defaults. -/
structure Options where
  lo : U32 := 0
  hi : U32 := 0
  align : U32 := 16
  ep : U32 := 0
  raw : U32 := 0
  norun : Bool := false

/-- The body of the `getopt_long` loop. -/
def Options.set (opts : Options) : Opt → M Options
  | .lo value => pure { opts with lo := BitVec.ofInt 32 value }
  | .hi value => pure { opts with hi := BitVec.ofInt 32 value }
  | .trace => do
    Prog.modify fun s => { s with trace := true }
    pure opts
  | .align value => pure { opts with align := BitVec.ofInt 32 value }
  -- This exit has status 0, the others have -1.
  | .help => do
    printf .usage
    Prog.exit 0
  | .ep value => pure { opts with ep := BitVec.ofInt 32 value }
  | .raw value => pure { opts with raw := BitVec.ofInt 32 value }
  | .norun => pure { opts with norun := true }
  | .unknown c => do
    printf (.unknownOption c)
    printf .usage
    Prog.exit (-1)

def getOptions : List Opt → Options → M Options
  | [], opts => pure opts
  | opt :: rest, opts => do getOptions rest (← opts.set opt)

/-! ### Loading -/

/-- `size`, an `u32`. -/
def fileSize (file : List U8) : U32 := BitVec.ofNat 32 file.length

/-- The bytes `fread` puts into the buffer. -/
def fileBytes (file : List U8) : List U8 := file.take (fileSize file).toNat

/-- `mem_init`. -/
def memInit : M Unit := Prog.modify fun s => { s with memory := fun _ => 0, tags := fun _ => 0 }

/-- The initial program counter. With `-r` no header is read, and `eh` has no value. -/
def initialPc (opts : Options) (bytes : List U8) : Option U32 :=
  if opts.ep ≠ 0 then some opts.ep
  else if opts.raw ≠ 0 then none
  else ehEntry bytes

/-- With `-r` the file is one section, else it is an ELF file. -/
def loadImage (opts : Options) (file : List U8) : M Unit :=
  if opts.raw ≠ 0 then loadSection opts.raw (fileBytes file) 0 (fileSize file)
  else loadElf (fileBytes file)

/-- From `mem_init` to the start of the emulation. -/
def load (opts : Options) (file : List U8) : M Unit := do
  memInit
  loadImage opts file
  let pc ← Prog.require (initialPc opts (fileBytes file))
  -- Everything but `pc` is cleared.
  modifyCpu fun _ => CpuRegisters.zeroed pc

/-! ### Emulation -/

/-- `while (!bounce_pc) execI();`, at most `turns` times. -/
def emulate (host : Host) (depth levels : Nat) : Nat → M Unit
  | 0 => Prog.diverge
  | turns + 1 => do
    -- Zero stands for "not found yet".
    if (← Prog.get).bouncePc = 0 then
      execI host (dumpasm depth) levels
      emulate host depth levels turns
    else pure ()

/-! ### The range -/

/-- The two loops for `lo_base`. -/
def scanLo (fuel : Nat) (bouncePc : U32) : M U32 := do
  -- `lo` is the first written byte of the block, then the first byte that is not zero.
  let lo ← Prog.scan (fun s lo => hasWrite s (lo - 1)) (fun lo => lo - 1) fuel bouncePc
  Prog.scan isZero (fun lo => lo + 1) fuel lo

/-- The alignment of `lo_base`. -/
def alignLo (align lo : U32) : U32 :=
  -- Meant for a power of two: one unit up, cut to a multiple, one unit down.
  if lo &&& (align - 1) ≠ 0 then ((lo + align) &&& -align) - align else lo

/-- The two loops for `hi_base`. -/
def scanHi (fuel : Nat) (bouncePc : U32) : M U32 := do
  -- `hi` is the last written byte itself, and from here on the end of the range.
  let hi ← Prog.scan (fun s hi => hasWrite s (hi + 1)) (fun hi => hi + 1) fuel bouncePc
  Prog.scan (fun s hi => isZero s (hi - 1)) (fun hi => hi - 1) fuel hi

/-- `lo_base` after the emulation. -/
def findLo (opts : Options) (fuel : Nat) (bouncePc : U32) : M U32 :=
  -- Zero stands for an option that is not given.
  if opts.lo = 0 then do
    let lo ← scanLo fuel bouncePc
    pure (alignLo opts.align lo)
  else pure opts.lo

/-- `hi_base` after the emulation. -/
def findHi (opts : Options) (fuel : Nat) (bouncePc : U32) : M U32 :=
  if opts.hi = 0 then scanHi fuel bouncePc else pure opts.hi

/-- `lo_base` and `hi_base` after the emulation. -/
def findRange (opts : Options) (fuel : Nat) : M (U32 × U32) := do
  let s ← Prog.get
  let lo ← findLo opts fuel s.bouncePc
  let hi ← findHi opts fuel s.bouncePc
  pure (lo, hi)

/-- `lo_base` and `hi_base` with `-n`. -/
def norunRange (opts : Options) (size : U32) : M (U32 × U32) := do
  -- With `-n` the entry point is that of `-e`, or zero.
  Prog.modify fun s => { s with bouncePc := opts.ep }
  pure (if opts.lo = 0 then opts.raw else opts.lo, if opts.hi = 0 then opts.raw + size else opts.hi)

/-! ### Files -/

/-- The three calls of `fwrite`, by the variable they write from. -/
inductive OutputPart where
  | weh
  | weph
  | bytes

/-- How the library's calls on the file of a name turn out. -/
structure Files where
  /-- `fopen(name, "rb")`: the content of the file, if it opens. -/
  fopenRead : String → Option (List U8)
  /-- `fread` delivers as many bytes as it is asked for. -/
  fread : String → Bool
  /-- `fopen(name, "wb")` opens the file. -/
  fopenWrite : String → Bool
  /-- `fwrite` writes as many bytes as it is asked to. -/
  fwrite : String → OutputPart → Bool

/-- `if (!c) { printf(msg); exit(-1); }` -/
def check (c : Bool) (msg : Message) : M Unit :=
  if c then pure ()
  else do
    printf msg
    Prog.exit (-1)

/-- The content of the input file, read into the buffer. -/
def readElf (files : Files) (elfname : String) : M (List U8) :=
  match files.fopenRead elfname with
  | none => do
    printf (.openingOutputFile elfname)
    Prog.exit (-1)
  | some file => do
    -- Asked for no bytes, `fread` delivers as many.
    check (fileSize file = 0 || files.fread elfname) .readingElf
    pure file

/-- From `fopen` of the output file on. -/
def writeElf (files : Files) (outname : String) (lo hi : U32) : M (List U8) := do
  check (files.fopenWrite outname) (.openingOutputFile outname)
  check (files.fwrite outname .weh) .writingElfHeader
  check (files.fwrite outname .weph) .writingProgramHeader
  -- The bytes are copied before `fwrite` is called for them.
  let out ← dump lo hi
  check (hi - lo = 0 || files.fwrite outname .bytes) .dumpingSection
  pure out

/-- `main`, with the bytes of the output file as its result. `fuel` bounds every loop and recursion.
-/
def main (host : Host) (fuel : Nat) (args : List Opt) (names : List String) (files : Files) :
    M (List U8) := do
  let opts ← getOptions args {}
  match names with
  | [elfname, outname] =>
    let file ← readElf files elfname
    load opts file
    -- `-n` takes the range from the options and the entry point from `-e`.
    let (lo, hi) ← if opts.norun then norunRange opts (fileSize file) else do
      emulate host fuel fuel fuel
      findRange opts fuel
    writeElf files outname lo hi
  | _ =>
    printf (.filesSpecified names.length)
    Prog.exit (-1)

/-- What `main` does with an input file that is read. -/
def unpackFile (host : Host) (fuel : Nat) (files : Files) (outname : String) (opts : Options)
    (file : List U8) : M (List U8) := do
  load opts file
  if opts.norun then
    let range ← norunRange opts (fileSize file)
    writeElf files outname range.1 range.2
  else
    emulate host fuel fuel fuel
    let range ← findRange opts fuel
    writeElf files outname range.1 range.2

/-- What `main` does once the options are known. -/
def unpack (host : Host) (fuel : Nat) (names : List String) (files : Files) (opts : Options) :
    M (List U8) :=
  match names with
  | [elfname, outname] => do
    let file ← readElf files elfname
    unpackFile host fuel files outname opts file
  | _ => do
    printf (.filesSpecified names.length)
    Prog.exit (-1)

/-- `main`: the options first, then the conversion. -/
theorem main_eq (host : Host) (fuel : Nat) (args : List Opt) (names : List String)
    (files : Files) :
    main host fuel args names files = getOptions args {} >>= unpack host fuel names files := rfl

/-- Files with the same content under every name, on which every call succeeds. -/
def Files.holding (content : List U8) : Files where
  fopenRead _ := some content
  fread _ := true
  fopenWrite _ := true
  fwrite _ _ := true

/-- The globals when the program starts. -/
def Machine.static : Machine := Machine.start (fun _ => 0) 0 false

end Ps2Unpacker
