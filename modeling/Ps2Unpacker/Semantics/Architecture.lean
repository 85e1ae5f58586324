import Ps2Unpacker.Framework.DelaySlot
import Ps2Unpacker.Framework.View
import Ps2Unpacker.Semantics.Footprint
import Ps2Unpacker.Semantics.NestedCalls
import Ps2Unpacker.Semantics.PartialStores

/-!
# The machine that is emulated

The processor and its memory, without the interpreter: registers, memory, the bytes the program has
stored to, and the entry point of the unpacked program once it is known. A memory instruction moves
little-endian values between a register and the bytes its addresses denote; a branch takes effect
after its delay slot (`Delayed.Sequencer`). Nothing is said about tags of reads, about messages, or
about how a fatal error is reported: what is not supported is not defined. That is also the case of
`SQ`, of a branch to an address past the end of memory, and of a branch in a delay slot.

* `Arch`, `Arch.exec`, `Arch.sequencer`: the machine.
* `Op.run_seenAs`: seen as such a machine, the handlers of the interpreter do what the instructions
  of the machine do.
-/

namespace Ps2Unpacker

open CProg Lanes Prog

/-- The processor, its memory, and what the unpacker wants to know. -/
structure Arch where
  cpu : CpuRegisters
  memory : Fin MEMSIZE → U8
  /-- The bytes the program has stored to. -/
  written : Fin MEMSIZE → Bool
  /-- The entry point of the unpacked program, or zero. -/
  entry : U32

/-- What is seen of the unpacker. -/
def Machine.arch (s : Machine) : Arch :=
  ⟨s.cpu, s.memory, fun m => decide (s.Written m), s.bouncePc⟩

/-- An instruction of the machine. -/
abbrev ArchM (α : Type) : Type := StateT Arch Option α

/-! ### Memory -/

/-- All `n` addresses from `mem` on denote bytes. -/
def InMemory (mem : U32) (n : Nat) : Prop := ∀ j, j < n → Accepted (mem + BitVec.ofNat 32 j)

instance (mem : U32) (n : Nat) : Decidable (InMemory mem n) :=
  inferInstanceAs (Decidable (∀ j, j < n → _))

/-- The byte at `mem + j`, for an address that denotes one. -/
def cellAt (mem : U32) (j : Nat) : Fin MEMSIZE :=
  (foldAddr (mem + BitVec.ofNat 32 j)).getD ⟨0, by decide⟩

namespace Arch

def regs : ArchM CpuRegisters := fun a => some (a.cpu, a)

/-- A computation on registers. -/
def compute (f : CpuRegisters → Option CpuRegisters) : ArchM Unit := fun a =>
  ((f a.cpu).map fun r => { a with cpu := r }).map fun a' => ((), a')

def update (f : CpuRegisters → CpuRegisters) : ArchM Unit := fun a =>
  some ((), { a with cpu := f a.cpu })

/-- The value of `n` bytes. -/
def readBytes {w : Nat} (mem : U32) (n : Nat) : ArchM (BitVec w) := fun a =>
  if InMemory mem n then some (ofBytes w ((List.range n).map fun j => a.memory (cellAt mem j)), a)
  else none

/-- The machine after a store of the `n` bytes of a value. -/
def put {w : Nat} (mem : U32) (value : BitVec w) (n : Nat) (a : Arch) : Arch :=
  { a with
    memory := fun m =>
      match (List.range n).find? fun j => cellAt mem j = m with
      | some j => lane 8 j value
      | none => a.memory m
    written := fun m => a.written m || (List.range n).any fun j => cellAt mem j = m }

def writeBytes {w : Nat} (mem : U32) (value : BitVec w) (n : Nat) : ArchM Unit := fun a =>
  if InMemory mem n then some ((), a.put mem value n) else none

/-! ### Instructions -/

/-- A load of `n` bytes into `rt`. -/
def load {w : Nat} (n : Nat) (ext : BitVec w → U64) : ArchM Unit := do
  let r ← regs
  let v ← readBytes (Handler.address r) n
  update fun r => r.setRt (ext v)

/-- A load that merges the block at `block` into `rt`. -/
def loadPart {w : Nat} (n : Nat) (block : CpuRegisters → U32)
    (merge : CpuRegisters → BitVec w → CpuRegisters → U64) : ArchM Unit := do
  let r ← regs
  if r.rt = 0 then pure ()
  else
    let v ← readBytes (block r) n
    update fun r' => r'.setLane r'.rt 0 (merge r v r')

/-- A store of the `n` low bytes of `rt`. -/
def store {w : Nat} (n : Nat) (value : CpuRegisters → BitVec w) : ArchM Unit := do
  let r ← regs
  writeBytes (Handler.address r) (value r) n

/-- A store that merges `rt` into the block at `block`. -/
def storePart {w : Nat} (n : Nat) (block : CpuRegisters → U32)
    (merge : CpuRegisters → BitVec w → BitVec w) : ArchM Unit := do
  let r ← regs
  let v ← readBytes (block r) n
  writeBytes (block r) (merge r v) n

end Arch

open Arch

/-- The word of memory around the address. -/
def wordBlock (r : CpuRegisters) : U32 := Handler.address r &&& ~~~3

/-- The doubleword of memory around it. -/
def doublewordBlock (r : CpuRegisters) : U32 := Handler.address r &&& ~~~7

open Handler in
/-- Loads and stores. -/
def MemOp.effect : MemOp → ArchM Unit
  | LB => Arch.load 1 fun v : U8 => v.signExtend 64
  | LBU => Arch.load 1 fun v : U8 => v.setWidth 64
  | LH => Arch.load 2 fun v : U16 => v.signExtend 64
  | LHU => Arch.load 2 fun v : U16 => v.setWidth 64
  | LW => Arch.load 4 fun v : U32 => v.signExtend 64
  | LWU => Arch.load 4 fun v : U32 => v.setWidth 64
  | LD => Arch.load 8 fun v : U64 => v
  | LWL => loadPart 4 wordBlock fun r mem r' =>
    ((UL 0 (r'.GPR r'.rt) &&& LWL_MASK.get (low2 (address r))) |||
      (mem <<< LWL_SHIFT.get (low2 (address r)))).setWidth 64
  | LWR => loadPart 4 wordBlock fun r mem r' =>
    ((UL 0 (r'.GPR r'.rt) &&& LWR_MASK.get (low2 (address r))) |||
      (mem >>> LWR_SHIFT.get (low2 (address r)))).setWidth 64
  | LDL => loadPart 8 doublewordBlock fun r mem r' =>
    (UD 0 (r'.GPR r'.rt) &&& LDL_MASK.get (low3 (address r))) |||
      (mem <<< LDL_SHIFT.get (low3 (address r)))
  | LDR => loadPart 8 doublewordBlock fun r mem r' =>
    (UD 0 (r'.GPR r'.rt) &&& LDR_MASK.get (low3 (address r))) |||
      (mem >>> LDR_SHIFT.get (low3 (address r)))
  | LQ => do
    let r ← regs
    let v ← readBytes (address r &&& ~~~0xf) 16
    update fun r => if r.rt = 0 then r else r.setGPR r.rt v
  | SB => store 1 fun r => UC 0 (r.GPR r.rt)
  | SH => store 2 fun r => US 0 (r.GPR r.rt)
  | SW => store 4 fun r => UL 0 (r.GPR r.rt)
  | SD => store 8 fun r => UD 0 (r.GPR r.rt)
  | SWL => storePart 4 wordBlock fun r mem =>
    (UL 0 (r.GPR r.rt) >>> SWL_SHIFT.get (low2 (address r))) |||
      (mem &&& SWL_MASK.get (low2 (address r)))
  | SWR => storePart 4 wordBlock fun r mem =>
    (UL 0 (r.GPR r.rt) <<< SWR_SHIFT.get (low2 (address r))) |||
      (mem &&& SWR_MASK.get (low2 (address r)))
  | SDL => storePart 8 doublewordBlock fun r mem =>
    (UD 0 (r.GPR r.rt) >>> SDL_SHIFT.get (low3 (address r))) |||
      (mem &&& SDL_MASK.get (low3 (address r)))
  | SDR => storePart 8 doublewordBlock fun r mem =>
    (UD 0 (r.GPR r.rt) <<< SDR_SHIFT.get (low3 (address r))) |||
      (mem &&& SDR_MASK.get (low3 (address r)))
  -- The interpreter stores something else.
  | SQ => fun _ => none

/-- The system calls that are supported. -/
def syscallEffect : ArchM Unit := do
  let r ← regs
  let call := Handler.callNumber r
  if call = 0x3c ∨ call = 0x3d ∨ call = 0x64 then pure ()
  else if call = 0x3e then update fun r => r.setLane Handler.v0 0 (0x02000000 : U32)
  else if call = 0x07 then fun a => some ((), { a with entry := UL 0 (r.GPR Handler.a0) })
  else fun _ => none

/-- The instructions of coprocessor 0 that are supported. -/
def cop0Effect : ArchM Unit := do
  let r ← regs
  if r.code = 0x40106000 then update fun r => r.setLane Handler.s0 0 (0 : U32)
  else if r.code = 0x42000038 ∨ r.code = 0x42000039 then pure ()
  else fun _ => none

/-- Every instruction but the branches. -/
def Op.effect : Op → ArchM Unit
  | register o => compute o.run
  | memory o => o.effect
  | COP0 => cop0Effect
  | SYSCALL => syscallEffect
  | _ => fun _ => none

/-! ### Control -/

namespace Arch

open Delayed (Control)

/-- The program has stored to the byte at `mem`. -/
def wrote (a : Arch) (mem : U32) : Bool :=
  if h : mem.toNat < MEMSIZE then a.written ⟨mem.toNat, h⟩ else false

/-- A branch that is dispatched with the registers `r`. -/
def branch (o : BranchOp) (r : CpuRegisters) (a : Arch) : Option (Arch × Control U32) :=
  -- In a delay slot there must be none.
  if r.branch ≠ 0 then none
  else if o.taken r then
    if (o.dest r).toNat < MEMSIZE then some ({ a with cpu := o.slot r }, .goto (o.dest r)) else none
  else some ({ a with cpu := o.link r }, if o.likely then .annul else .next)

/-- Execute the instruction at the program counter. -/
def exec (a : Arch) : Option (Arch × Control U32) := do
  let code ← fetchWord a.memory a.cpu.pc
  let r := a.cpu.dispatch code
  match decode code with
  | .branch o => a.branch o r
  | o => (o.effect { a with cpu := r }).map fun p => (p.2, .next)

/-- Pass over an instruction. -/
def skip (a : Arch) : Arch := { a with cpu := { a.cpu with pc := a.cpu.pc + 4 } }

/-- Leave the delay slot of a branch to `target`. A branch to a byte that the program has stored to
is where the unpacked program starts. -/
def jump (target : U32) (a : Arch) : Arch :=
  { a with
    cpu := { a.cpu with branch := 0, pc := target }
    entry := if a.wrote target then target else a.entry }

/-- **The machine.** -/
def sequencer : Delayed.Sequencer Arch U32 := ⟨exec, skip, jump⟩

end Arch

/-! ### The handlers, seen as instructions of the machine -/

section Accessors

variable {report : U32 → M Unit}

/-- Where all bytes are in memory, `cellAt` gives them. -/
theorem denotes_cellAt {mem : U32} {n : Nat} (h : InMemory mem n) : Denotes mem n (cellAt mem) := by
  intro j hj
  obtain ⟨m, hm⟩ := Option.isSome_iff_exists.mp (h j hj)
  unfold cellAt
  rw [hm]
  rfl

/-- A read changes nothing that the architecture has. -/
theorem ReadOnly.arch {s s' : Machine} (h : ReadOnly s s') : s'.arch = s.arch := by
  have hwritten : s'.Written = s.Written := by
    funext m
    have hiff := h.writes m
    simp only [List.not_mem_nil, false_and, exists_false, or_false] at hiff
    exact propext hiff
  unfold Machine.arch
  rw [h.cpu, h.memory]
  congr 1
  · funext m
    exact decide_eq_decide.mpr (by rw [hwritten])
  · rw [h.only_tags]

/-- The register file, seen. -/
theorem seenAs_cpu : SeenAs Machine.arch cpu regs := by
  intro s r a
  change some (s.cpu, s.arch) = some (r, a) ↔ _
  constructor
  · intro h
    cases h
    exact ⟨s, rfl, rfl⟩
  · rintro ⟨s', h, rfl⟩
    cases h
    rfl

theorem seenAs_modifyCpu (f : CpuRegisters → CpuRegisters) :
    SeenAs Machine.arch (modifyCpu f) (update f) :=
  seenAs_modify (f := fun a : Arch => { a with cpu := f a.cpu }) fun _ => rfl

/-- A partial one, seen. -/
theorem seenAs_modifyCpu? (f : CpuRegisters → Option CpuRegisters) :
    SeenAs Machine.arch (modifyCpu? f) (compute f) := by
  refine seenAs_modify? (f := fun a : Arch => (f a.cpu).map fun r => { a with cpu := r })
    fun s => ?_
  change (f s.cpu).map _ = ((f s.cpu).map _).map _
  rw [Option.map_map]
  rfl

/-- **A read** of several bytes. -/
theorem seenAs_readFrom {w n : Nat} (hw : w = 8 * n) (mem : U32) :
    SeenAs Machine.arch (readFrom report mem 0 n (0 : BitVec w)) (readBytes mem n) := by
  intro s v a
  by_cases h : InMemory mem n
  · -- Every byte is there, so the program reads it too.
    obtain ⟨s', hrun, hro⟩ := readFrom_denotes report (denotes_cellAt h) hw s
    unfold readBytes
    rw [if_pos h, hrun]
    constructor
    · intro heq
      cases heq
      exact ⟨s', rfl, hro.arch⟩
    · rintro ⟨_, heq, rfl⟩
      cases heq
      rw [hro.arch]
      rfl
  · unfold readBytes
    rw [if_neg h]
    constructor
    · exact nofun
    · rintro ⟨s', hrun, -⟩
      -- A read that returns has found every byte.
      have hload := (readFrom_ensures mem n 0 _ hrun).1
      exact absurd (fun j hj => loadFrom_accepted n hload j (Nat.zero_le j) (by omega)) h

/-- One byte is a read of one byte. -/
theorem memRead8_eq (mem : U32) : memRead8 report mem = readFrom report mem 0 1 (0 : U8) := by
  have hset : ∀ b : U8, setLane 0 b (0 : U8) = b := by decide
  have hmem : mem + BitVec.ofNat 32 0 = mem := BitVec.add_zero mem
  funext s
  unfold readFrom readFrom
  rw [hmem, Prog.bind_apply]
  cases memRead8 report mem s with
  | ok b s' =>
    change Outcome.ok b s' = .ok (setLane 0 b (0 : U8)) s'
    rw [hset]
  | exit | undefined | outOfFuel => rfl

/-- A byte is written by the loop for one byte. -/
theorem memWrite8_eq (mem : U32) (value : U8) :
    memWrite8 report mem value = writeFrom report mem value 0 1 := by
  have hlane : lane 8 0 value = value := by
    revert value
    decide
  have hmem : mem + BitVec.ofNat 32 0 = mem := BitVec.add_zero mem
  funext s
  unfold writeFrom writeFrom
  rw [hmem, hlane, Prog.bind_apply]
  cases memWrite8 report mem value s with
  | ok u s' => rfl
  | exit | undefined | outOfFuel => rfl

/-- What a write leaves is what is put there. -/
theorem put_of_denotes {w n : Nat} {mem : U32} {value : BitVec w} {s s' : Machine}
    (h : InMemory mem n) (hbody : Body s s') (hcpu : s'.cpu = s.cpu)
    (hwrites : Writes (span mem 0 n) s s')
    (hin : ∀ j, j < n → s'.memory (cellAt mem j) = lane 8 j value)
    (hout : ∀ m, (∀ j, j < n → cellAt mem j ≠ m) → s'.memory m = s.memory m) :
    s'.arch = s.arch.put mem value n := by
  unfold Machine.arch put
  rw [hcpu, hbody.bouncePc]
  congr 1
  · funext m
    dsimp only
    -- A byte of the range gets its lane, any other one stays.
    split
    · rename_i j hj
      -- The byte that is found is in the range.
      have hm := List.find?_some hj
      have hlt := List.mem_range.mp (List.mem_of_find?_eq_some hj)
      rw [← of_decide_eq_true hm]
      exact hin j hlt
    · rename_i hnone
      refine hout m fun j hj heq => ?_
      have hno := List.find?_eq_none.mp hnone j (List.mem_range.mpr hj)
      exact hno (decide_eq_true heq)
  · funext m
    -- The addresses written fold onto the cells of the range.
    have hfold : (∃ mem' ∈ span mem 0 n, foldAddr mem' = some m) ↔
        ∃ j, j < n ∧ cellAt mem j = m := by
      rw [exists_mem_span]
      refine exists_congr fun j => and_congr_right fun hj => ?_
      rw [denotes_cellAt h j hj, Option.some.injEq]
    rw [Bool.eq_iff_iff]
    simp only [decide_eq_true_eq, Bool.or_eq_true, List.any_eq_true, List.mem_range]
    rw [hwrites m, hfold]

/-- **A write** of several bytes. -/
theorem seenAs_writeFrom {w n : Nat} (hn : n ≤ MEMSIZE) (mem : U32) (value : BitVec w) :
    SeenAs Machine.arch (writeFrom report mem value 0 n) (writeBytes mem value n) := by
  intro s u a
  by_cases h : InMemory mem n
  · -- Every byte is there, so the program writes it too.
    obtain ⟨s', hrun, hin, hout⟩ := writeFrom_denotes report value (denotes_cellAt h) hn s
    have harch : s'.arch = s.arch.put mem value n :=
      put_of_denotes h (writeFrom_body report mem value n 0 hrun) (writeFrom_cpu _ _ n 0 hrun)
        (writeFrom_writes mem value n 0 hrun) hin hout
    unfold writeBytes
    rw [if_pos h, hrun]
    constructor
    · intro heq
      cases heq
      exact ⟨s', rfl, harch⟩
    · rintro ⟨_, heq, rfl⟩
      cases heq
      rw [harch]
  · unfold writeBytes
    rw [if_neg h]
    constructor
    · exact nofun
    · rintro ⟨s', hrun, -⟩
      -- A write that returns has found every byte.
      exact absurd (fun j hj => writeFrom_accepted _ _ _ 0 hrun j (Nat.zero_le j) (by omega)) h

theorem seenAs_memRead8 (mem : U32) :
    SeenAs Machine.arch (memRead8 report mem) (readBytes mem 1) := by
  rw [memRead8_eq]
  exact seenAs_readFrom rfl mem

theorem seenAs_memWrite8 (mem : U32) (value : U8) :
    SeenAs Machine.arch (memWrite8 report mem value) (writeBytes mem value 1) := by
  rw [memWrite8_eq]
  exact seenAs_writeFrom (by decide) mem value

end Accessors

/-! ### Loads and stores -/

section Handlers

variable (report : U32 → M Unit)

/-- A load that extends the value it read, from an address in either way of writing it. -/
theorem load_seenAs {w n : Nat} {addr : CpuRegisters → U32} {program : U32 → M (BitVec w)}
    {ext : BitVec w → U64} (haddr : ∀ r, addr r = Handler.address r)
    (hread : ∀ mem, SeenAs Machine.arch (program mem) (readBytes mem n)) :
    SeenAs Machine.arch (do let val ← program (addr (← cpu)); Handler.loadRt (ext val))
      (Arch.load n ext) := by
  refine seenAs_bind seenAs_cpu fun r => ?_
  rw [haddr]
  exact seenAs_bind (hread _) fun v => seenAs_modifyCpu _

/-- A load of part of a register, seen. -/
theorem loadPart_seenAs {w n : Nat} (hw : w = 8 * n) {block : CpuRegisters → U32}
    {merge : CpuRegisters → BitVec w → CpuRegisters → U64} :
    SeenAs Machine.arch
      (do let r ← cpu
          if r.rt = 0 then pure ()
          else do
            let mem ← readFrom report (block r) 0 n (0 : BitVec w)
            modifyCpu fun r' => r'.setLane r'.rt 0 (merge r mem r'))
      (loadPart n block merge) :=
  seenAs_bind seenAs_cpu fun _ => seenAs_ite (fun _ => seenAs_pure ()) fun _ =>
    seenAs_bind (seenAs_readFrom hw _) fun _ => seenAs_modifyCpu _

/-- A store, seen. -/
theorem store_seenAs {w n : Nat} (hn : n ≤ MEMSIZE) {addr : CpuRegisters → U32}
    {value : CpuRegisters → BitVec w} (haddr : ∀ r, addr r = Handler.address r) :
    SeenAs Machine.arch (do let r ← cpu; writeFrom report (addr r) (value r) 0 n)
      (store n value) := by
  refine seenAs_bind seenAs_cpu fun r => ?_
  rw [haddr]
  exact seenAs_writeFrom hn _ _

/-- A store of part of a register, seen. -/
theorem storePart_seenAs {w n : Nat} (hw : w = 8 * n) (hn : n ≤ MEMSIZE)
    {block : CpuRegisters → U32} {merge : CpuRegisters → BitVec w → BitVec w} :
    SeenAs Machine.arch
      (do let r ← cpu
          let mem ← readFrom report (block r) 0 n (0 : BitVec w)
          writeFrom report (block r) (merge r mem) 0 n)
      (storePart n block merge) :=
  seenAs_bind seenAs_cpu fun _ => seenAs_bind (seenAs_readFrom hw _) fun _ =>
    seenAs_writeFrom hn _ _

/-- `LQ`, seen. -/
theorem LQ_seenAs : SeenAs Machine.arch (Handler.LQ report) (MemOp.effect .LQ) :=
  seenAs_bind seenAs_cpu fun _ => seenAs_bind (seenAs_readFrom rfl _) fun _ => seenAs_modifyCpu _

/-- A partial store, as the handlers write its address. -/
theorem storeBlock_seenAs {w n : Nat} (hw : w = 8 * n) (hn : n ≤ MEMSIZE) (round : U32 → U32)
    (merge : CpuRegisters → U32 → BitVec w → BitVec w) :
    SeenAs Machine.arch
      (do let r ← cpu
          let mem ← readFrom report (round (Handler.addressOut r)) 0 n (0 : BitVec w)
          writeFrom report (round (Handler.addressOut r)) (merge r (Handler.addressOut r) mem) 0 n)
      (storePart n (fun r => round (Handler.address r)) fun r mem =>
        merge r (Handler.address r) mem) := by
  have haddr : Handler.addressOut = Handler.address := funext addressOut_eq
  rw [haddr]
  exact storePart_seenAs report hw hn

open Handler in
/-- **Loads and stores.** -/
theorem MemOp.run_seenAs (host : Host) {o : MemOp} (hSQ : o ≠ .SQ) :
    SeenAs Machine.arch (o.run host report) o.effect := by
  have hrefl : ∀ r : CpuRegisters, address r = address r := fun _ => rfl
  cases o with
  -- The loads, by their width.
  | LB | LBU => exact load_seenAs hrefl seenAs_memRead8
  | LH | LHU => exact load_seenAs hrefl fun mem => seenAs_readFrom rfl mem
  | LW => exact load_seenAs addressOut_eq fun mem => seenAs_readFrom rfl mem
  | LWU => exact load_seenAs hrefl fun mem => seenAs_readFrom rfl mem
  | LD => exact @load_seenAs 64 8 _ _ id hrefl fun mem => seenAs_readFrom rfl mem
  | LWL | LWR => exact loadPart_seenAs report rfl
  | LDL | LDR => exact loadPart_seenAs report rfl
  | LQ => exact LQ_seenAs report
  -- `SB` writes through `memWrite8`, which is no loop.
  | SB =>
    refine seenAs_bind seenAs_cpu fun r => ?_
    exact seenAs_memWrite8 _ _
  | SH => exact store_seenAs report (by decide) hrefl
  | SW => exact store_seenAs report (by decide) addressOut_eq
  | SD => exact store_seenAs report (by decide) addressOut_eq
  -- The four that merge differ in the shift and the mask alone.
  | SWL =>
    exact storeBlock_seenAs report rfl (by decide) (· &&& ~~~3) fun r addr mem =>
      (UL 0 (r.GPR r.rt) >>> SWL_SHIFT[low2 addr]) ||| (mem &&& SWL_MASK[low2 addr])
  | SWR =>
    exact storeBlock_seenAs report rfl (by decide) (· &&& ~~~3) fun r addr mem =>
      (UL 0 (r.GPR r.rt) <<< SWR_SHIFT[low2 addr]) ||| (mem &&& SWR_MASK[low2 addr])
  | SDL =>
    exact storeBlock_seenAs report rfl (by decide) (· &&& ~~~7) fun r addr mem =>
      (UD 0 (r.GPR r.rt) >>> SDL_SHIFT[low3 addr]) ||| (mem &&& SDL_MASK[low3 addr])
  | SDR =>
    exact storeBlock_seenAs report rfl (by decide) (· &&& ~~~7) fun r addr mem =>
      (UD 0 (r.GPR r.rt) <<< SDR_SHIFT[low3 addr]) ||| (mem &&& SDR_MASK[low3 addr])
  | SQ => exact absurd rfl hSQ

/-! ### The system instructions -/

/-- A fatal error has no value in the architecture. -/
theorem seenAs_fatal {α : Type} (msg : Message) :
    SeenAs Machine.arch (fatal report msg : M α) fun _ => none :=
  seenAs_none fun _ _ _ => fatal_ne_ok _ _

/-- `COP0`, seen: the move, the two words that do nothing, or an error. -/
theorem COP0_seenAs : SeenAs Machine.arch (Handler.COP0 report) cop0Effect := by
  refine seenAs_bind seenAs_cpu fun r => ?_
  refine seenAs_ite (fun _ => seenAs_modifyCpu _) fun _ => ?_
  by_cases h38 : r.code = 0x42000038
  · rw [if_pos h38, if_pos (.inl h38)]
    exact seenAs_pure ()
  · rw [if_neg h38]
    by_cases h39 : r.code = 0x42000039
    · rw [if_pos h39, if_pos (.inr h39)]
      exact seenAs_pure ()
    · rw [if_neg h39, if_neg (not_or.mpr ⟨h38, h39⟩)]
      exact seenAs_fatal report _

/-- A message is not seen. -/
theorem seenAs_printf (msg : Message) : SeenAs Machine.arch (printf msg) (pure ()) :=
  seenAs_unseen fun _ => rfl

/-- `SYSCALL`, seen. -/
theorem SYSCALL_seenAs : SeenAs Machine.arch (Handler.SYSCALL report) syscallEffect := by
  refine seenAs_bind seenAs_cpu fun r => ?_
  dsimp only
  generalize Handler.callNumber r = call
  -- Along the switch of the handler; each test decides those of the machine.
  by_cases h32 : call = 0x32
  · rw [if_pos h32, h32]
    exact seenAs_fatal report _
  rw [if_neg h32]
  by_cases h3c : call = 0x3c
  · rw [if_pos h3c, if_pos (.inl h3c)]
    exact seenAs_after (seenAs_unseen fun _ => rfl) (seenAs_printf _)
  rw [if_neg h3c]
  by_cases h3d : call = 0x3d
  · rw [if_pos h3d, if_pos (.inr (.inl h3d))]
    exact seenAs_after (seenAs_unseen fun _ => rfl) (seenAs_printf _)
  rw [if_neg h3d]
  by_cases h3e : call = 0x3e
  · rw [if_pos h3e, h3e]
    refine seenAs_before (seenAs_modifyCpu _) ?_
    exact seenAs_bind (g := fun _ => pure ()) seenAs_cpu fun _ => seenAs_printf _
  rw [if_neg h3e]
  by_cases h64 : call = 0x64
  · -- No other call returns without effect, so the tests of the machine for these fail.
    rw [if_pos h64, if_pos (.inr (.inr h64))]
    exact seenAs_pure ()
  -- With these excluded the machine has an effect for two calls only.
  have hnone : ¬(call = 0x3c ∨ call = 0x3d ∨ call = 0x64) := by
    rintro (h | h | h)
    · exact h3c h
    · exact h3d h
    · exact h64 h
  rw [if_neg h64, if_neg hnone, if_neg h3e]
  by_cases h07 : call = 0x07
  · rw [if_pos h07, if_pos h07]
    exact seenAs_after (seenAs_printf _)
      (seenAs_modify (f := fun a : Arch => { a with entry := UL 0 (r.GPR Handler.a0) })
        fun _ => rfl)
  · -- Every other call exits, and the machine has no effect for it.
    rw [if_neg h07, if_neg h07]
    refine seenAs_none fun s u s' h => ?_
    cases h

/-- **Every instruction** but the branches. -/
theorem Op.run_seenAs (host : Host) (execI : M Unit) {o : Op} (hop : ∀ b, o ≠ .branch b)
    (hSQ : o ≠ .memory .SQ) : SeenAs Machine.arch (o.run host report execI) o.effect := by
  cases o with
  | register o => exact seenAs_modifyCpu? o.run
  | memory o => exact o.run_seenAs report host fun h => hSQ (congrArg Op.memory h)
  | branch o => exact absurd rfl (hop o)
  | COP0 => exact COP0_seenAs report
  | SYSCALL => exact SYSCALL_seenAs report
  -- The others do not return.
  | BREAK => exact seenAs_none fun s u s' h => by cases h
  | UnknownOpcode => exact seenAs_none fun s u s' h => absurd h (fatal_ne_ok _ _)
  | MMI_Unknown => exact seenAs_fatal report _

end Handlers

/-! ### Control -/

/-- The fetch, seen as the machine. -/
theorem Fetched.arch {s s₀ : Machine} (h : Fetched s s₀) :
    s₀.arch = { s.arch with cpu := s.cpu.dispatch s₀.cpu.code } := by
  have hwritten : s₀.Written = s.Written := by
    funext m
    obtain ⟨new, hnew, hext⟩ := h.history
    -- The dispatch and the messages write no byte.
    have hnone : ¬∃ e ∈ Event.exec s₀.cpu :: new, e.hits m := by
      rintro ⟨e, he, hm⟩
      rcases List.mem_cons.mp he with rfl | he
      · exact hm
      · obtain ⟨msg, rfl⟩ := hnew e he
        exact hm
    exact propext ((hext.written m).trans (or_iff_left hnone))
  unfold Machine.arch
  -- What the machine wrote is the same, by the history.
  rw [← h.cpu, h.memory, h.bouncePc]
  congr 1
  funext m
  exact decide_eq_decide.mpr (by rw [hwritten])

end Ps2Unpacker
