import Mathlib.Data.List.Nodup
import Ps2Unpacker.Semantics.ByteStore
import Ps2Unpacker.Semantics.Footprint

/-!
# One byte store behind two windows

Accesses of 8, 16, 32 and 64 bits, at any alignment and through either window, see one array of
bytes, little-endian.

* `otherWindow`: the second address of a byte.
* `Width.read_spec`: what a read returns, in any state.
* `memory_byte_store`: a write followed by any read, and the tags.
-/

namespace Ps2Unpacker

open CProg Lanes

/-! ### The widths -/

/-- The widths of `memRead8`, `memRead16`, `memRead32` and `memRead64`. -/
inductive Width where
  | byte
  | halfword
  | word
  | doubleword

namespace Width

/-- The number of bytes of an access. -/
def bytes : Width → Nat
  | byte => 1
  | halfword => 2
  | word => 4
  | doubleword => 8

def bits : Width → Nat
  | byte => 8
  | halfword => 16
  | word => 32
  | doubleword => 64

/-- A width in bits is one in bytes. -/
theorem bits_eq (W : Width) : W.bits = 8 * W.bytes := by
  cases W <;> rfl

/-- No width is more than a doubleword. -/
theorem bytes_le (W : Width) : W.bytes ≤ 8 := by
  cases W <;> decide

section Accessors

variable (report : U32 → M Unit)

def read : (W : Width) → U32 → M (BitVec W.bits)
  | byte => memRead8 report
  | halfword => memRead16 report
  | word => memRead32 report
  | doubleword => memRead64 report

def write : (W : Width) → U32 → BitVec W.bits → M Unit
  | byte => memWrite8 report
  | halfword => memWrite16 report
  | word => memWrite32 report
  | doubleword => memWrite64 report

/-- A byte is a value of one byte. -/
theorem read_eq (W : Width) (mem : U32) :
    W.read report mem = readFrom report mem 0 W.bytes (0 : BitVec W.bits) := by
  -- A byte is the one lane of a byte.
  have hbyte : ∀ b : U8, setLane 0 b (0 : U8) = b := by
    intro b
    apply BitVec.eq_of_getLsbD_eq
    intro i hi
    rw [getLsbD_setLane]
    simp [hi]
  cases W with
  -- Only the byte has accessors of its own; the others are loops already.
  | byte =>
    funext s
    change memRead8 report mem s =
      ((memRead8 report (mem + 0#32)).bind fun b => pure (setLane 0 b (0 : U8))) s
    rw [BitVec.add_zero]
    unfold Prog.bind
    cases memRead8 report mem s with
    | ok b s' => exact congrArg (Outcome.ok · s') (hbyte b).symm
    | exit | undefined | outOfFuel => rfl
  | halfword | word | doubleword => rfl

/-- The same for writes. -/
theorem write_eq (W : Width) (mem : U32) (value : BitVec W.bits) :
    W.write report mem value = writeFrom report mem value 0 W.bytes := by
  have hbyte : ∀ b : U8, lane 8 0 b = b := by
    intro b
    apply BitVec.eq_of_getLsbD_eq
    intro i hi
    rw [getLsbD_lane]
    simp [hi]
  cases W with
  | byte =>
    funext s
    change memWrite8 report mem value s =
      ((memWrite8 report (mem + 0#32) (lane 8 0 value)).bind fun _ => pure ()) s
    rw [BitVec.add_zero]
    unfold Prog.bind
    have hv : lane 8 0 value = value := hbyte value
    rw [hv]
    cases memWrite8 report mem value s with
    | ok | exit | undefined | outOfFuel => rfl
  | halfword | word | doubleword => rfl

end Accessors

/-- All bytes of an access at `mem` are accepted. -/
def Accepts (W : Width) (mem : U32) : Prop :=
  ∀ j, j < W.bytes → Accepted (mem + BitVec.ofNat 32 j)

/-- An access at `mem` reaches the byte `m`. -/
def Covers (W : Width) (mem : U32) (m : Fin MEMSIZE) : Prop :=
  ∃ j, j < W.bytes ∧ foldAddr (mem + BitVec.ofNat 32 j) = some m

end Width

/-! ### The two windows -/

/-- The address of the same byte in the other window. -/
def otherWindow (mem : U32) : U32 :=
  if mem.toNat < 0x08000000 then mem + 0x08000000 else mem - 0x08000000

/-- The bytes of a range are those of the same range in the other window. -/
theorem Denotes.otherWindow {mem : U32} {n : Nat} {cell : Nat → Fin MEMSIZE}
    (h : Denotes mem n cell)
    (hn : n ≤ 8) : Denotes (otherWindow mem) n cell := by
  intro j hj
  have hsize := MEMSIZE_eq
  have hmem := mem.isLt
  -- Each byte has one of two addresses, so the cases of the first one and of byte `j` can differ.
  have hfirst := foldAddr_eq_some_iff.mp (h 0 (by omega))
  have hbyte := foldAddr_eq_some_iff.mp (h j hj)
  have hlt := (cell 0).isLt
  have hlt' := (cell j).isLt
  rw [BitVec.toNat_add, BitVec.toNat_ofNat] at hfirst hbyte
  have hbase : (0x08000000 : U32).toNat = 0x08000000 := rfl
  -- The first byte tells the window, and the gap between the windows is wider than the range.
  rw [foldAddr_eq_some_iff]
  unfold Ps2Unpacker.otherWindow
  split
  · -- From the first window the range moves up, from the copy it moves down.
    rw [BitVec.toNat_add, BitVec.toNat_add, BitVec.toNat_ofNat, hbase]
    omega
  · rw [BitVec.toNat_add, BitVec.toNat_sub, BitVec.toNat_ofNat, hbase]
    omega

/-! ### Contents -/

/-- The byte an accepted address denotes. -/
def Machine.byteAt (s : Machine) (mem : U32) : U8 := ((foldAddr mem).map s.memory).getD 0

/-- The byte at an address of the range. -/
theorem byteAt_denotes {n j : Nat} {mem : U32} {cell : Nat → Fin MEMSIZE} (h : Denotes mem n cell)
    (hj : j < n) (s : Machine) : s.byteAt (mem + BitVec.ofNat 32 j) = s.memory (cell j) := by
  unfold Machine.byteAt
  rw [h j hj]
  rfl

/-- The little-endian combination of the `n` bytes from `mem` on. -/
def Machine.combine (w : Nat) (s : Machine) (mem : U32) (n : Nat) : BitVec w :=
  ofBytes w ((span mem 0 n).map s.byteAt)

/-- The value at a range is put together from its cells. -/
theorem combine_denotes {w n : Nat} {mem : U32} {cell : Nat → Fin MEMSIZE} (h : Denotes mem n cell)
    (s : Machine) :
    s.combine w mem n = ofBytes w ((List.range n).map fun j => s.memory (cell j)) := by
  unfold Machine.combine span
  rw [List.map_map, ← List.range_eq_range']
  congr 1
  exact List.map_congr_left fun j hj => byteAt_denotes h (List.mem_range.mp hj) s

section Accesses

variable {report : U32 → M Unit}

/-- **A read** of accepted bytes returns their combination; it changes no memory and no write tag.
-/
theorem Width.read_spec (W : Width) {mem : U32} (h : W.Accepts mem) (s : Machine) :
    ∃ s', W.read report mem s = .ok (s.combine W.bits mem W.bytes) s' ∧ s'.memory = s.memory ∧
      ∀ m, s'.Written m ↔ s.Written m := by
  obtain ⟨cell, hcell⟩ := exists_denotes h
  obtain ⟨s', hrun, hro⟩ := readFrom_denotes report hcell W.bits_eq s
  refine ⟨s', ?_, hro.memory, fun m => ?_⟩
  · rw [W.read_eq, hrun, combine_denotes hcell]
  · have := hro.writes m
    simpa using this

/-- **Memory is one little-endian byte store** seen through two windows. -/
theorem memory_byte_store (W : Width) (mem : U32) (value : BitVec W.bits) (s : Machine)
    (h : W.Accepts mem) :
    ∃ s', W.write report mem value s = .ok () s' ∧
      -- The value reads back through both windows.
      (∃ s'', W.read report mem s' = .ok value s'') ∧
      (∃ s'', W.read report (otherWindow mem) s' = .ok value s'') ∧
      -- The bytes written, and the others.
      (∀ j, j < W.bytes → s'.byteAt (mem + BitVec.ofNat 32 j) = lane 8 j value) ∧
      (∀ m, ¬W.Covers mem m → s'.memory m = s.memory m) ∧
      -- The tags: one for each byte written.
      (∀ m, s'.Written m ↔ s.Written m ∨ W.Covers mem m) ∧
      ((span mem 0 W.bytes).map foldAddr).Nodup ∧
      -- Any read of any width, from here or from any other state.
      ∀ (V : Width) (mem' : U32) (t : Machine), V.Accepts mem' →
        ∃ t', V.read report mem' t = .ok (t.combine V.bits mem' V.bytes) t' ∧
          t'.memory = t.memory ∧ ∀ m, t'.Written m ↔ t.Written m := by
  have hsize := MEMSIZE_eq
  have hle := W.bytes_le
  obtain ⟨cell, hcell⟩ := exists_denotes h
  obtain ⟨s', hrun, hin, hout⟩ := writeFrom_denotes report value hcell (by omega) s
  have hback : ∀ {a : U32}, Denotes a W.bytes cell → ∃ s'', W.read report a s' = .ok value s'' := by
    intro a ha
    obtain ⟨s'', hread, -⟩ := readFrom_denotes report ha W.bits_eq s'
    refine ⟨s'', ?_⟩
    rw [W.read_eq, hread, ← eq_ofBytes W.bits_eq fun j hj => (hin j hj).symm]
  refine ⟨s', by rw [W.write_eq, hrun], hback hcell, hback (hcell.otherWindow hle), ?_, ?_, ?_, ?_,
    fun V mem' t hV => V.read_spec hV t⟩
  · exact fun j hj => (byteAt_denotes hcell hj s').trans (hin j hj)
  · intro m hm
    refine hout m fun j hj heq => hm ⟨j, hj, ?_⟩
    rw [hcell j hj, heq]
  · intro m
    rw [writeFrom_writes _ _ _ _ hrun m, exists_mem_span]
    rfl
  · unfold span
    rw [List.map_map, ← List.range_eq_range']
    refine List.Nodup.map_on (fun i hi j hj heq => ?_) List.nodup_range
    have hi' := List.mem_range.mp hi
    have hj' := List.mem_range.mp hj
    rw [Function.comp_apply, Function.comp_apply, hcell i hi', hcell j hj'] at heq
    exact hcell.distinct (by omega) i j (Nat.zero_le i) (by omega) (Nat.zero_le j) (by omega)
      (Option.some.inj heq)

end Accesses

/-- An unaligned word, written through the copy and read from main memory. -/
theorem memory_byte_store_word :
    ∃ s', Width.word.write (dumpasm 0) 0x08000101 0x80402010
        (Machine.start (fun _ => 0) 0x00100000 false) = .ok () s' ∧
      ∃ s'', Width.word.read (dumpasm 0) 0x00000101 s' = .ok 0x80402010 s'' := by
  have hword : Width.word.Accepts 0x08000101 := by
    unfold Width.Accepts
    decide
  obtain ⟨s', hwrite, -, hread, -⟩ := @memory_byte_store (dumpasm 0) .word 0x08000101
    0x80402010 (Machine.start (fun _ => 0) 0x00100000 false) hword
  exact ⟨s', hwrite, hread⟩

end Ps2Unpacker
