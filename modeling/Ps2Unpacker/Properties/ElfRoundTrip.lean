import Ps2Unpacker.Properties.Range
import Ps2Unpacker.Semantics.Loader

/-!
# Dump, then load

`main` writes an ELF file member by member and reads one through pointers at fixed offsets. The two
agree: a file it wrote is loaded back to the bytes that were dumped.

* `ehEntry_append` and its siblings, `segmentAt_append`: the members the loader reads are those of
  the structures that were written.
* `segments_dump`: the loader finds the one segment of a dump.
* `load_dump`: loading a dump gives the dumped bytes, zero everywhere else, and the entry point.
-/

namespace Ps2Unpacker

open CProg Lanes

/-! ### Headers read back -/

section Headers

variable (h : ElfHeader) (rest : List U8)

/-- The sizes of the header and of a program header. -/
theorem length_header : h.bytes.length = ehSize := by
  simp [ElfHeader.bytes]

theorem length_pheader (p : ElfPheader) : p.bytes.length = ephSize := by
  simp [ElfPheader.bytes]

/-- The members of the header read back: each is found behind those in front of it. -/
theorem ehEntry_append : ehEntry (h.bytes ++ rest) = some h.entry := by
  unfold ehEntry ElfHeader.bytes
  simp [peek_behind, peek_toBytes]

/-- The offset of the table is read back, with the size and the number of its entries. -/
theorem ehPhoff_append : ehPhoff (h.bytes ++ rest) = some h.phoff := by
  unfold ehPhoff ElfHeader.bytes
  simp [peek_behind, peek_toBytes]

theorem ehPhentsize_append : ehPhentsize (h.bytes ++ rest) = some h.phentsize := by
  unfold ehPhentsize ElfHeader.bytes
  simp [peek_behind, peek_toBytes]

theorem ehPhnum_append : ehPhnum (h.bytes ++ rest) = some h.phnum := by
  unfold ehPhnum ElfHeader.bytes
  simp [peek_behind, peek_toBytes]

/-- The identification `main` writes starts with the magic number `main` looks for. -/
theorem magic_append (hident : h.ident = ident) : peek 32 (h.bytes ++ rest) 0 = some ELF_MAGIC := by
  have htake : h.bytes.take 4 = toBytes 4 ELF_MAGIC := by
    unfold ElfHeader.bytes
    rw [hident]
    rfl
  have hsplit : h.bytes ++ rest = toBytes 4 ELF_MAGIC ++ (h.bytes.drop 4 ++ rest) := by
    rw [← htake, ← List.append_assoc, List.take_append_drop]
  rw [hsplit]
  exact peek_toBytes ELF_MAGIC (by decide)

/-- A program header reads back as the segment it describes. -/
theorem segmentAt_append (pre : List U8) (p : ElfPheader) (rest : List U8) :
    segmentAt (pre ++ (p.bytes ++ rest)) pre.length =
      some (if p.type = PT_LOAD then some ⟨p.vaddr, p.offset, p.filesz⟩ else none) := by
  -- The four members, each at its offset behind what is in front of the header.
  have htype : ephType (pre ++ (p.bytes ++ rest)) pre.length = some p.type := by
    unfold ephType ElfPheader.bytes
    simp [peek_behind, peek_toBytes]
  have hoffset : ephOffset (pre ++ (p.bytes ++ rest)) pre.length = some p.offset := by
    unfold ephOffset ElfPheader.bytes
    simp [peek_behind, peek_toBytes]
  have hvaddr : ephVaddr (pre ++ (p.bytes ++ rest)) pre.length = some p.vaddr := by
    unfold ephVaddr ElfPheader.bytes
    simp [peek_behind, peek_toBytes]
  have hfilesz : ephFilesz (pre ++ (p.bytes ++ rest)) pre.length = some p.filesz := by
    unfold ephFilesz ElfPheader.bytes
    simp [peek_behind, peek_toBytes]
  unfold segmentAt
  rw [htype, hoffset, hvaddr, hfilesz]
  change (if p.type = PT_LOAD then some (some _) else some none) = _
  split <;> rfl

end Headers

/-! ### The file of a dump -/

section Dump

variable {lo hi : U32} {data : List U8}

/-- What follows the two headers. -/
def dumpTail (data : List U8) : List U8 :=
  if data = [] then [] else List.replicate (0x1000 - (ehSize + ephSize)) 0 ++ data

/-- The whole file. -/
def dumpFile (lo hi bouncePc : U32) (data : List U8) : List U8 :=
  (dumpHeader bouncePc).bytes ++ ((dumpPheader lo hi).bytes ++ dumpTail data)

/-- The bytes that are written at `0x1000` extend the headers by a gap. -/
theorem writeAt_headers (bouncePc : U32) (data : List U8) :
    writeAt ((dumpHeader bouncePc).bytes ++ (dumpPheader lo hi).bytes) 0x1000 data =
      dumpFile lo hi bouncePc data := by
  unfold writeAt dumpFile dumpTail
  rw [List.length_append, length_header, length_pheader]
  -- Without data nothing is written, so there is no gap either.
  by_cases hdata : data = []
  · rw [if_pos hdata, if_pos hdata, List.append_nil]
  · rw [if_neg hdata, if_neg hdata]
    simp only [List.append_assoc]

/-- The loader finds the one segment. -/
theorem segments_dump (bouncePc : U32) (rest : List U8) :
    segments ((dumpHeader bouncePc).bytes ++ ((dumpPheader lo hi).bytes ++ rest)) =
      some [⟨lo, 0x1000, hi - lo⟩] := by
  have hseg := segmentAt_append (dumpHeader bouncePc).bytes (dumpPheader lo hi) rest
  rw [length_header] at hseg
  unfold segments
  rw [ehPhoff_append, ehPhentsize_append, ehPhnum_append]
  change tableFrom _ (dumpHeader bouncePc).phoff (dumpHeader bouncePc).phentsize 1 0 = _
  unfold tableFrom
  -- The table has one entry, directly behind the header.
  rw [ephPointer_zero]
  change (segmentAt _ ((ehSize : Nat) : Int) >>= _) = _
  rw [hseg]
  rfl

/-- Behind the gap, the file holds the data. -/
theorem dumpFile_data (bouncePc : U32) {k : Nat} (hk : k < data.length) :
    (dumpFile lo hi bouncePc data)[0x1000 + k]? = data[k]? := by
  have hdata : data ≠ [] := by
    rintro rfl
    exact absurd hk (Nat.not_lt_zero k)
  -- The headers and the gap are `0x1000` bytes.
  have hgap : ((dumpHeader bouncePc).bytes ++ ((dumpPheader lo hi).bytes ++
      List.replicate (0x1000 - (ehSize + ephSize)) (0 : U8))).length = 0x1000 := by
    rw [List.length_append, List.length_append, length_header, length_pheader,
      List.length_replicate]
    rfl
  unfold dumpFile dumpTail
  rw [if_neg hdata, ← List.append_assoc (dumpPheader lo hi).bytes, ← List.append_assoc,
    List.getElem?_append_right (by omega), hgap, Nat.add_sub_cancel_left]

/-- A dump with data has a gap and the data behind the headers. -/
theorem length_dumpFile (bouncePc : U32) (hdata : data ≠ []) :
    (dumpFile lo hi bouncePc data).length = 0x1000 + data.length := by
  unfold dumpFile dumpTail
  rw [if_neg hdata, List.length_append, List.length_append, List.length_append, length_header,
    length_pheader, List.length_replicate]
  change 52 + (32 + (0x1000 - 84 + data.length)) = _
  omega

/-- A file whose size fits its type is read as it is. -/
theorem fileBytes_eq {file : List U8} (h : file.length < 2 ^ 32) : fileBytes file = file := by
  unfold fileBytes fileSize
  rw [BitVec.toNat_ofNat, Nat.mod_eq_of_lt h, List.take_length]

/-- A dump is short enough for a size of 32 bits, whether or not there is anything behind the
headers. -/
theorem fileBytes_dumpFile (bouncePc : U32) (hlength : data.length ≤ MEMSIZE) :
    fileBytes (dumpFile lo hi bouncePc data) = dumpFile lo hi bouncePc data := by
  have hsize := MEMSIZE_eq
  apply fileBytes_eq
  by_cases hnil : data = []
  · unfold dumpFile
    rw [hnil, List.length_append, List.length_append, length_header, length_pheader]
    decide
  · rw [length_dumpFile bouncePc hnil]
    omega

/-! ### The segment of a dump -/

section Segment

variable (hle : lo.toNat ≤ hi.toNat)
include hle

/-- The size of the segment. -/
theorem dumpSegment_size : (hi - lo).toNat = hi.toNat - lo.toNat :=
  BitVec.toNat_sub_of_le (BitVec.le_def.mpr hle)

/-- The segment lies inside the file and inside memory. -/
theorem dumpSegment_fits (bouncePc : U32) (hhi : hi.toNat ≤ MEMSIZE)
    (hlength : data.length = hi.toNat - lo.toNat) :
    Segment.Fits (dumpFile lo hi bouncePc data) ⟨lo, 0x1000, hi - lo⟩ := by
  have hsub := dumpSegment_size hle
  by_cases hempty : hi - lo = 0
  · exact .inl hempty
  · -- With data the file reaches to the end of the segment.
    have hnil : data ≠ [] := by
      rintro rfl
      refine hempty (BitVec.eq_of_toNat_eq ?_)
      rw [hsub, ← hlength]
      rfl
    refine .inr ⟨?_, ?_⟩
    · change 0x1000 + (hi - lo).toNat ≤ (dumpFile lo hi bouncePc data).length
      rw [length_dumpFile bouncePc hnil, hsub, hlength]
    · change lo.toNat + (hi - lo).toNat ≤ MEMSIZE
      omega

/-- It writes the range. -/
theorem dumpSegment_writes (m : Fin MEMSIZE) :
    Segment.writes ⟨lo, 0x1000, hi - lo⟩ m = decide (lo.toNat ≤ m.val ∧ m.val < hi.toNat) := by
  unfold Segment.writes
  rw [dumpSegment_size hle, Nat.add_sub_cancel' hle]

end Segment

/-- **Dump, then load** is the identity on the dumped range: for every memory, entry point and range
inside memory, the file is written and accepted, memory is as it was inside the range and zero
outside, and the program counter is the entry point. -/
theorem load_dump {opts : Options} (hraw : opts.raw = 0) (hep : opts.ep = 0) (s t : Machine)
    (hle : lo.toNat ≤ hi.toNat) (hhi : hi.toNat ≤ MEMSIZE) :
    ∃ file t', dump lo hi s = .ok file s ∧ load opts file t = .ok () t' ∧
      (∀ m, t'.memory m = if lo.toNat ≤ m.val ∧ m.val < hi.toNat then s.memory m else 0) ∧
      t'.cpu.pc = s.bouncePc := by
  obtain ⟨data, hdata, hlength, hget⟩ := dumpSection_of_le s hle hhi
  -- The file, and the segment its header describes.
  have hdump : dump lo hi s = .ok (dumpFile lo hi s.bouncePc data) s := by
    unfold dump
    rw [Prog.get_bind, Prog.bind_ok_of hdata, writeAt_headers]
    rfl
  have hbytes : fileBytes (dumpFile lo hi s.bouncePc data) = dumpFile lo hi s.bouncePc data :=
    fileBytes_dumpFile s.bouncePc (by omega)
  have himage : imageSegments opts (dumpFile lo hi s.bouncePc data) =
      some [⟨lo, 0x1000, hi - lo⟩] := by
    unfold imageSegments
    rw [if_neg (not_not.mpr hraw), hbytes]
    unfold dumpFile
    rw [if_pos (magic_append _ _ rfl)]
    exact segments_dump s.bouncePc (dumpTail data)
  -- The entry point is read back from the header.
  have hpc : initialPc opts (dumpFile lo hi s.bouncePc data) = some s.bouncePc := by
    unfold initialPc
    rw [if_neg (not_not.mpr hep), if_neg (not_not.mpr hraw)]
    exact ehEntry_append _ _
  refine ⟨_, t.loaded _ [⟨lo, 0x1000, hi - lo⟩] s.bouncePc, hdump, load_eq_ok.mpr
    ⟨_, s.bouncePc, himage, ?_, by rw [hbytes]; exact hpc, by rw [hbytes]⟩, fun m => ?_, rfl⟩
  · -- The one segment lies in the file, and in memory.
    intro seg hseg
    rw [List.mem_singleton.mp hseg, hbytes]
    exact dumpSegment_fits hle s.bouncePc hhi hlength
  · -- The one segment writes the range, with the byte that was there.
    change (if Segment.writes ⟨lo, 0x1000, hi - lo⟩ m then
      Segment.value (dumpFile lo hi s.bouncePc data) ⟨lo, 0x1000, hi - lo⟩ m else 0) = _
    rw [dumpSegment_writes hle]
    by_cases hm : lo.toNat ≤ m.val ∧ m.val < hi.toNat
    · rw [if_pos (decide_eq_true hm), if_pos hm]
      change ((dumpFile lo hi s.bouncePc data)[0x1000 + (m.val - lo.toNat)]?).getD 0 = _
      rw [dumpFile_data s.bouncePc (by omega), hget m.val m.isLt hm.1 hm.2]
      rfl
    · -- Outside of the range memory is cleared.
      rw [if_neg (by simpa using hm), if_neg hm]

/-- A dump of the four bytes of `jr ra` at `0x200`. -/
theorem load_dump_word : ∃ file t',
    dump 0x200 0x204 (Machine.unpacked (program 0x200 [0x03e00008]) 0x200 0x203 0x200) =
      .ok file (Machine.unpacked (program 0x200 [0x03e00008]) 0x200 0x203 0x200) ∧
    load {} file Machine.static = .ok () t' ∧ t'.memory ⟨0x200, by decide⟩ = 8 ∧
    t'.memory ⟨0x204, by decide⟩ = 0 ∧ t'.cpu.pc = 0x200 := by
  obtain ⟨file, t', hdump, hload, hmem, hpc⟩ := @load_dump 0x200 0x204 {} rfl rfl
    (Machine.unpacked (program 0x200 [0x03e00008]) 0x200 0x203 0x200) Machine.static (by decide)
    (by decide)
  refine ⟨file, t', hdump, hload, ?_, ?_, hpc⟩
  · rw [hmem]
    decide
  · rw [hmem]
    decide

end Dump

end Ps2Unpacker
