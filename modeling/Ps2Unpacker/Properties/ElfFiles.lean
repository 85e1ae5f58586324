import Ps2Unpacker.Properties.ElfRoundTrip

/-!
# ELF files

What the loader makes of an ELF file that was written by another program. `ElfFile` is such a file,
with its parts in the order in which linkers write them; the loader reads nothing of it but the
entry point and the segments, and memory becomes their image.

* `ElfFile.segments_bytes`: the loader finds the segments the table describes.
* `ElfFile.load_iff`: which of these files are loaded, and as what.
-/

namespace Ps2Unpacker

open CProg Lanes

/-- The segment a program header describes, if it is one to load. -/
def ElfPheader.segment? (p : ElfPheader) : Option Segment :=
  if p.type = PT_LOAD then some ⟨p.vaddr, p.offset, p.filesz⟩ else none

/-- An ELF file: the header, the table of program headers somewhere behind it, and whatever else the
file holds. An entry of the table may be larger than what is known of it. -/
structure ElfFile where
  header : ElfHeader
  /-- What lies between the header and the table. -/
  gap : List U8
  /-- The program headers, each with what follows it in its entry. -/
  table : List (ElfPheader × List U8)
  rest : List U8
  magic : header.bytes.take 4 = toBytes 4 ELF_MAGIC
  phoff : header.phoff.toNat = ehSize + gap.length
  phentsize : ∀ e ∈ table, header.phentsize.toNat = ephSize + e.2.length
  phnum : header.phnum.toNat = table.length
  /-- The loader computes the offset of an entry as an `int`. -/
  int : table.length * header.phentsize.toNat < 2 ^ 31

namespace ElfFile

/-- The bytes of an entry. -/
def entryBytes (e : ElfPheader × List U8) : List U8 := e.1.bytes ++ e.2

variable (f : ElfFile)

def bytes : List U8 :=
  f.header.bytes ++ (f.gap ++ (f.table.flatMap entryBytes ++ f.rest))

/-- The segments to load, in the order of the table. -/
def loads : List Segment := f.table.filterMap fun e => e.1.segment?

/-- The memory the file describes: a byte has the value that the last segment over it takes from the
file, and is zero where there is none. -/
def image (m : Fin MEMSIZE) : U8 :=
  match lastWrite Segment.writes f.loads m with
  | some seg => seg.value f.bytes m
  | none => 0

/-! ### The table -/

/-- The pointer to an entry, where the product does not overflow. -/
theorem ephPointer_of_lt {phoff : U32} {phentsize : U16} {i : Nat}
    (h : i * phentsize.toNat < 2 ^ 31) :
    ephPointer phoff phentsize i = (phoff.toNat + phentsize.toNat * i : Nat) := by
  -- The factors are cut to 32 bits, and the product is below `2 ^ 31`.
  have hproduct :
      (phentsize.setWidth 32 * BitVec.ofNat 32 i : U32).toNat = phentsize.toNat * i := by
    rw [Nat.mul_comm] at h
    rw [BitVec.toNat_mul, BitVec.toNat_setWidth, BitVec.toNat_ofNat, ← Nat.mul_mod]
    omega
  unfold ephPointer
  rw [BitVec.toInt_eq_toNat_of_lt (by rw [hproduct, Nat.mul_comm phentsize.toNat]; omega),
    hproduct]
  push_cast
  rfl

/-- The entries from number `i` on, at their place behind `pre`. -/
theorem tableFrom_append {phoff : U32} {phentsize : U16} {rest : List U8}
    (entries : List (ElfPheader × List U8)) :
    ∀ (pre : List U8) (i : Nat), (∀ e ∈ entries, phentsize.toNat = ephSize + e.2.length) →
      pre.length = phoff.toNat + phentsize.toNat * i →
      (i + entries.length) * phentsize.toNat < 2 ^ 31 →
      tableFrom (pre ++ (entries.flatMap entryBytes ++ rest)) phoff phentsize entries.length i =
        some (entries.filterMap fun e => e.1.segment?) := by
  -- On the entries: each is found behind those before it.
  induction entries with
  | nil => exact fun _ _ _ _ _ => rfl
  | cons e entries ih =>
    intro pre i hsize hpre hint
    have hentry := hsize e List.mem_cons_self
    have hbytes : pre ++ ((e :: entries).flatMap entryBytes ++ rest) =
        pre ++ (e.1.bytes ++ (e.2 ++ (entries.flatMap entryBytes ++ rest))) := by
      rw [List.flatMap_cons, entryBytes]
      simp only [List.append_assoc]
    have hbytes' : pre ++ ((e :: entries).flatMap entryBytes ++ rest) =
        (pre ++ entryBytes e) ++ (entries.flatMap entryBytes ++ rest) := by
      rw [List.flatMap_cons]
      simp only [List.append_assoc]
    -- The first header lies at the end of what is in front,
    have hfirst : segmentAt (pre ++ ((e :: entries).flatMap entryBytes ++ rest))
        (ephPointer phoff phentsize i) = some e.1.segment? := by
      have hi : i * phentsize.toNat < 2 ^ 31 :=
        Nat.lt_of_le_of_lt (Nat.mul_le_mul_right _ (Nat.le_add_right _ _)) hint
      rw [ephPointer_of_lt hi, ← hpre, hbytes]
      exact segmentAt_append pre e.1 _
    -- and the rest of the table behind one entry more.
    have hlength : (entryBytes e).length = phentsize.toNat := by
      rw [entryBytes, List.length_append, length_pheader, hentry]
    have hrest := ih (pre ++ entryBytes e) (i + 1) (fun e he => hsize e (List.mem_cons_of_mem _ he))
      (by rw [List.length_append, hlength, hpre, Nat.mul_add, Nat.mul_one, Nat.add_assoc])
      (by rwa [Nat.add_assoc, Nat.add_comm 1])
    change (segmentAt _ _ >>= fun seg => _) = _
    rw [hfirst, hbytes', hrest, List.filterMap_cons]
    -- An entry that is not `PT_LOAD` adds no segment.
    cases e.1.segment? with
    | none => rfl
    | some seg => rfl

/-- **The segments** the loader finds are those of the table. -/
theorem segments_bytes : segments f.bytes = some f.loads := by
  have htable := @tableFrom_append f.header.phoff f.header.phentsize f.rest f.table
    (f.header.bytes ++ f.gap) 0 f.phentsize
    (by rw [List.length_append, length_header, f.phoff, Nat.mul_zero, Nat.add_zero])
    (by rw [Nat.zero_add]; exact f.int)
  unfold segments bytes
  rw [ehPhoff_append, ehPhentsize_append, ehPhnum_append]
  rw [List.append_assoc, ← f.phnum] at htable
  exact htable

/-- The file starts with the magic number. -/
theorem magic_bytes : peek 32 f.bytes 0 = some ELF_MAGIC := by
  have hsplit : f.bytes = toBytes 4 ELF_MAGIC ++ (f.header.bytes.drop 4 ++
      (f.gap ++ (f.table.flatMap entryBytes ++ f.rest))) := by
    rw [← f.magic, ← List.append_assoc, List.take_append_drop]
    rfl
  rw [hsplit]
  exact peek_toBytes ELF_MAGIC (by decide)

/-! ### Loading -/

/-- **Loading** an ELF file: it is loaded exactly if every segment to load lies inside the file and
inside memory, and then memory is the image of its segments and the program counter its entry
point, or that of `-e`. -/
theorem load_iff {opts : Options} (hraw : opts.raw = 0) (hlength : f.bytes.length < 2 ^ 32)
    (s s' : Machine) :
    load opts f.bytes s = .ok () s' ↔ (∀ seg ∈ f.loads, seg.Fits f.bytes) ∧
      s' = { s with
        memory := f.image
        tags := fun _ => 0
        cpu := CpuRegisters.zeroed (if opts.ep = 0 then f.header.entry else opts.ep) } := by
  -- The bytes that `fread` delivers are the file, its segments those of the table,
  have hbytes : fileBytes f.bytes = f.bytes := fileBytes_eq hlength
  have hsegments : imageSegments opts f.bytes = some f.loads := by
    unfold imageSegments
    rw [if_neg (not_not.mpr hraw), hbytes, if_pos f.magic_bytes, f.segments_bytes]
  -- and the program counter comes from the header unless `-e` gives one.
  have hpc : initialPc opts f.bytes = some (if opts.ep = 0 then f.header.entry else opts.ep) := by
    unfold initialPc
    by_cases hep : opts.ep = 0
    · rw [if_neg (not_not.mpr hep), if_neg (not_not.mpr hraw), if_pos hep]
      exact ehEntry_append _ _
    · rw [if_pos hep, if_neg hep]
  -- Memory is zero but for the last segment that covers a byte.
  have himage : overlay Segment.writes (Segment.value f.bytes) f.loads (fun _ => 0) = f.image := by
    funext m
    rw [overlay_apply]
    unfold image
    cases lastWrite Segment.writes f.loads m with
    | none => rfl
    | some seg => rfl
  rw [load_eq_ok, hsegments, hbytes, hpc]
  unfold Machine.loaded
  constructor
  · rintro ⟨_, _, ⟨⟩, hfits, ⟨⟩, rfl⟩
    rw [himage]
    exact ⟨hfits, rfl⟩
  · rintro ⟨hfits, rfl⟩
    rw [← himage]
    exact ⟨_, _, rfl, hfits, rfl, rfl⟩

/-- Two program headers with four more bytes in each entry, the second over the last byte of the
first. -/
def overlapping : ElfFile where
  header := { dumpHeader 0x100 with phoff := 54, phentsize := 36, phnum := 2 }
  gap := [0, 0]
  table := [({ dumpPheader 0x100 0x104 with offset := 126 }, [0, 0, 0, 0]),
    ({ dumpPheader 0x103 0x105 with offset := 130 }, [0, 0, 0, 0])]
  rest := [1, 2, 3, 4, 5, 6]
  magic := rfl
  phoff := rfl
  phentsize := by decide
  phnum := rfl
  int := by decide

/-- The second segment is copied over the first. -/
theorem load_iff_overlapping : ∃ s', load {} overlapping.bytes Machine.static = .ok () s' ∧
    s'.memory ⟨0x102, by decide⟩ = 3 ∧ s'.memory ⟨0x103, by decide⟩ = 5 ∧ s'.cpu.pc = 0x100 := by
  refine ⟨_, (overlapping.load_iff rfl (by decide +kernel) Machine.static _).mpr
    ⟨by decide +kernel, rfl⟩, ?_⟩
  decide +kernel

end ElfFile

end Ps2Unpacker
