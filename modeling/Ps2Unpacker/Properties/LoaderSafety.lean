import Ps2Unpacker.Semantics.Access
import Ps2Unpacker.Semantics.Loader

/-!
# Safety of the loader

`main` takes every offset, address and size of the input file at its word. Here is the exact set of
files and options for which that does no harm.

* `loaded_memory`: if all segments fit, memory is the image of the segments, where a later segment
  covers an earlier one.
* `load_safe_iff`: the loader exits with an error or loads safely exactly if the input is
  `Loadable`.
* `not_load_safe`: without the condition this fails.
-/

namespace Ps2Unpacker

open CProg Lanes

/-! ### The image of a file -/

/-- The segment covers the byte `m`, its address taken through the windows of `memRead8`. -/
def Segment.covers (seg : Segment) (m : Fin MEMSIZE) : Bool :=
  match foldAddr seg.vaddr with
  | some b => decide (b.val ≤ m.val ∧ m.val < b.val + seg.filesz.toNat)
  | none => false

/-- The byte of the file that the segment puts at `m`. -/
def Segment.byteAt (bytes : List U8) (seg : Segment) (m : Fin MEMSIZE) : U8 :=
  match foldAddr seg.vaddr with
  | some b => bytes[seg.offset.toNat + (m.val - b.val)]?.getD 0
  | none => 0

/-- The byte of the last segment, in table order, that covers `m`, and zero where none does. -/
def imageByte (bytes : List U8) (segs : List Segment) (m : Fin MEMSIZE) : U8 :=
  match lastWrite Segment.covers segs m with
  | some seg => seg.byteAt bytes m
  | none => 0

/-- The segment lies inside the file buffer and inside memory. -/
def Segment.Inside (bytes : List U8) (seg : Segment) : Prop :=
  seg.offset.toNat + seg.filesz.toNat ≤ bytes.length ∧
    ∃ b, foldAddr seg.vaddr = some b ∧ b.val + seg.filesz.toNat ≤ MEMSIZE

/-- A segment that is copied and fits starts inside the first window. -/
theorem Segment.Fits.foldAddr {bytes : List U8} {seg : Segment} (h : seg.Fits bytes)
    (hne : seg.filesz ≠ 0) : ∃ hlt : seg.vaddr.toNat < MEMSIZE,
      Ps2Unpacker.foldAddr seg.vaddr = some ⟨seg.vaddr.toNat, hlt⟩ := by
  have hpos : seg.filesz.toNat ≠ 0 := fun h0 => hne (BitVec.eq_of_toNat_eq h0)
  have hlt : seg.vaddr.toNat < MEMSIZE := by
    have := (h.resolve_left hne).2
    omega
  exact ⟨hlt, foldAddr_of_lt hlt⟩

/-- A fitting segment with bytes lies in the file and, by its address, in memory. -/
theorem Segment.Fits.inside {bytes : List U8} {seg : Segment} (h : seg.Fits bytes)
    (hne : seg.filesz ≠ 0) : seg.Inside bytes := by
  obtain ⟨hlt, hfold⟩ := h.foldAddr hne
  obtain ⟨hfile, hmem⟩ := h.resolve_left hne
  exact ⟨hfile, _, hfold, hmem⟩

/-- The copy writes what the segment covers. -/
theorem Segment.Fits.writes_eq {bytes : List U8} {seg : Segment} (h : seg.Fits bytes)
    (m : Fin MEMSIZE) : seg.writes m = seg.covers m := by
  unfold Segment.writes Segment.covers
  by_cases hzero : seg.filesz = 0
  · -- An empty segment covers nothing, wherever it is.
    have hsize : seg.filesz.toNat = 0 := by rw [hzero]; rfl
    rw [hsize, Nat.add_zero, decide_eq_false (by omega)]
    cases Ps2Unpacker.foldAddr seg.vaddr with
    | none => rfl
    | some b => exact (decide_eq_false (by omega)).symm
  · obtain ⟨hlt, hfold⟩ := h.foldAddr hzero
    rw [hfold]

/-- **The image.** If all segments fit, memory holds the image of the file. -/
theorem loaded_memory {bytes : List U8} {segs : List Segment} (hfits : ∀ seg ∈ segs, seg.Fits bytes)
    (m : Fin MEMSIZE) :
    overlay Segment.writes (Segment.value bytes) segs (fun _ => 0) m = imageByte bytes segs m := by
  -- The segments that write a byte are those that cover it.
  rw [overlay_apply, lastWrite_congr Segment.writes fun seg hseg => (hfits seg hseg).writes_eq m]
  unfold imageByte
  cases hlast : lastWrite Segment.covers segs m with
  | none => rfl
  | some seg =>
    -- The segment covers a byte, so it is not empty and starts in the first window.
    obtain ⟨hseg, hcovers⟩ := mem_of_lastWrite _ hlast
    have hne : seg.filesz ≠ 0 := by
      intro hzero
      have hsize : seg.filesz.toNat = 0 := by rw [hzero]; rfl
      rw [← (hfits seg hseg).writes_eq m] at hcovers
      have := of_decide_eq_true hcovers
      omega
    obtain ⟨hlt, hfold⟩ := (hfits seg hseg).foldAddr hne
    change seg.value bytes m = seg.byteAt bytes m
    unfold Segment.value Segment.byteAt
    rw [hfold]

/-! ### Safety -/

/-- What a safe load leaves behind. -/
structure SafelyLoaded (opts : Options) (file : List U8) (s' : Machine) : Prop where
  /-- Every header member the loader used lies inside the buffer, every segment it copied lies
  inside buffer and memory, and every address that `memRead8` accepts reads the image. -/
  image : ∃ segs, imageSegments opts file = some segs ∧
    (∀ seg ∈ segs, seg.filesz ≠ 0 → seg.Inside (fileBytes file)) ∧
    ∀ report mem m, foldAddr mem = some m →
      ∃ s'', memRead8 report mem s' = .ok (imageByte (fileBytes file) segs m) s''
  /-- The program counter is the value of `-e`, or the entry of an ELF header that was read. -/
  pc : opts.ep ≠ 0 ∧ s'.cpu.pc = opts.ep ∨
    opts.ep = 0 ∧ opts.raw = 0 ∧ ehEntry (fileBytes file) = some s'.cpu.pc

/-- The loader exits with an error, or loads safely. -/
def LoadsSafely (opts : Options) (file : List U8) (s : Machine) : Prop :=
  (∃ s', load opts file s = .exit (-1) s') ∨
    ∃ s', load opts file s = .ok () s' ∧ SafelyLoaded opts file s'

/-- The condition on the input. With `-r`, the whole file fits at the base address and `-e` is
given. Otherwise the file has a first word, and if that is the magic number, all members of the
headers that the loader reads lie inside the file, and every segment of type `PT_LOAD` is empty or
lies inside the file and inside memory at its address as it is, with no window. -/
structure Loadable (opts : Options) (file : List U8) : Prop where
  raw : opts.raw ≠ 0 → opts.ep ≠ 0 ∧ Segment.Fits (fileBytes file) ⟨opts.raw, 0, fileSize file⟩
  elf : opts.raw = 0 → ∃ magic, peek 32 (fileBytes file) 0 = some magic ∧
    (magic = ELF_MAGIC → ∃ segs, segments (fileBytes file) = some segs ∧
      ∀ seg ∈ segs, seg.Fits (fileBytes file))

section Safety

variable {opts : Options} {file : List U8} {s s' : Machine}

/-- Whatever the loader returns with is safe. -/
theorem safelyLoaded_of_load (h : load opts file s = .ok () s') : SafelyLoaded opts file s' := by
  obtain ⟨segs, pc, hsegs, hfits, hpc, rfl⟩ := load_eq_ok.mp h
  refine ⟨⟨segs, hsegs, fun seg hseg hne => (hfits seg hseg).inside hne, fun report mem m hm => ?_⟩,
    -- The image is that of the file by `loaded_memory`.
    ?_⟩
  · rw [← loaded_memory hfits m]
    exact ⟨_, memRead8_eq_ok.mpr ⟨m, hm, rfl, rfl⟩⟩
  · -- The three branches of the assignment to `pc`.
    change _ ∧ pc = opts.ep ∨ _ ∧ _ ∧ _ = some pc
    unfold initialPc at hpc
    split at hpc
    · rename_i hep
      exact .inl ⟨hep, (Option.some.inj hpc).symm⟩
    · rename_i hep
      split at hpc
      · cases hpc
      · rename_i hraw
        exact .inr ⟨not_not.mp hep, not_not.mp hraw, hpc⟩

/-- The table can only be read if the entry can. -/
theorem entry_of_segments {bytes : List U8} {segs : List Segment} (h : segments bytes = some segs) :
    ∃ entry, ehEntry bytes = some entry := by
  obtain ⟨phoff, -, h⟩ := Option.bind_eq_some_iff.mp h
  obtain ⟨phentsize, -, h⟩ := Option.bind_eq_some_iff.mp h
  obtain ⟨phnum, hphnum, -⟩ := Option.bind_eq_some_iff.mp h
  exact (header_of_phnum hphnum).2.2

/-- **The loader is safe** exactly on the loadable inputs: for every file and every option. -/
theorem load_safe_iff (opts : Options) (file : List U8) (s : Machine) :
    LoadsSafely opts file s ↔ Loadable opts file := by
  constructor
  · rintro (hexit | ⟨s', hload, -⟩)
    · obtain ⟨-, hraw, magic, hmagic, hne⟩ := load_exit_iff.mp hexit
      exact ⟨fun h => absurd hraw h, fun _ => ⟨magic, hmagic, fun h => absurd h hne⟩⟩
    · obtain ⟨segs, pc, hsegs, hfits, hpc, -⟩ := load_eq_ok.mp hload
      unfold imageSegments at hsegs
      unfold initialPc at hpc
      refine ⟨fun hraw => ?_, fun hraw => ?_⟩
      · -- With `-r` the file is the one segment, and without `-e` there is no program counter.
        rw [if_pos hraw] at hsegs hpc
        cases hsegs
        refine ⟨fun hep => ?_, hfits _ (by simp)⟩
        rw [if_neg (not_not.mpr hep)] at hpc
        cases hpc
      · rw [if_neg (not_not.mpr hraw)] at hsegs
        split at hsegs
        · rename_i hmagic
          exact ⟨ELF_MAGIC, hmagic, fun _ => ⟨segs, hsegs, hfits⟩⟩
        · cases hsegs
  · rintro ⟨hrawCond, helfCond⟩
    -- A load that returns is safe, so it is enough that the loader returns or exits.
    suffices h : (∃ s', load opts file s = .exit (-1) s') ∨ ∃ s', load opts file s = .ok () s' by
      rcases h with hexit | ⟨s', hload⟩
      · exact .inl hexit
      · exact .inr ⟨s', hload, safelyLoaded_of_load hload⟩
    by_cases hraw : opts.raw ≠ 0
    · -- a raw file
      obtain ⟨hep, hfits⟩ := hrawCond hraw
      refine .inr ⟨_, load_eq_ok.mpr ⟨[⟨opts.raw, 0, fileSize file⟩], opts.ep, if_pos hraw, ?_,
        if_pos hep, rfl⟩⟩
      intro seg hseg
      rwa [List.mem_singleton.mp hseg]
    · rw [not_not] at hraw
      obtain ⟨magic, hmagic, htable⟩ := helfCond hraw
      by_cases heq : magic = ELF_MAGIC
      · -- an ELF file
        subst heq
        obtain ⟨segs, hsegs, hfits⟩ := htable rfl
        obtain ⟨entry, hentry⟩ := entry_of_segments hsegs
        have himage : imageSegments opts file = some segs := by
          unfold imageSegments
          rw [if_neg (not_not.mpr hraw), if_pos hmagic, hsegs]
        have hpc : ∃ pc, initialPc opts (fileBytes file) = some pc := by
          unfold initialPc
          by_cases hep : opts.ep ≠ 0
          · exact ⟨opts.ep, if_pos hep⟩
          · exact ⟨entry, by rw [if_neg hep, if_neg (not_not.mpr hraw), hentry]⟩
        obtain ⟨pc, hpc⟩ := hpc
        exact .inr ⟨_, load_eq_ok.mpr ⟨segs, pc, himage, hfits, hpc, rfl⟩⟩
      · -- any other file
        exact .inl (load_exit_iff.mpr ⟨rfl, hraw, magic, hmagic, heq⟩)

/-- Without the condition: of a file that is only the magic number, `main` reads a header behind the
end of the buffer. -/
theorem not_load_safe :
    ¬∀ (opts : Options) (file : List U8) (s : Machine), LoadsSafely opts file s := by
  intro hall
  rcases hall {} [0x7f, 0x45, 0x4c, 0x46] Machine.static with ⟨s', h⟩ | ⟨s', h, -⟩
  · cases h
  · cases h

end Safety

end Ps2Unpacker
