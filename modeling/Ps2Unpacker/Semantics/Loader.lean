import Ps2Unpacker.Framework.Overlay
import Ps2Unpacker.Machine.Main

/-!
# What the loader does

The loader is a loop with pointer arithmetic and unchecked reads. Here it is described by the list
of the segments it copies, a function of the input file: `segments` reads the program header table
and keeps the entries of type `PT_LOAD`.

* `loadSegments_eq_ok`: a returning loop has read its whole table, every segment fits file and
  memory, and memory is the overlay of the segments.
* `load_eq_ok`: what `main` has when the emulation starts.
* `load_exit_iff`: the loader exits exactly for a file that is not an ELF file.
-/

namespace Ps2Unpacker

open CProg Lanes

/-! ### Segments -/

/-- A piece of the file, and where it goes. -/
structure Segment where
  vaddr : U32
  offset : U32
  filesz : U32

namespace Segment

/-- The copy stays inside the buffer and inside `memory`. -/
def Fits (bytes : List U8) (seg : Segment) : Prop :=
  seg.filesz = 0 ∨ (seg.offset.toNat + seg.filesz.toNat ≤ bytes.length ∧
    seg.vaddr.toNat + seg.filesz.toNat ≤ MEMSIZE)

instance (bytes : List U8) (seg : Segment) : Decidable (seg.Fits bytes) :=
  inferInstanceAs (Decidable (_ ∨ _))

/-- The copy writes the byte `m`. -/
def writes (seg : Segment) (m : Fin MEMSIZE) : Bool :=
  decide (seg.vaddr.toNat ≤ m.val ∧ m.val < seg.vaddr.toNat + seg.filesz.toNat)

/-- The value it writes there. -/
def value (bytes : List U8) (seg : Segment) (m : Fin MEMSIZE) : U8 :=
  bytes[seg.offset.toNat + (m.val - seg.vaddr.toNat)]?.getD 0

end Segment

/-- The program header at `bytes + eph`, as far as the loader reads it: `none` if a member it reads
lies outside the buffer, and no segment if its type is not `PT_LOAD`. -/
def segmentAt (bytes : List U8) (eph : Int) : Option (Option Segment) := do
  let type ← ephType bytes eph
  if type = PT_LOAD then
    let vaddr ← ephVaddr bytes eph
    let offset ← ephOffset bytes eph
    let filesz ← ephFilesz bytes eph
    pure (some ⟨vaddr, offset, filesz⟩)
  else pure none

/-- The segments of the program headers `i, i + 1, …`, `n` of them. -/
def tableFrom (bytes : List U8) (phoff : U32) (phentsize : U16) : Nat → Nat → Option (List Segment)
  | 0, _ => some []
  | n + 1, i => do
    let seg ← segmentAt bytes (ephPointer phoff phentsize i)
    let rest ← tableFrom bytes phoff phentsize n (i + 1)
    pure (seg.toList ++ rest)

/-- The segments of an ELF file, in the order of its table. -/
def segments (bytes : List U8) : Option (List Segment) := do
  let phoff ← ehPhoff bytes
  let phentsize ← ehPhentsize bytes
  let phnum ← ehPhnum bytes
  tableFrom bytes phoff phentsize phnum.toNat 0

/-- The machine after the copies of `segs`. -/
def Machine.withSegments (bytes : List U8) (segs : List Segment) (s : Machine) : Machine :=
  { s with memory := overlay Segment.writes (Segment.value bytes) segs s.memory }

/-- Segments in two lists are copied one list after the other. -/
theorem withSegments_append (bytes : List U8) (segs segs' : List Segment) (s : Machine) :
    s.withSegments bytes (segs ++ segs') =
      (s.withSegments bytes segs).withSegments bytes segs' := by
  unfold Machine.withSegments overlay
  rw [List.foldl_append]

/-! ### Copies -/

section Copies

variable {bytes : List U8} {s s' : Machine}

/-- One `memcpy` is one write over memory. -/
theorem copyIn_eq (memory : Fin MEMSIZE → U8) (seg : Segment) :
    copyIn memory seg.vaddr.toNat bytes seg.offset.toNat seg.filesz.toNat =
      overlay Segment.writes (Segment.value bytes) [seg] memory := by
  funext m
  change _ = if seg.writes m then seg.value bytes m else memory m
  unfold copyIn Segment.writes Segment.value
  simp only [decide_eq_true_eq]

/-- A copy returns exactly if it fits. -/
theorem loadSection_eq_ok (seg : Segment) {u : Unit} :
    loadSection seg.vaddr bytes seg.offset.toNat seg.filesz s = .ok u s' ↔
      seg.Fits bytes ∧ s' = s.withSegments bytes [seg] := by
  unfold loadSection
  rw [Prog.modify?_eq_ok]
  by_cases hzero : seg.filesz = 0
  · -- Nothing is copied.
    have hsame : s.withSegments bytes [seg] = s := by
      unfold Machine.withSegments
      rw [← copyIn_eq, hzero]
      congr 1
      funext m
      unfold copyIn
      rw [if_neg]
      change ¬(_ ∧ m.val < seg.vaddr.toNat + 0)
      omega
    rw [if_pos hzero, hsame]
    constructor
    · intro h
      exact ⟨.inl hzero, (Option.some.inj h).symm⟩
    · rintro ⟨-, rfl⟩
      rfl
  · rw [if_neg hzero, copyIn_eq]
    unfold Segment.Fits
    simp only [hzero, false_or]
    -- Both ends of the copy are checked, in the file and in memory.
    by_cases hfits : seg.offset.toNat + seg.filesz.toNat ≤ bytes.length ∧
        seg.vaddr.toNat + seg.filesz.toNat ≤ MEMSIZE
    · rw [if_pos hfits]
      constructor
      · intro h
        exact ⟨hfits, (Option.some.inj h).symm⟩
      · rintro ⟨-, rfl⟩
        rfl
    · rw [if_neg hfits]
      constructor
      · intro h
        cases h
      · rintro ⟨h, -⟩
        exact absurd h hfits

/-! ### The table -/

/-- One turn reads its program header, then copies. -/
theorem loadSegment_eq (bytes : List U8) (eph : Int) :
    loadSegment bytes eph = Prog.require (segmentAt bytes eph) >>= fun seg =>
      match seg with
      | some seg => loadSection seg.vaddr bytes seg.offset.toNat seg.filesz
      | none => pure () := by
  unfold loadSegment segmentAt
  cases htype : ephType bytes eph with
  | none => rfl
  | some type =>
    change (if type = PT_LOAD then _ else _) = Prog.require (if type = PT_LOAD then _ else _) >>= _
    by_cases hload : type = PT_LOAD
    · -- The first member outside the buffer stops either side.
      rw [if_pos hload, if_pos hload]
      cases hv : ephVaddr bytes eph with
      | none => rfl
      | some vaddr =>
        cases ho : ephOffset bytes eph with
        | none => rfl
        | some offset =>
          cases hf : ephFilesz bytes eph with
          | none => rfl
          | some filesz => rfl
    · rw [if_neg hload, if_neg hload]
      rfl

/-- A turn returns if its header can be read, and the segment of a `PT_LOAD` entry fits. -/
theorem loadSegment_eq_ok {eph : Int} {u : Unit} :
    loadSegment bytes eph s = .ok u s' ↔
      ∃ seg, segmentAt bytes eph = some seg ∧ (∀ x ∈ seg.toList, x.Fits bytes) ∧
        s' = s.withSegments bytes seg.toList := by
  rw [loadSegment_eq, Prog.bind_eq_ok]
  constructor
  · rintro ⟨seg, s₁, hread, h⟩
    obtain ⟨hseg, rfl⟩ := Prog.require_eq_ok.mp hread
    refine ⟨seg, hseg, ?_⟩
    cases seg with
    | none =>
      cases h
      exact ⟨by simp, rfl⟩
    | some seg =>
      obtain ⟨hfits, rfl⟩ := (loadSection_eq_ok seg).mp h
      exact ⟨by simpa using hfits, rfl⟩
  · rintro ⟨seg, hseg, hfits, rfl⟩
    refine ⟨seg, s, Prog.require_eq_ok.mpr ⟨hseg, rfl⟩, ?_⟩
    cases seg with
    | none => rfl
    | some seg => exact (loadSection_eq_ok seg).mpr ⟨by simpa using hfits, rfl⟩

variable {phoff : U32} {phentsize : U16}

/-- **The loop** reads its whole table and copies the segments in order. -/
theorem loadSegments_eq_ok (hphoff : ehPhoff bytes = some phoff)
    (hphentsize : ehPhentsize bytes = some phentsize) (n : Nat) :
    ∀ (i : Nat) (s : Machine), loadSegments bytes n i (ephPointer phoff phentsize i) s = .ok () s' ↔
      ∃ segs, tableFrom bytes phoff phentsize n i = some segs ∧ (∀ x ∈ segs, x.Fits bytes) ∧
        s' = s.withSegments bytes segs := by
  -- On the number of turns: the first segment, then the segments of the rest of the table over it.
  induction n with
  -- No turn is left: nothing is copied, and the rest of the table is empty.
  | zero =>
    intro i s
    constructor
    · intro h
      cases h
      exact ⟨[], rfl, by simp, rfl⟩
    · rintro ⟨segs, hsegs, -, rfl⟩
      cases hsegs
      rfl
  | succ n ih =>
    intro i s
    unfold loadSegments tableFrom
    rw [hphoff, hphentsize, Prog.bind_eq_ok]
    constructor
    · -- The turn reads the first header; the rest of the loop starts from what it has copied.
      rintro ⟨_, s₁, h₁, h₂⟩
      obtain ⟨seg, hseg, hfits, rfl⟩ := loadSegment_eq_ok.mp h₁
      obtain ⟨rest, hrest, hfits', rfl⟩ := (ih (i + 1) _).mp h₂
      refine ⟨seg.toList ++ rest, by rw [hseg, hrest]; rfl, fun x hx => ?_,
        (withSegments_append bytes _ _ s).symm⟩
      rcases List.mem_append.mp hx with hx | hx
      · exact hfits x hx
      · exact hfits' x hx
    · rintro ⟨segs, hsegs, hfits, rfl⟩
      obtain ⟨seg, hseg, hsegs⟩ := Option.bind_eq_some_iff.mp hsegs
      obtain ⟨rest, hrest, hsegs⟩ := Option.bind_eq_some_iff.mp hsegs
      obtain rfl := Option.some.inj hsegs
      refine ⟨(), s.withSegments bytes seg.toList, loadSegment_eq_ok.mpr
        ⟨seg, hseg, fun x hx => hfits x (List.mem_append_left _ hx), rfl⟩, ?_⟩
      exact (ih (i + 1) _).mpr ⟨rest, hrest, fun x hx => hfits x (List.mem_append_right _ hx),
        withSegments_append bytes _ _ s⟩

/-- Behind the member `phnum` the header has no member the loader reads: a buffer that holds it
holds the members before it. -/
theorem header_of_phnum {phnum : U16} (h : ehPhnum bytes = some phnum) :
    (∃ phoff, ehPhoff bytes = some phoff) ∧ (∃ phentsize, ehPhentsize bytes = some phentsize) ∧
      ∃ entry, ehEntry bytes = some entry := by
  have hin := peek_isSome_iff.mp (Option.isSome_iff_exists.mpr ⟨phnum, h⟩)
  have hlen : 46 ≤ bytes.length := by
    obtain ⟨-, hend⟩ := hin
    omega
  refine ⟨Option.isSome_iff_exists.mp ?_, Option.isSome_iff_exists.mp ?_,
    Option.isSome_iff_exists.mp ?_⟩
  · exact peek_isSome_iff.mpr (by omega)
  · exact peek_isSome_iff.mpr (by omega)
  · exact peek_isSome_iff.mpr (by omega)

/-- The first pointer is the offset of the table. -/
theorem ephPointer_zero (phoff : U32) (phentsize : U16) :
    ephPointer phoff phentsize 0 = phoff.toNat := by
  unfold ephPointer
  simp

/-- The branch for ELF files. -/
theorem loadElf_eq_ok :
    loadElf bytes s = .ok () s' ↔ peek 32 bytes 0 = some ELF_MAGIC ∧
      ∃ segs, segments bytes = some segs ∧ (∀ x ∈ segs, x.Fits bytes) ∧
        s' = s.withSegments bytes segs := by
  unfold loadElf
  rw [Prog.bind_eq_ok]
  constructor
  · rintro ⟨magic, s₁, h₁, h₂⟩
    obtain ⟨hmagic, rfl⟩ := Prog.require_eq_ok.mp h₁
    -- Any other magic number exits.
    by_cases hne : magic ≠ ELF_MAGIC
    · rw [if_pos hne] at h₂
      cases h₂
    · rw [if_neg hne] at h₂
      rw [not_not] at hne
      subst hne
      obtain ⟨phoff, s₂, hread, h₃⟩ := Prog.bind_eq_ok.mp h₂
      obtain ⟨hphoff, rfl⟩ := Prog.require_eq_ok.mp hread
      obtain ⟨phnum, s₃, hread', h₄⟩ := Prog.bind_eq_ok.mp h₃
      obtain ⟨hphnum, rfl⟩ := Prog.require_eq_ok.mp hread'
      obtain ⟨-, ⟨phentsize, hphentsize⟩, -⟩ := header_of_phnum hphnum
      -- The first pointer has the form of the later ones.
      rw [← ephPointer_zero phoff phentsize] at h₄
      obtain ⟨segs, hsegs, hfits, rfl⟩ := (loadSegments_eq_ok hphoff hphentsize _ 0 _).mp h₄
      refine ⟨hmagic, segs, ?_, hfits, rfl⟩
      unfold segments
      rw [hphoff, hphentsize, hphnum]
      exact hsegs
  · rintro ⟨hmagic, segs, hsegs, hfits, rfl⟩
    refine ⟨ELF_MAGIC, s, Prog.require_eq_ok.mpr ⟨hmagic, rfl⟩, ?_⟩
    rw [if_neg (by simp)]
    -- The members of the header that the copies need are there, since the segments are.
    obtain ⟨phoff, hphoff, hsegs⟩ := Option.bind_eq_some_iff.mp hsegs
    obtain ⟨phentsize, hphentsize, hsegs⟩ := Option.bind_eq_some_iff.mp hsegs
    obtain ⟨phnum, hphnum, hsegs⟩ := Option.bind_eq_some_iff.mp hsegs
    refine Prog.bind_eq_ok.mpr ⟨phoff, s, Prog.require_eq_ok.mpr ⟨hphoff, rfl⟩, ?_⟩
    refine Prog.bind_eq_ok.mpr ⟨phnum, s, Prog.require_eq_ok.mpr ⟨hphnum, rfl⟩, ?_⟩
    rw [← ephPointer_zero phoff phentsize]
    exact (loadSegments_eq_ok hphoff hphentsize _ 0 s).mpr ⟨segs, hsegs, hfits, rfl⟩

/-- The loop goes wrong or returns. -/
theorem loadSegments_neverExits (n : Nat) :
    ∀ (i : Nat) (eph : Int), (loadSegments bytes n i eph).NeverExits := by
  induction n with
  | zero => exact fun i eph => Prog.neverExits_pure ()
  | succ n ih =>
    intro i eph
    -- A turn, and the two members read again after it.
    refine Prog.neverExits_bind ?_ fun _ =>
      Prog.neverExits_bind (Prog.neverExits_require _) fun _ =>
      Prog.neverExits_bind (Prog.neverExits_require _) fun _ => ih _ _
    rw [loadSegment_eq]
    refine Prog.neverExits_bind (Prog.neverExits_require _) fun seg => ?_
    cases seg with
    | none => exact Prog.neverExits_pure ()
    | some seg => exact Prog.neverExits_modify? _

/-- The loader exits only for a file that is not an ELF file, with the error status. -/
theorem loadElf_exit_iff {status : Int} :
    (∃ s', loadElf bytes s = .exit status s') ↔
      status = -1 ∧ ∃ magic, peek 32 bytes 0 = some magic ∧ magic ≠ ELF_MAGIC := by
  unfold loadElf
  cases hmagic : peek 32 bytes 0 with
  -- A file of less than four bytes goes wrong, and does not exit.
  | none =>
    constructor
    · rintro ⟨s', h⟩
      cases h
    · rintro ⟨-, magic, h, -⟩
      cases h
  | some magic =>
    rw [Prog.require_some_bind]
    by_cases hne : magic ≠ ELF_MAGIC
    · rw [if_pos hne]
      constructor
      · rintro ⟨s', h⟩
        cases h
        exact ⟨rfl, magic, rfl, hne⟩
      · rintro ⟨rfl, -⟩
        exact ⟨_, rfl⟩
    · -- Past the magic number no error is reported any more.
      rw [if_neg hne]
      constructor
      · rintro ⟨s', h⟩
        refine absurd h (Prog.neverExits_bind (Prog.neverExits_require _) (fun _ =>
          Prog.neverExits_bind (Prog.neverExits_require _) fun _ => ?_) _ _ _)
        exact loadSegments_neverExits _ _ _
      · rintro ⟨-, magic', h, hne'⟩
        cases h
        exact absurd hne' hne

end Copies

/-! ### The whole loader -/

section Load

variable {opts : Options} {file : List U8} {s s' : Machine}

/-- The segments `main` copies: with `-r` the whole file, else those of the ELF file. -/
def imageSegments (opts : Options) (file : List U8) : Option (List Segment) :=
  if opts.raw ≠ 0 then some [⟨opts.raw, 0, fileSize file⟩]
  else if peek 32 (fileBytes file) 0 = some ELF_MAGIC then segments (fileBytes file)
  else none

/-- The machine when the emulation starts. -/
def Machine.loaded (bytes : List U8) (segs : List Segment) (pc : U32) (s : Machine) : Machine :=
  { s with
    memory := overlay Segment.writes (Segment.value bytes) segs fun _ => 0
    tags := fun _ => 0
    cpu := CpuRegisters.zeroed pc }

/-- The copies of `main`, after `mem_init`. -/
theorem loadImage_eq_ok :
    loadImage opts file s = .ok () s' ↔
      ∃ segs, imageSegments opts file = some segs ∧ (∀ x ∈ segs, x.Fits (fileBytes file)) ∧
        s' = s.withSegments (fileBytes file) segs := by
  unfold loadImage imageSegments
  -- With `-r` the image is one segment, which is not looked up in the file.
  by_cases hraw : opts.raw ≠ 0
  · rw [if_pos hraw, if_pos hraw]
    have hcopy := @loadSection_eq_ok (fileBytes file) s s' ⟨opts.raw, 0, fileSize file⟩ ()
    refine hcopy.trans ⟨fun h => ⟨_, rfl, by simpa using h.1, h.2⟩, ?_⟩
    rintro ⟨segs, hsegs, hfits, rfl⟩
    cases hsegs
    exact ⟨hfits _ (by simp), rfl⟩
  · rw [if_neg hraw, if_neg hraw, loadElf_eq_ok]
    constructor
    · rintro ⟨hmagic, h⟩
      rwa [if_pos hmagic]
    · rintro ⟨segs, hsegs, h⟩
      split at hsegs
      · rename_i hmagic
        exact ⟨hmagic, segs, hsegs, h⟩
      · cases hsegs

/-- **The loader** returns exactly if it can read all headers it uses, every segment fits, and there
is an initial program counter. -/
theorem load_eq_ok :
    load opts file s = .ok () s' ↔
      ∃ segs pc, imageSegments opts file = some segs ∧ (∀ x ∈ segs, x.Fits (fileBytes file)) ∧
        initialPc opts (fileBytes file) = some pc ∧ s' = s.loaded (fileBytes file) segs pc := by
  unfold load memInit
  rw [Prog.modify_bind, Prog.bind_eq_ok]
  constructor
  · rintro ⟨_, s₁, h₁, h₂⟩
    obtain ⟨segs, hsegs, hfits, rfl⟩ := loadImage_eq_ok.mp h₁
    obtain ⟨pc, s₂, hread, h₃⟩ := Prog.bind_eq_ok.mp h₂
    obtain ⟨hpc, rfl⟩ := Prog.require_eq_ok.mp hread
    cases h₃
    exact ⟨segs, pc, hsegs, hfits, hpc, rfl⟩
  · rintro ⟨segs, pc, hsegs, hfits, hpc, rfl⟩
    refine ⟨(), _, loadImage_eq_ok.mpr ⟨segs, hsegs, hfits, rfl⟩, ?_⟩
    rw [hpc]
    rfl

/-- The emulation starts in a state of the form the properties of runs start from. -/
theorem load_start {memory : Fin MEMSIZE → U8} {pc : U32} {trace : Bool}
    (h : load opts file (Machine.start memory pc trace) = .ok () s') :
    ∃ image entry, s' = Machine.start image entry trace := by
  obtain ⟨segs, entry, -, -, -, rfl⟩ := load_eq_ok.mp h
  exact ⟨_, entry, rfl⟩

/-- **The loader exits** exactly for a file that is not an ELF file, with the error status. -/
theorem load_exit_iff {status : Int} :
    (∃ s', load opts file s = .exit status s') ↔
      status = -1 ∧ opts.raw = 0 ∧
        ∃ magic, peek 32 (fileBytes file) 0 = some magic ∧ magic ≠ ELF_MAGIC := by
  -- Behind the copies only the program counter is missing, and that does not exit.
  have htail : (Prog.require (initialPc opts (fileBytes file)) >>= fun pc =>
      modifyCpu fun _ => CpuRegisters.zeroed pc).NeverExits :=
    Prog.neverExits_bind (Prog.neverExits_require _) fun pc s status s' h => by cases h
  unfold load memInit loadImage
  rw [Prog.modify_bind]
  by_cases hraw : opts.raw ≠ 0
  · rw [if_pos hraw]
    constructor
    · rintro ⟨s', h⟩
      exact absurd h (Prog.neverExits_bind (Prog.neverExits_modify? _) (fun _ => htail) _ _ _)
    · rintro ⟨-, hzero, -⟩
      exact absurd hzero hraw
  · rw [if_neg hraw]
    rw [not_not] at hraw
    constructor
    · rintro ⟨s', h⟩
      rw [Prog.bind_apply] at h
      split at h
      · -- Of the outcomes of the copies, only an exit is one of the loader.
        exact absurd h (htail _ _ _)
      · rename_i status' s₁ hexit
        cases h
        obtain ⟨hstatus, hmagic⟩ := loadElf_exit_iff.mp ⟨_, hexit⟩
        exact ⟨hstatus, hraw, hmagic⟩
      · cases h
      · cases h
    · rintro ⟨hstatus, -, hmagic⟩
      obtain ⟨s', hexit⟩ := loadElf_exit_iff.mpr ⟨hstatus, hmagic⟩
      exact ⟨s', Prog.bind_exit_of hexit⟩

end Load

end Ps2Unpacker
