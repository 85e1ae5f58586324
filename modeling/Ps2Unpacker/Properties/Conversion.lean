import Ps2Unpacker.Properties.Endless

/-!
# Conversion

With `-n` nothing is emulated: the program loads a file and writes it out again, as an ELF file with
one segment. This is how a raw image becomes an ELF file, and one with several segments one with a
single segment. The conversion is right if the file that is written means what the input meant.

* `Means`: what a file means to the loader.
* `converts_iff`: what is written with `-n`, and when.
* `lossless_iff`: when the file that is written means the same.
* `raw_wrap`: a raw image that fits becomes an ELF file that means it, files permitting.
-/

namespace Ps2Unpacker

open CProg Lanes Prog

/-! ### Meaning -/

/-- Loading the file, with no options, gives this memory and this program counter. -/
def Means (file : List U8) (image : Fin MEMSIZE → U8) (entry : U32) : Prop :=
  ∀ s, load {} file s = .ok () { s with
    memory := image
    tags := fun _ => 0
    cpu := CpuRegisters.zeroed entry }

/-- A file means one image and one entry point. -/
theorem Means.unique {file : List U8} {image image' : Fin MEMSIZE → U8} {entry entry' : U32}
    (h : Means file image entry) (h' : Means file image' entry') :
    image = image' ∧ entry = entry' := by
  have hsame := (h Machine.static).symm.trans (h' Machine.static)
  rw [Outcome.ok.injEq] at hsame
  exact ⟨congrArg Machine.memory hsame.2, congrArg (fun s => s.cpu.pc) hsame.2⟩

/-- The output means the image, cut to its range. -/
theorem dumpFile_means {lo hi : U32} (hrange : IsRange lo hi) (memory : Fin MEMSIZE → U8)
    (entry : U32) :
    Means (dumpFile lo hi entry (bytesOf memory lo hi)) (restrict memory lo hi) entry :=
  fun s => load_dumpFile hrange memory entry {} rfl (.inl rfl) s

/-- Nothing is lost outside of the range exactly if there is nothing. -/
theorem restrict_eq_iff {memory : Fin MEMSIZE → U8} {lo hi : U32} :
    restrict memory lo hi = memory ↔ ∀ m, memory m ≠ 0 → lo.toNat ≤ m.val ∧ m.val < hi.toNat := by
  -- A byte outside of the range is restored as zero.
  constructor
  · intro h m hm
    by_contra hout
    refine hm ?_
    rw [← h]
    exact if_neg hout
  · intro h
    funext m
    unfold restrict
    split
    · rfl
    · rename_i hout
      by_contra hne
      exact hout (h m fun hzero => hne hzero.symm)

/-! ### The range -/

/-- `lo_base` with `-n`. -/
def Options.low (opts : Options) : U32 := if opts.lo = 0 then opts.raw else opts.lo

/-- `hi_base` with `-n`, for a file of this size. -/
def Options.high (opts : Options) (size : U32) : U32 :=
  if opts.hi = 0 then opts.raw + size else opts.hi

section Conversion

variable {host : Host} {fuel : Nat} {opts : Options} {file out : List U8} {files : Files}
  {outname : String}

/-- With `-n` there is only the output file. -/
theorem main_norun_iff {args : List Opt} {names : List String} {trace : Bool}
    {image : Fin MEMSIZE → U8} {pc : U32} {s : Machine} (hinput : files.Input names file outname)
    (hstart : Starts args file opts trace (Machine.start image pc trace))
    (hnorun : opts.norun = true) :
    main host fuel args names files Machine.static = .ok out s ↔
      files.Writes outname opts.low (opts.high (fileSize file)) ∧
      IsRange opts.low (opts.high (fileSize file)) ∧
      out = dumpFile opts.low (opts.high (fileSize file)) opts.ep
        (bytesOf image opts.low (opts.high (fileSize file))) ∧
      s = { Machine.start image pc trace with bouncePc := opts.ep } := by
  -- With `-n` the options, the file and the range are all there is, and none of it is run.
  obtain ⟨elfname, rfl, hreads⟩ := hinput
  obtain ⟨hopts, hload⟩ := hstart
  -- The file is there and is read, so only the range and the output are left.
  have hread : readElf files elfname (Machine.start (fun _ => 0) 0 trace) =
      .ok file (Machine.start (fun _ => 0) 0 trace) := readElf_eq_ok.mpr ⟨hreads, rfl⟩
  rw [main_eq, bind_ok_of hopts]
  change (readElf files elfname >>= unpackFile host fuel files outname opts) _ = _ ↔ _
  rw [bind_ok_of hread, unpackFile_of_norun hload hnorun]
  exact writeElf_eq_ok.trans (and_congr_right' dump_eq_ok)

end Conversion

/-- **Conversion.** With `-n` a file is written exactly if the command line names two files and its
options are read, the input is read and loaded, the options give a range, and the output can be
written. The file has one segment: the bytes of the image in that range; its entry point is that of
`-e`. -/
theorem converts_iff (host : Host) (fuel : Nat) (args : List Opt) (names : List String)
    (files : Files) (out : List U8) :
    (.norun ∈ args ∧ ∃ s, main host fuel args names files Machine.static = .ok out s) ↔
    ∃ file outname opts trace image pc, files.Input names file outname ∧
      Starts args file opts trace (Machine.start image pc trace) ∧ opts.norun = true ∧
      IsRange opts.low (opts.high (fileSize file)) ∧
      files.Writes outname opts.low (opts.high (fileSize file)) ∧
      out = dumpFile opts.low (opts.high (fileSize file)) opts.ep
        (bytesOf image opts.low (opts.high (fileSize file))) := by
  constructor
  · -- A run that writes a file has read its input and loaded it.
    rintro ⟨hnorun, s, h⟩
    obtain ⟨outname, opts, file, trace, hinput, hn, hopts, hunpack⟩ := main_eq_ok h
    obtain ⟨image, pc, _, _, hload, -⟩ := unpackFile_eq_ok hunpack
    have hstart : Starts args file opts trace (Machine.start image pc trace) := ⟨hopts, hload⟩
    -- What it writes is decided by the range and the image.
    obtain ⟨hwrites, hrange, rfl, -⟩ := (main_norun_iff hinput hstart (hn.mpr hnorun)).mp h
    exact ⟨file, outname, opts, trace, image, pc, hinput, hstart, hn.mpr hnorun, hrange, hwrites,
      rfl⟩
  · -- Conversely, the options say `-n` because the command line does.
    rintro ⟨file, outname, opts, trace, image, pc, hinput, hstart, hnorun, hrange, hwrites, rfl⟩
    refine ⟨?_, _, (main_norun_iff hinput hstart hnorun).mpr ⟨hwrites, hrange, rfl, rfl⟩⟩
    -- The options start without it.
    obtain hoff | hmem := (getOptions_ensures args {} hstart.options).2.mp hnorun
    · cases hoff
    · exact hmem

/-- **When a conversion is lossless.** For an input that is loaded as `image` with program counter
`pc`: with `-n`, a file that means the same is written exactly if the output can be written, `-e`
gives that program counter, the options give a range, and no byte of the image outside of it is
other than zero. -/
theorem lossless_iff {args : List Opt} {names : List String} {files : Files} {file : List U8}
    {outname : String} {opts : Options} {trace : Bool} {image : Fin MEMSIZE → U8} {pc : U32}
    (hinput : files.Input names file outname)
    (hstart : Starts args file opts trace (Machine.start image pc trace))
    (hnorun : opts.norun = true) (host : Host) (fuel : Nat) :
    (∃ out s, main host fuel args names files Machine.static = .ok out s ∧
      Means out image pc) ↔
    files.Writes outname opts.low (opts.high (fileSize file)) ∧
      opts.ep = pc ∧ IsRange opts.low (opts.high (fileSize file)) ∧
      ∀ m, image m ≠ 0 →
        opts.low.toNat ≤ m.val ∧ m.val < (opts.high (fileSize file)).toNat := by
  -- The range has to hold every byte that is not zero, and `-e` the entry point.
  simp only [main_norun_iff hinput hstart hnorun, ← restrict_eq_iff]
  constructor
  · rintro ⟨out, s, ⟨hwrites, hrange, rfl, -⟩, hmeans⟩
    -- The output means one image, so it is the one that was loaded.
    obtain ⟨himage, hentry⟩ := (dumpFile_means hrange image opts.ep).unique hmeans
    exact ⟨hwrites, hentry, hrange, himage⟩
  · rintro ⟨hwrites, rfl, hrange, himage⟩
    refine ⟨_, _, ⟨hwrites, hrange, rfl, rfl⟩, ?_⟩
    have hmeans := dumpFile_means hrange image opts.ep
    rwa [himage] at hmeans

/-! ### Raw images -/

/-- Memory with the bytes of a file at an address. -/
def rawImage (base : U32) (file : List U8) : Fin MEMSIZE → U8 := fun m =>
  if base.toNat ≤ m.val ∧ m.val < base.toNat + file.length then
    file[m.val - base.toNat]?.getD 0
  else 0

section Raw

variable {base ep : U32} {file : List U8}

/-- A raw image is loaded as one segment. -/
theorem load_raw (hbase : base ≠ 0) (hep : ep ≠ 0) (hfits : base.toNat + file.length ≤ MEMSIZE)
    (s : Machine) :
    load { raw := base, ep := ep, norun := true } file s = .ok () { s with
      memory := rawImage base file
      tags := fun _ => 0
      cpu := CpuRegisters.zeroed ep } := by
  have hsize := MEMSIZE_eq
  -- The size is not cut by its type, since the file fits into memory.
  have hlength : file.length < 2 ^ 32 := by omega
  have htoNat : (fileSize file).toNat = file.length := by
    unfold fileSize
    rw [BitVec.toNat_ofNat, Nat.mod_eq_of_lt hlength]
  refine load_eq_ok.mpr ⟨[⟨base, 0, fileSize file⟩], ep, if_pos hbase, fun seg hseg => ?_,
    if_pos hep, ?_⟩
  · -- The segment fits, at both ends.
    rw [List.mem_singleton.mp hseg, fileBytes_eq hlength]
    refine .inr ⟨?_, ?_⟩
    · change 0 + (fileSize file).toNat ≤ _
      rw [htoNat, Nat.zero_add]
    · change base.toNat + (fileSize file).toNat ≤ _
      rw [htoNat]
      exact hfits
  · -- Its bytes are the image, and the rest is zero.
    unfold Machine.loaded
    congr 1
    funext m
    change _ = if Segment.writes ⟨base, 0, fileSize file⟩ m then
      Segment.value (fileBytes file) ⟨base, 0, fileSize file⟩ m else 0
    unfold rawImage Segment.writes Segment.value
    have hoffset : (0 : U32).toNat = 0 := rfl
    simp only [htoNat, fileBytes_eq hlength, decide_eq_true_eq, hoffset, Nat.zero_add]

/-- **Wrapping** a raw image. A file that fits into memory at its base address is converted by `-n`
with the base address and an entry point, if it can be read and the output can be written; and the
ELF file that is written means that image and that entry point. -/
theorem raw_wrap (hbase : base ≠ 0) (hep : ep ≠ 0) (hfits : base.toNat + file.length ≤ MEMSIZE)
    {files : Files} {elfname outname : String} (hreads : files.Reads elfname file)
    (hwrites : files.Writes outname base (base + fileSize file)) (host : Host) (fuel : Nat) :
    ∃ out s, main host fuel [.norun, .raw base.toNat, .ep ep.toNat] [elfname, outname] files
      Machine.static = .ok out s ∧ Means out (rawImage base file) ep := by
  have hsize := MEMSIZE_eq
  -- The numbers of the command line come back as words.
  have hread : ∀ x : U32, BitVec.ofInt 32 x.toNat = x := fun x => by
    rw [BitVec.ofInt_natCast, BitVec.ofNat_toNat, BitVec.setWidth_eq]
  have hopts : getOptions [.norun, .raw base.toNat, .ep ep.toNat] {} Machine.static =
      .ok { raw := base, ep := ep, norun := true } Machine.static := by
    change Outcome.ok _ _ = _
    rw [hread, hread]
  have hhigh : (base + fileSize file).toNat = base.toNat + file.length := by
    unfold fileSize
    rw [BitVec.toNat_add, BitVec.toNat_ofNat]
    omega
  -- The range is that of the image.
  have hin : IsRange base (base + fileSize file) := ⟨by omega, .inr (by omega)⟩
  have hnonzero : base + fileSize file ≠ 0 := by
    intro hzero
    rw [hzero] at hhigh
    change 0 = _ at hhigh
    exact hbase (BitVec.eq_of_toNat_eq (by change base.toNat = 0; omega))
  -- Every byte of the image that is not zero lies in the range.
  have himage : restrict (rawImage base file) base (base + fileSize file) = rawImage base file := by
    refine restrict_eq_iff.mpr fun m hm => ?_
    by_contra hout
    refine hm (if_neg ?_)
    rwa [← hhigh]
  refine ⟨_, _, (main_norun_iff ⟨elfname, rfl, hreads⟩ ⟨hopts, load_raw hbase hep hfits _⟩ rfl).mpr
    ⟨hwrites, hin, rfl, rfl⟩, ?_⟩
  have hmeans := dumpFile_means hin (rawImage base file) ep
  rwa [himage] at hmeans

/-- Four bytes at `0x100`. -/
theorem raw_wrap_word : ∃ out s,
    main .flat 0 [.norun, .raw 0x100, .ep 0x100] ["in", "out"] (.holding [8, 0, 0xe0, 3])
      Machine.static = .ok out s ∧ Means out (rawImage 0x100 [8, 0, 0xe0, 3]) 0x100 :=
  @raw_wrap 0x100 0x100 [8, 0, 0xe0, 3] (by decide) (by decide) (by decide)
    (.holding [8, 0, 0xe0, 3]) "in" "out" (Files.holding_reads _ _) (Files.holding_writes _ _ _ _)
    .flat 0

/-- The same bytes, and the first two of them: the second conversion loses the others. -/
theorem lossless_iff_word :
    (∃ out s, main .flat 0 [.norun, .raw 0x100, .ep 0x100] ["in", "out"]
      (.holding [8, 0, 0xe0, 3]) Machine.static = .ok out s ∧
        Means out (rawImage 0x100 [8, 0, 0xe0, 3]) 0x100) ∧
    ¬∃ out s, main .flat 0 [.norun, .raw 0x100, .ep 0x100, .hi 0x102] ["in", "out"]
      (.holding [8, 0, 0xe0, 3]) Machine.static = .ok out s ∧
        Means out (rawImage 0x100 [8, 0, 0xe0, 3]) 0x100 := by
  have hinput : (Files.holding [8, 0, 0xe0, 3]).Input ["in", "out"] [8, 0, 0xe0, 3] "out" :=
    ⟨"in", rfl, Files.holding_reads _ _⟩
  have hload := @load_raw 0x100 0x100 [8, 0, 0xe0, 3] (by decide) (by decide) (by decide)
    Machine.static
  have hwhole : Starts [.norun, .raw 0x100, .ep 0x100] [8, 0, 0xe0, 3]
      { raw := 0x100, ep := 0x100, norun := true } false
      (Machine.start (rawImage 0x100 [8, 0, 0xe0, 3]) 0x100 false) := ⟨rfl, hload⟩
  have hpart : Starts [.norun, .raw 0x100, .ep 0x100, .hi 0x102] [8, 0, 0xe0, 3]
      { raw := 0x100, ep := 0x100, hi := 0x102, norun := true } false
      (Machine.start (rawImage 0x100 [8, 0, 0xe0, 3]) 0x100 false) := ⟨rfl, hload⟩
  constructor
  · -- The whole range is written,
    refine (lossless_iff hinput hwhole rfl .flat 0).mpr
      ⟨Files.holding_writes _ _ _ _, rfl, ⟨by decide, .inr (by decide)⟩, fun m hm => ?_⟩
    by_contra hout
    exact hm (if_neg hout)
  · -- and the byte at `0x103` is lost behind the end of the shorter one.
    intro hlossless
    obtain ⟨-, -, -, hall⟩ := (lossless_iff hinput hpart rfl .flat 0).mp hlossless
    exact absurd (hall ⟨0x103, by decide⟩ (by decide)).2 (by decide)

end Raw

end Ps2Unpacker
