import Ps2Unpacker.Properties.ElfRoundTrip
import Ps2Unpacker.Properties.RangeSafety
import Ps2Unpacker.Properties.Refinement

/-!
# The output

What the whole program writes: from the command line to the file, and from the file back.

* `dump_eq_ok`: the dump of a range, and when there is one.
* `readElf_eq_ok`, `writeElf_eq_ok`: the input and the output file, and what `main` tests of them.
* `load_dumpFile`: such a file loads back to the range.
* `main_eq_ok`, `unpackFile_eq_ok`: the phases of a run that writes a file.
* `unpacks`: without `-n`, the file loads as the memory of the emulated machine at the moment it
  first knows the entry point.
* `repack`: a file the program wrote is written again, unchanged, by `-n` with its range and entry
  point.
-/

namespace Ps2Unpacker

open CProg Lanes

/-! ### Ranges -/

/-- The bytes of a range. -/
def bytesOf (memory : Fin MEMSIZE → U8) (lo hi : U32) : List U8 :=
  (List.range (hi.toNat - lo.toNat)).map fun k =>
    if h : lo.toNat + k < MEMSIZE then memory ⟨lo.toNat + k, h⟩ else 0

/-- The memory with zeros outside of the range. -/
def restrict (memory : Fin MEMSIZE → U8) (lo hi : U32) : Fin MEMSIZE → U8 := fun m =>
  if lo.toNat ≤ m.val ∧ m.val < hi.toNat then memory m else 0

/-- The range is empty, or in order and inside memory. -/
structure IsRange (lo hi : U32) : Prop where
  le : lo.toNat ≤ hi.toNat
  inside : lo = hi ∨ hi.toNat ≤ MEMSIZE

/-- The range has as many bytes as lie between its ends. -/
theorem length_bytesOf (memory : Fin MEMSIZE → U8) (lo hi : U32) :
    (bytesOf memory lo hi).length = hi.toNat - lo.toNat := by
  unfold bytesOf
  rw [List.length_map, List.length_range]

/-- Its bytes are those of memory. -/
theorem getElem?_bytesOf (memory : Fin MEMSIZE → U8) {lo hi : U32} {m : Fin MEMSIZE}
    (hlo : lo.toNat ≤ m.val) (hhi : m.val < hi.toNat) :
    (bytesOf memory lo hi)[m.val - lo.toNat]? = some (memory m) := by
  have hm : lo.toNat + (m.val - lo.toNat) = m.val := by omega
  unfold bytesOf
  rw [List.getElem?_map, List.getElem?_range (by omega), Option.map_some]
  simp only [hm, m.isLt, dif_pos, Fin.eta]

/-- Only the memory in the range counts. -/
theorem bytesOf_restrict (memory : Fin MEMSIZE → U8) (lo hi : U32) :
    bytesOf (restrict memory lo hi) lo hi = bytesOf memory lo hi := by
  unfold bytesOf
  refine List.map_congr_left fun k hk => ?_
  have hlt := List.mem_range.mp hk
  split
  · unfold restrict
    exact if_pos (by dsimp only; omega)
  · rfl

variable {lo hi : U32} {s s' : Machine} {file out : List U8}

/-- **The bytes of the segment.** They are written exactly for a range of the memory array. -/
theorem dumpSection_eq_ok {data : List U8} :
    dumpSection lo (hi - lo) s = .ok data s' ↔
      IsRange lo hi ∧ data = bytesOf s.memory lo hi ∧ s' = s := by
  have hsize := MEMSIZE_eq
  have hlo := lo.isLt
  have hhi := hi.isLt
  by_cases hle : lo.toNat ≤ hi.toNat
  · have hsub : (hi - lo).toNat = hi.toNat - lo.toNat := dumpSegment_size hle
    unfold dumpSection
    rw [Prog.get_bind, hsub]
    by_cases hzero : hi - lo = 0
    · -- Empty: no byte is read, wherever the range lies.
      have hempty : hi.toNat - lo.toNat = 0 := by rw [← hsub, hzero]; rfl
      have heq : lo = hi := BitVec.eq_of_toNat_eq (by omega)
      have hbytes : bytesOf s.memory lo hi = [] := by
        unfold bytesOf
        rw [hempty]
        rfl
      rw [if_pos hzero, hbytes]
      constructor
      · intro h
        cases h
        exact ⟨⟨hle, .inl heq⟩, rfl, rfl⟩
      · rintro ⟨-, rfl, rfl⟩
        rfl
    · have hne : lo ≠ hi := by
        rintro rfl
        exact hzero (BitVec.sub_self lo)
      rw [if_neg hzero]
      -- Not empty: every byte read must lie in the array.
      by_cases hin : hi.toNat ≤ MEMSIZE
      · rw [if_pos (by omega)]
        constructor
        · intro h
          cases h
          exact ⟨⟨hle, .inr hin⟩, rfl, rfl⟩
        · rintro ⟨-, rfl, rfl⟩
          rfl
      · rw [if_neg (by omega)]
        constructor
        · exact nofun
        · rintro ⟨hrange, -⟩
          exact absurd (hrange.inside.resolve_left hne) hin
  · -- The difference wraps, and the range leaves memory.
    have hsub : (hi - lo).toNat = 2 ^ 32 - lo.toNat + hi.toNat := by
      rw [BitVec.toNat_sub]
      omega
    have hzero : hi - lo ≠ 0 := by
      intro h
      rw [h] at hsub
      change 0 = _ at hsub
      omega
    unfold dumpSection
    rw [Prog.get_bind, if_neg hzero, if_neg (by omega)]
    constructor
    · exact nofun
    · rintro ⟨hrange, -⟩
      exact absurd hrange.le hle

/-- **The dump** of a range. -/
theorem dump_eq_ok : dump lo hi s = .ok file s' ↔
    IsRange lo hi ∧ file = dumpFile lo hi s.bouncePc (bytesOf s.memory lo hi) ∧ s' = s := by
  unfold dump
  rw [Prog.get_bind, Prog.bind_eq_ok]
  -- The headers are written first, and the bytes follow at `0x1000`.
  constructor
  · rintro ⟨data, s₁, hdata, h⟩
    obtain ⟨hrange, rfl, rfl⟩ := dumpSection_eq_ok.mp hdata
    cases h
    exact ⟨hrange, writeAt_headers _ _, rfl⟩
  · rintro ⟨hrange, rfl, rfl⟩
    refine ⟨_, _, dumpSection_eq_ok.mpr ⟨hrange, rfl, rfl⟩, ?_⟩
    rw [writeAt_headers]
    rfl

/-! ### Files -/

/-- `main` reads the file without an error. -/
structure Files.Reads (files : Files) (elfname : String) (file : List U8) : Prop where
  opens : files.fopenRead elfname = some file
  bytes : fileSize file = 0 ∨ files.fread elfname = true

/-- The command line names an input file, which is read as `file`, and the output file. -/
def Files.Input (files : Files) (names : List String) (file : List U8) (outname : String) : Prop :=
  ∃ elfname, names = [elfname, outname] ∧ files.Reads elfname file

/-- `main` writes a range without an error. -/
structure Files.Writes (files : Files) (outname : String) (lo hi : U32) : Prop where
  opens : files.fopenWrite outname = true
  weh : files.fwrite outname .weh = true
  weph : files.fwrite outname .weph = true
  bytes : lo = hi ∨ files.fwrite outname .bytes = true

/-- The host that holds the file delivers it under every name. -/
theorem Files.holding_reads (file : List U8) (elfname : String) :
    (Files.holding file).Reads elfname file := ⟨rfl, .inr rfl⟩

/-- It accepts every output. -/
theorem Files.holding_writes (file : List U8) (outname : String) (lo hi : U32) :
    (Files.holding file).Writes outname lo hi := ⟨rfl, rfl, rfl, .inr rfl⟩

section Files

variable {files : Files} {elfname outname : String}

/-- A check passes or ends the program. -/
theorem check_eq_ok {c : Bool} {msg : Message} {u : Unit} :
    check c msg s = .ok u s' ↔ c = true ∧ s = s' := by
  unfold check
  split
  · rename_i hc
    rw [Prog.pure_eq_ok]
    exact ⟨fun h => ⟨hc, h.2⟩, fun h => ⟨rfl, h.2⟩⟩
  · rename_i hc
    exact iff_of_false nofun fun h => hc h.1

/-- **Reading** the input file. -/
theorem readElf_eq_ok : readElf files elfname s = .ok file s' ↔
    files.Reads elfname file ∧ s = s' := by
  unfold readElf
  cases hopen : files.fopenRead elfname with
  | none =>
    -- `fopen` fails, and the program exits.
    refine iff_of_false nofun fun h => ?_
    cases hopen.symm.trans h.1.opens
  | some content =>
    rw [Prog.bind_eq_ok]
    constructor
    · -- A short `fread` is an exit unless the file is empty.
      rintro ⟨u, s₁, hcheck, h⟩
      obtain ⟨hbytes, rfl⟩ := check_eq_ok.mp hcheck
      obtain ⟨rfl, rfl⟩ := Prog.pure_eq_ok.mp h
      exact ⟨⟨hopen, by simpa using hbytes⟩, rfl⟩
    · rintro ⟨⟨hopen', hbytes⟩, rfl⟩
      cases hopen.symm.trans hopen'
      exact ⟨(), s, check_eq_ok.mpr ⟨by simpa using hbytes, rfl⟩, rfl⟩

/-- **Writing** the output file. -/
theorem writeElf_eq_ok : writeElf files outname lo hi s = .ok out s' ↔
    files.Writes outname lo hi ∧ dump lo hi s = .ok out s' := by
  -- `fwrite` is asked for no byte exactly if the range is empty.
  have hzero : hi - lo = 0 ↔ lo = hi := by
    constructor
    · intro h
      bv_omega
    · rintro rfl
      exact BitVec.sub_self lo
  have hempty : (decide (hi - lo = 0) || files.fwrite outname .bytes) = true ↔
      lo = hi ∨ files.fwrite outname .bytes = true := by
    rw [Bool.or_eq_true, decide_eq_true_eq, hzero]
  unfold writeElf
  simp only [Prog.bind_eq_ok, check_eq_ok, Prog.pure_eq_ok]
  -- The four checks in the order of the source.
  constructor
  · rintro ⟨_, _, ⟨hopen, rfl⟩, _, _, ⟨hweh, rfl⟩, _, _, ⟨hweph, rfl⟩, _, _, hdump, _, _,
      ⟨hbytes, rfl⟩, rfl, rfl⟩
    exact ⟨⟨hopen, hweh, hweph, hempty.mp hbytes⟩, hdump⟩
  · rintro ⟨⟨hopen, hweh, hweph, hbytes⟩, hdump⟩
    exact ⟨(), s, ⟨hopen, rfl⟩, (), s, ⟨hweh, rfl⟩, (), s, ⟨hweph, rfl⟩, out, s', hdump, (), s',
      ⟨hempty.mpr hbytes, rfl⟩, rfl, rfl⟩

end Files

/-! ### A file that was written, loaded -/

/-- The one segment of a file the program wrote fits. -/
theorem segment_fits (hrange : IsRange lo hi) (memory : Fin MEMSIZE → U8) (entry : U32) :
    Segment.Fits (dumpFile lo hi entry (bytesOf memory lo hi)) ⟨lo, 0x1000, hi - lo⟩ := by
  rcases hrange.inside with rfl | hin
  · exact .inl (BitVec.sub_self lo)
  · exact dumpSegment_fits hrange.le entry hin (length_bytesOf _ _ _)

/-- The file keeps all its bytes when it is read back, being shorter than 2 GiB. -/
theorem fileBytes_output (hrange : IsRange lo hi) (memory : Fin MEMSIZE → U8) (entry : U32) :
    fileBytes (dumpFile lo hi entry (bytesOf memory lo hi)) =
      dumpFile lo hi entry (bytesOf memory lo hi) := by
  apply fileBytes_dumpFile
  rw [length_bytesOf]
  rcases hrange.inside with rfl | hin
  · omega
  · omega

/-- **Loading** a file that was written. -/
theorem load_dumpFile (hrange : IsRange lo hi) (memory : Fin MEMSIZE → U8) (entry : U32)
    (opts : Options) (hraw : opts.raw = 0) (hep : opts.ep = 0 ∨ opts.ep = entry) (t : Machine) :
    load opts (dumpFile lo hi entry (bytesOf memory lo hi)) t =
      .ok () { t with
        memory := restrict memory lo hi
        tags := fun _ => 0
        cpu := CpuRegisters.zeroed entry } := by
  have hbytes := fileBytes_output hrange memory entry
  -- The header names the entry point, and the one program header the range.
  have hentry : ehEntry (dumpFile lo hi entry (bytesOf memory lo hi)) = some entry :=
    ehEntry_append _ _
  have himage : imageSegments opts (dumpFile lo hi entry (bytesOf memory lo hi)) =
      some [⟨lo, 0x1000, hi - lo⟩] := by
    unfold imageSegments
    rw [if_neg (not_not.mpr hraw), hbytes]
    unfold dumpFile
    rw [if_pos (magic_append _ _ rfl)]
    exact segments_dump entry _
  -- The program starts at the entry point of the file, whether it is given or not.
  have hpc : initialPc opts (dumpFile lo hi entry (bytesOf memory lo hi)) = some entry := by
    unfold initialPc
    rcases hep with hep | hep
    · rw [if_neg (not_not.mpr hep), if_neg (not_not.mpr hraw), hentry]
    · by_cases hzero : opts.ep = 0
      · rw [if_neg (not_not.mpr hzero), if_neg (not_not.mpr hraw), hentry]
      · rw [if_pos hzero, hep]
  refine load_eq_ok.mpr ⟨_, entry, himage, fun seg hseg => ?_, by rwa [hbytes], ?_⟩
  · rw [List.mem_singleton.mp hseg, hbytes]
    exact segment_fits hrange memory entry
  · -- The one segment writes the range.
    unfold Machine.loaded
    rw [hbytes]
    congr 1
    funext m
    change _ = if Segment.writes ⟨lo, 0x1000, hi - lo⟩ m then
      Segment.value (dumpFile lo hi entry (bytesOf memory lo hi)) ⟨lo, 0x1000, hi - lo⟩ m else 0
    rw [dumpSegment_writes hrange.le]
    unfold restrict
    by_cases hm : lo.toNat ≤ m.val ∧ m.val < hi.toNat
    · rw [if_pos hm, if_pos (decide_eq_true hm)]
      change _ =
        ((dumpFile lo hi entry (bytesOf memory lo hi))[0x1000 + (m.val - lo.toNat)]?).getD 0
      rw [dumpFile_data entry (by rw [length_bytesOf]; omega), getElem?_bytesOf memory hm.1 hm.2]
      rfl
    · rw [if_neg hm, if_neg (by simpa using hm)]

/-! ### The phases of a run -/

/-- The options touch nothing of the machine but `-t`. -/
theorem getOptions_ensures (args : List Opt) :
    ∀ opts, (getOptions args opts).Ensures fun s opts' s' =>
      s' = { s with trace := s'.trace } ∧
        (opts'.norun = true ↔ opts.norun = true ∨ .norun ∈ args) := by
  -- On the list of options, from left to right.
  induction args with
  | nil =>
    intro opts s opts' s' h
    obtain ⟨rfl, rfl⟩ := Prog.pure_eq_ok.mp h
    exact ⟨rfl, by simp⟩
  | cons opt args ih =>
    intro opts s opts' s' h
    obtain ⟨opts₁, s₁, hset, hrest⟩ := Prog.bind_eq_ok.mp h
    obtain ⟨hs', hnorun⟩ := ih opts₁ hrest
    cases opt with
    | lo | hi | align | ep | raw =>
      cases hset
      exact ⟨hs', by simpa using hnorun⟩
    | trace =>
      cases hset
      exact ⟨hs', by simpa using hnorun⟩
    | norun =>
      cases hset
      exact ⟨hs', by simpa using hnorun⟩
    -- These two exit.
    | help => cases hset
    | unknown c => cases hset

/-- The program writes a file only from an input file, once the options are known. -/
theorem main_eq_ok {host : Host} {fuel : Nat} {args : List Opt} {names : List String}
    {files : Files} (h : main host fuel args names files Machine.static = .ok out s) :
    ∃ outname opts file trace, files.Input names file outname ∧
      (opts.norun = true ↔ .norun ∈ args) ∧
      getOptions args {} Machine.static = .ok opts (Machine.start (fun _ => 0) 0 trace) ∧
      unpackFile host fuel files outname opts file (Machine.start (fun _ => 0) 0 trace) =
        .ok out s := by
  rw [main_eq] at h
  obtain ⟨opts, s₁, hopts, h⟩ := Prog.bind_eq_ok.mp h
  obtain ⟨hs₁, hnorun⟩ := getOptions_ensures args {} hopts
  -- `getopt` has run on the machine with cleared memory.
  have hstart : s₁ = Machine.start (fun _ => 0) 0 s₁.trace := hs₁
  rw [hstart] at hopts
  unfold unpack at h
  split at h
  · rename_i elfname outname _
    obtain ⟨file, s₂, hread, h⟩ := Prog.bind_eq_ok.mp h
    obtain ⟨hreads, rfl⟩ := readElf_eq_ok.mp hread
    rw [hstart] at h
    exact ⟨outname, opts, file, s₁.trace, ⟨elfname, rfl, hreads⟩, by simpa using hnorun, hopts, h⟩
  · -- Without two names the program prints its usage and exits.
    cases h

/-- The range search leaves the machine alone. -/
theorem findRange_state {opts : Options} {fuel : Nat}
    (h : findRange opts fuel s = .ok (lo, hi) s') : s' = s := by
  unfold findRange at h
  rw [Prog.get_bind] at h
  obtain ⟨x, s₁, hlo, h⟩ := Prog.bind_eq_ok.mp h
  obtain ⟨rfl, -⟩ := lowBase_of_findLo hlo
  -- The second scan is made or not.
  obtain ⟨y, s₂, hhi, h⟩ := Prog.bind_eq_ok.mp h
  cases h
  unfold findHi at hhi
  split at hhi
  · exact (scanHi_of_ok hhi).1
  · exact (Prog.pure_eq_ok.mp hhi).2.symm

/-- The phases of a run that writes a file: the image is loaded, then the range and the entry point
are those of the options, or they are found by emulation and search. -/
theorem unpackFile_eq_ok {host : Host} {fuel : Nat} {files : Files} {outname : String}
    {opts : Options} {trace : Bool}
    (h : unpackFile host fuel files outname opts file (Machine.start (fun _ => 0) 0 trace) =
      .ok out s) :
    ∃ image pc lo hi,
      load opts file (Machine.start (fun _ => 0) 0 trace) =
        .ok () (Machine.start image pc trace) ∧
      IsRange lo hi ∧ files.Writes outname lo hi ∧
      out = dumpFile lo hi s.bouncePc (bytesOf s.memory lo hi) ∧
      if opts.norun then
        s = { Machine.start image pc trace with bouncePc := opts.ep }
      else emulate host fuel fuel fuel (Machine.start image pc trace) = .ok () s ∧
        findRange opts fuel s = .ok (lo, hi) s := by
  obtain ⟨_, s₁, hload, h⟩ := Prog.bind_eq_ok.mp h
  obtain ⟨image, pc, rfl⟩ := load_start hload
  by_cases hnorun : opts.norun = true
  · -- With `-n` nothing is emulated, and the range is that of the options.
    rw [if_pos hnorun] at h
    obtain ⟨⟨lo, hi⟩, s₂, hrange, hwrite⟩ := Prog.bind_eq_ok.mp h
    cases hrange
    obtain ⟨hwrites, hdump⟩ := writeElf_eq_ok.mp hwrite
    obtain ⟨hin, rfl, rfl⟩ := dump_eq_ok.mp hdump
    refine ⟨image, pc, _, _, hload, hin, hwrites, rfl, ?_⟩
    rw [if_pos hnorun]
  · -- Without it the machine runs, and the range is searched in what it wrote.
    rw [if_neg hnorun] at h
    obtain ⟨_, s₂, hrun, h⟩ := Prog.bind_eq_ok.mp h
    obtain ⟨⟨lo, hi⟩, s₃, hrange, hwrite⟩ := Prog.bind_eq_ok.mp h
    obtain ⟨hwrites, hdump⟩ := writeElf_eq_ok.mp hwrite
    obtain ⟨hin, rfl, rfl⟩ := dump_eq_ok.mp hdump
    have hsame := findRange_state hrange
    subst hsame
    refine ⟨image, pc, lo, hi, hload, hin, hwrites, rfl, ?_⟩
    rw [if_neg hnorun]
    exact ⟨hrun, hrange⟩

/-! ### From the input to the output -/

/-- **Unpacking.** Whenever the program, without `-n`, writes a file after an orderly run: the
machine, started on the image that was loaded, first knows an entry point in some state `a`; and the
file it writes is loaded again as the memory of `a` in the range that was found, zeros elsewhere,
with that entry point as program counter. -/
theorem unpacks {host : Host} {fuel : Nat} {args : List Opt} {names : List String} {files : Files}
    (h : main host fuel args names files Machine.static = .ok out s) (hnorun : .norun ∉ args)
    (hs : s.Orderly) :
    ∃ outname opts file trace image pc a lo hi, files.Input names file outname ∧
      getOptions args {} Machine.static = .ok opts (Machine.start (fun _ => 0) 0 trace) ∧
      load opts file (Machine.start (fun _ => 0) 0 trace) = .ok () (Machine.start image pc trace) ∧
      (Relation.ReflTransGen Arch.LoopStep (Arch.start image pc) a ∧ a.entry ≠ 0) ∧
      (s.arch = a ∧ findRange opts fuel s = .ok (lo, hi) s) ∧
      ∀ t, load {} out t = .ok () { t with
        memory := restrict a.memory lo hi, tags := fun _ => 0,
        cpu := CpuRegisters.zeroed a.entry } := by
  -- The file has the range of the last phase, and the machine after it is the final one.
  obtain ⟨outname, opts, file, trace, hinput, hn, hopts, hunpack⟩ := main_eq_ok h
  obtain ⟨image, pc, lo, hi, hload, hin, -, rfl, hphase⟩ := unpackFile_eq_ok hunpack
  rw [if_neg fun hon => hnorun (hn.mp hon)] at hphase
  obtain ⟨hrun, hrange⟩ := hphase
  exact ⟨outname, opts, file, trace, image, pc, s.arch, lo, hi, hinput, hopts, hload,
    loopSteps_of_emulate hrun hs, ⟨rfl, hrange⟩, fun t => load_dumpFile hin _ _ {} rfl (.inl rfl) t⟩

/-- The raw file `addiu v0, r0, 0x1234; sw v0, 0x200(r0); j 0x200; nop` unpacks one word, of which
two bytes are not zero. -/
theorem unpacks_word :
    let args : List Opt := [.raw 0x100, .ep 0x100]
    let code : List U8 := [0x34, 0x12, 2, 0x24, 0, 2, 2, 0xac, 0x80, 0, 0, 8, 0, 0, 0, 0]
    ∃ (out : List U8) (s : Machine),
      main .flat 8 args ["in", "out"] (.holding code) Machine.static = .ok out s ∧
      ∃ outname opts file trace image pc a lo hi,
        (Files.holding code).Input ["in", "out"] file outname ∧
        getOptions args {} Machine.static = .ok opts (Machine.start (fun _ => 0) 0 trace) ∧
        load opts file (Machine.start (fun _ => 0) 0 trace) =
          .ok () (Machine.start image pc trace) ∧
        (Relation.ReflTransGen Arch.LoopStep (Arch.start image pc) a ∧ a.entry ≠ 0) ∧
        (s.arch = a ∧ findRange opts 8 s = .ok (lo, hi) s) ∧
        ∀ t, load {} out t = .ok () { t with
          memory := restrict a.memory lo hi
          tags := fun _ => 0
          cpu := CpuRegisters.zeroed a.entry } := by
  intro args code
  obtain ⟨out, s, hmain, hs⟩ := Outcome.returnsWith_iff.mp
    (show (main .flat 8 args ["in", "out"] (.holding code) Machine.static).returnsWith
      (fun _ s => decide s.Orderly) = true by decide +kernel)
  exact ⟨out, s, hmain, unpacks hmain (by simp [args]) (of_decide_eq_true hs)⟩

/-- **Repacking.** A file the program wrote, with any options, has one segment; with `-n`, the range
of this segment and the entry point of the file, the program writes the same file again, if it is
read and written without an error. -/
theorem repack {host : Host} {fuel : Nat} {args : List Opt} {names : List String} {files : Files}
    (h : main host fuel args names files Machine.static = .ok out s) :
    ∃ lo hi entry, ehEntry out = some entry ∧ segments out = some [⟨lo, 0x1000, hi - lo⟩] ∧
      (hi ≠ 0 → ∀ host' fuel' files' elfname outname, Files.Reads files' elfname out →
        Files.Writes files' outname lo hi → ∃ s',
          main host' fuel' [.norun, .lo lo.toNat, .hi hi.toNat, .ep entry.toNat]
            [elfname, outname] files' Machine.static = .ok out s') := by
  obtain ⟨_, opts, file, trace, -, -, -, hunpack⟩ := main_eq_ok h
  obtain ⟨image, pc, lo, hi, -, hin, -, rfl, -⟩ := unpackFile_eq_ok hunpack
  refine ⟨lo, hi, s.bouncePc, ehEntry_append _ _, segments_dump _ _, ?_⟩
  intro hhi host' fuel' files' elfname outname hreads hwrites
  -- The options read back, and the file is loaded.
  have hread : ∀ x : U32, BitVec.ofInt 32 x.toNat = x := fun x => by
    rw [BitVec.ofInt_natCast, BitVec.ofNat_toNat, BitVec.setWidth_eq]
  have hload := load_dumpFile hin s.memory s.bouncePc
    { lo := lo, hi := hi, ep := s.bouncePc, norun := true } rfl (.inr rfl) Machine.static
  rw [main_eq]
  have hopts : getOptions [.norun, .lo lo.toNat, .hi hi.toNat, .ep s.bouncePc.toNat] {}
      Machine.static =
        .ok { lo := lo, hi := hi, ep := s.bouncePc, norun := true } Machine.static := by
    change Outcome.ok _ _ = _
    rw [hread, hread, hread]
  have hrange : norunRange { lo := lo, hi := hi, ep := s.bouncePc, norun := true }
      (fileSize (dumpFile lo hi s.bouncePc (bytesOf s.memory lo hi))) =
        Prog.modify (fun t => { t with bouncePc := s.bouncePc }) >>= fun _ => pure (lo, hi) := by
    -- The second end is not 0, so it is not replaced by the size of the file.
    unfold norunRange
    dsimp only
    rw [if_neg hhi]
    by_cases hlo : lo = 0
    · rw [if_pos hlo, hlo]
    · rw [if_neg hlo]
  refine ⟨{ Machine.static with
    memory := restrict s.memory lo hi
    tags := fun _ => 0
    cpu := CpuRegisters.zeroed s.bouncePc
    bouncePc := s.bouncePc }, (Prog.bind_ok_of hopts).trans
      ((Prog.bind_ok_of (readElf_eq_ok.mpr ⟨hreads, rfl⟩)).trans
        ((Prog.bind_ok_of hload).trans ?_))⟩
  -- The bytes of the range are those of the restriction.
  rw [if_pos rfl, hrange]
  refine writeElf_eq_ok.mpr ⟨hwrites, dump_eq_ok.mpr ⟨hin, ?_, rfl⟩⟩
  change dumpFile lo hi s.bouncePc _ = dumpFile lo hi s.bouncePc _
  rw [bytesOf_restrict]

/-- The raw file `addiu v1, r0, 7; addiu a0, r0, 0x200; syscall`: `ExecPS2` names `0x200`, and the
options the range `0x100` to `0x104`. -/
theorem repack_execPS2 :
    let args : List Opt := [.raw 0x100, .ep 0x100, .lo 0x100, .hi 0x104]
    let file : List U8 := [7, 0, 3, 0x24, 0, 2, 4, 0x24, 0xc, 0, 0, 0]
    ∃ (out : List U8) (s : Machine),
      main .flat 4 args ["in", "out"] (.holding file) Machine.static = .ok out s ∧
        ∀ host fuel, ∃ s', main host fuel [.norun, .lo 0x100, .hi 0x104, .ep 0x200] ["out", "out"]
          (.holding out) Machine.static = .ok out s' := by
  intro args file
  obtain ⟨out, s, hmain, hout⟩ := Outcome.returnsWith_iff.mp
    (show (main .flat 4 args ["in", "out"] (.holding file) Machine.static).returnsWith
      -- The two numbers the options of the second run are read from.
      (fun out _ => decide (ehEntry out = some 0x200 ∧
        (segments out).map (·.map fun seg => (seg.vaddr, seg.filesz)) = some [(0x100, 4)])) = true
      by decide +kernel)
  obtain ⟨hentry', hsegments'⟩ := of_decide_eq_true hout
  obtain ⟨lo, hi, entry, hentry, hsegments, hrepack⟩ := repack hmain
  cases hentry.symm.trans hentry'
  rw [hsegments] at hsegments'
  obtain ⟨rfl, hsize⟩ : lo = 0x100 ∧ hi - lo = 4 := by simpa using hsegments'
  obtain rfl : hi = 0x104 := by
    rw [← BitVec.sub_add_cancel hi 0x100, hsize]
    rfl
  exact ⟨out, s, hmain, fun host fuel => hrepack (by decide) host fuel (.holding out) "out" "out"
    (Files.holding_reads out "out") (Files.holding_writes out "out" _ _)⟩

end Ps2Unpacker
