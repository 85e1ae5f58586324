import Ps2Unpacker.Framework.WhileLoop
import Ps2Unpacker.Properties.Endings

/-!
# Runs without an outcome

Everything the program does besides the emulation ends: the command line, the two files, the loader
and the searches, which come past every address. So the program has no outcome exactly if the
emulation has none, and that means one of two things. The turns of the loop go on forever; or they
lead to a call for which no depth of recursion is enough, and the stack overflows.

* `emulate_endless_iff`: the loop.
* `findRange_ends`, `unpackFile_endless_iff`: the other phases.
* `no_outcome_iff`: the whole program.
-/

namespace Ps2Unpacker

open CProg Lanes Prog

/-! ### The emulation -/

section Emulation

variable {host : Host} {s : Machine}

/-- The loop of `main` goes on while there is no entry point. -/
def running (s : Machine) : Bool := decide (s.bouncePc = 0)

/-- The loop of `main` is a `while`. -/
theorem emulate_eq (depth levels turns : Nat) :
    emulate host depth levels turns =
      whileDo running (execI host (dumpasm depth) levels) turns := by
  induction turns with
  | zero => rfl
  | succ turns ih =>
    funext s
    unfold emulate
    rw [get_bind, ih]
    by_cases hzero : s.bouncePc = 0
    · have hrunning : running s = true := decide_eq_true hzero
      rw [if_pos hzero, whileDo_of_true hrunning]
    · have hstopped : running s = false := decide_eq_false hzero
      rw [if_neg hzero, whileDo_of_false hstopped]
      rfl

/-- The call of a turn, with as much depth as levels. -/
def turn (host : Host) (n : Nat) : M Unit := execI host (dumpasm n) n

/-- A turn with more fuel. -/
theorem turn_below (n : Nat) : (turn host n).Below (turn host (n + 1)) :=
  execI_below host (Nat.le_succ n) (Nat.le_succ n)

/-- A turn that returns does so at any larger depth. -/
theorem turn_of_ok {depth levels : Nat} {s' : Machine}
    (h : execI host (dumpasm depth) levels s = .ok () s') :
    turn host (depth + levels) s = .ok () s' :=
  (execI_below host (Nat.le_add_right _ _) (Nat.le_add_left _ _) (h.trans_ne nofun)).trans h

/-- A turn is a step of the loop. -/
theorem whileStep_iff {s' : Machine} :
    WhileStep running (turn host) s s' ↔ LoopStep host s s' := by
  refine and_congr decide_eq_true_iff ⟨?_, ?_⟩
  · rintro ⟨n, h⟩
    exact ⟨n, n, h⟩
  · rintro ⟨depth, levels, h⟩
    exact ⟨_, turn_of_ok h⟩

/-- A turn that never ends overflows. -/
theorem turn_endless_iff : (∀ n, turn host n s = .outOfFuel) ↔ Overflows host s := by
  constructor
  · intro hall depth levels
    by_contra hrun
    refine hrun ?_
    rw [← execI_below host (Nat.le_add_right depth levels) (Nat.le_add_left levels depth) hrun]
    exact hall _
  · exact fun hall n => hall n n

/-- The loop calls the interpreter in `s`, and the stack overflows: the delay chain does not end, or
the report of its last instruction does not. -/
def Stuck (s : Machine) : Prop :=
  s.bouncePc = 0 ∧ ∀ branches last, DelayChain s.memory s.cpu branches last → last.Blocked Legible

/-- A stuck state goes on, to a turn that never ends. -/
theorem stuck_iff : Stuck s ↔ running s = true ∧ ∀ n, turn host n s = .outOfFuel := by
  rw [turn_endless_iff, overflows_iff]
  exact and_congr decide_eq_true_iff.symm Iff.rfl

/-- The steps of the `while` are those of the loop. -/
theorem whileStep_eq (host : Host) : WhileStep running (turn host) = LoopStep host := by
  funext s s'
  exact propext whileStep_iff

/-- **The emulation has no outcome** exactly if its turns go on forever, or lead to a call that
overflows the stack. -/
theorem emulate_endless_iff : (∀ n, emulate host n n n s = .outOfFuel) ↔
    Forever (LoopStep host) s ∨ ∃ t, Relation.ReflTransGen (LoopStep host) s t ∧ Stuck t := by
  have hloop := @whileDo_endless_iff Machine running s (turn host) turn_below
  rw [whileStep_eq] at hloop
  simp only [emulate_eq]
  exact hloop.trans (or_congr_right (exists_congr fun t => and_congr_right' stuck_iff.symm))

/-- The two exclude each other: in a run that goes on forever every call returns. -/
theorem not_stuck_of_forever {t : Machine} (h : Forever (LoopStep host) s)
    (hreach : Relation.ReflTransGen (LoopStep host) s t) : ¬Stuck t := by
  intro hstuck
  rw [← whileStep_eq] at h hreach
  have hunique : ∀ s a b, WhileStep running (turn host) s a → WhileStep running (turn host) s b →
      a = b := fun _ _ _ => WhileStep.unique turn_below
  -- The infinite run passes through `t`, so the turn from there returns.
  obtain ⟨t', -, n, hturn⟩ := h.step hunique hreach
  have hendless := (@stuck_iff host t).mp hstuck
  rw [hendless.2 n] at hturn
  cases hturn

end Emulation

/-! ### The other phases -/

/-- No byte above the memory is written, or zero. -/
theorem hasWrite_ne_true (s : Machine) : hasWrite s 0xffffffff ≠ some true := by
  unfold hasWrite
  rw [dif_neg (by decide)]
  nofun

/-- The same for the lookup of its content. -/
theorem isZero_ne_true (s : Machine) : isZero s 0xffffffff ≠ some true := by
  unfold isZero
  rw [dif_neg (by decide)]
  nofun

/-- **The searches** come past an address outside of memory. -/
theorem findRange_ends (opts : Options) {fuel : Nat} (hfuel : 2 ^ 32 ≤ fuel) :
    (findRange opts fuel).Ends := by
  refine ends_bind ends_get fun s => ends_bind ?_ fun lo => ends_bind ?_ fun hi => ends_pure _
  · unfold findLo
    split
    · refine ends_bind (ends_bind ?_ fun lo => ?_) fun _ => ends_pure _
      · -- Downward the scan meets address zero less one at the latest, upward the last address.
        exact ends_scanDown (fun s => ⟨0, hasWrite_ne_true s⟩) hfuel _
      · exact ends_scanUp (fun s => ⟨0xffffffff, isZero_ne_true s⟩) hfuel lo
    · exact ends_pure _
  · unfold findHi
    split
    · refine ends_bind ?_ fun hi => ?_
      · exact ends_scanUp (fun s => ⟨0xfffffffe, hasWrite_ne_true s⟩) hfuel _
      · exact ends_scanDown (fun s => ⟨0, isZero_ne_true s⟩) hfuel hi
    · exact ends_pure _

/-- Reading the input, loading and writing the output end. -/
theorem readElf_ends (files : Files) (elfname : String) : (readElf files elfname).Ends := by
  refine ends_of_leaves (readElf_leaves files elfname) ?_
  rintro s ⟨msg, -, hx⟩
  cases hx

theorem writeElf_ends (files : Files) (outname : String) (lo hi : U32) :
    (writeElf files outname lo hi).Ends := by
  refine ends_of_leaves (writeElf_leaves files outname lo hi) ?_
  rintro s (⟨msg, -, hx⟩ | ⟨hx, -⟩)
  · cases hx
  · cases hx

theorem load_ends (opts : Options) (file : List U8) : (load opts file).Ends := by
  refine ends_of_leaves (loader_leaves opts file) ?_
  rintro s (⟨-, t, hx⟩ | ⟨t, -, -, -, -, hx⟩)
  · cases hx
  · cases hx

theorem getOptions_ends (args : List Opt) (opts : Options) : (getOptions args opts).Ends := by
  induction args generalizing opts with
  | nil => exact ends_pure opts
  | cons opt args ih =>
    refine ends_bind (ends_of_leaves (set_leaves opts opt) ?_) ih
    rintro s (⟨-, hx⟩ | ⟨c, -, hx⟩)
    · cases hx
    · cases hx

/-! ### The whole program -/

section File

variable {host : Host} {fuel : Nat} {files : Files} {outname : String} {opts : Options}
  {file : List U8} {s s₀ : Machine}

/-- With `-n` the range comes next, and otherwise the emulation. -/
theorem unpackFile_of_norun (hload : load opts file s = .ok () s₀) (hnorun : opts.norun = true) :
    unpackFile host fuel files outname opts file s = (norunRange opts (fileSize file) >>=
      fun range => writeElf files outname range.1 range.2) s₀ := by
  unfold unpackFile
  rw [bind_ok_of hload, if_pos hnorun]

theorem unpackFile_of_run (hload : load opts file s = .ok () s₀) (hrun : opts.norun = false) :
    unpackFile host fuel files outname opts file s = (emulate host fuel fuel fuel >>= fun _ =>
      findRange opts fuel >>= fun range => writeElf files outname range.1 range.2) s₀ := by
  unfold unpackFile
  rw [bind_ok_of hload, if_neg (by rw [hrun]; nofun)]

/-- The conversion of a file has no outcome exactly if it is emulated, and the emulation has none.
-/
theorem unpackFile_endless_iff :
    (∀ fuel, unpackFile host fuel files outname opts file s = .outOfFuel) ↔
      ∃ s₀, load opts file s = .ok () s₀ ∧ opts.norun = false ∧
        ∀ n, emulate host n n n s₀ = .outOfFuel := by
  constructor
  · intro hall
    cases hload : load opts file s with
    -- Loading has no loop without end.
    | outOfFuel => exact absurd hload (load_ends opts file s)
    -- A loader that stops has an outcome.
    | exit | undefined =>
      have hzero := hall 0
      unfold unpackFile at hzero
      rw [bind_apply, hload] at hzero
      cases hzero
    | ok u s₀ =>
      cases hnorun : opts.norun with
      | true =>
        -- With `-n` there is only the output file.
        have hends : (norunRange opts (fileSize file)).Ends :=
          ends_bind (ends_modify _) fun _ => ends_pure _
        have hzero := hall 0
        rw [unpackFile_of_norun hload hnorun] at hzero
        exact absurd hzero (ends_bind hends (fun _ => writeElf_ends _ _ _ _) s₀)
      | false =>
        refine ⟨s₀, rfl, rfl, fun n => ?_⟩
        by_contra hends
        -- With fuel for the searches the rest would end too.
        have hsame := emulate_below host (Nat.le_add_right n (2 ^ 32))
          (Nat.le_add_right n (2 ^ 32)) (Nat.le_add_right n (2 ^ 32)) hends
        have hrest := findRange_ends opts (Nat.le_add_left (2 ^ 32) n)
        have hlarge := hall (n + 2 ^ 32)
        rw [unpackFile_of_run hload hnorun,
          bind_outOfFuel_iff fun _ => ends_bind hrest fun _ => writeElf_ends _ _ _ _] at hlarge
        exact hends (hsame.symm.trans hlarge)
  · rintro ⟨s₀, hload, hrun, hloop⟩ fuel
    rw [unpackFile_of_run hload hrun]
    exact bind_outOfFuel_of (hloop fuel)

end File

/-- The emulation starts in `s₀`: the command line names the files and gives no option that ends the
program, the input file is read and loaded, and the emulation is not left out. -/
def Emulates (args : List Opt) (names : List String) (files : Files) (s₀ : Machine) : Prop :=
  ∃ file outname opts trace, files.Input names file outname ∧ Starts args file opts trace s₀ ∧
    opts.norun = false

section Program

variable {host : Host} {args : List Opt} {names : List String} {files : Files} {s₀ s₁ : Machine}

/-- The command line and the file determine the state that is emulated. -/
theorem Emulates.unique (h : Emulates args names files s₀) (h' : Emulates args names files s₁) :
    s₀ = s₁ := by
  obtain ⟨file, _, opts, trace, ⟨elfname, rfl, hreads⟩, ⟨hopts, hload⟩, -⟩ := h
  obtain ⟨file', _, opts', trace', ⟨elfname', hnames, hreads'⟩, ⟨hopts', hload'⟩, -⟩ := h'
  -- The names give the file, and the options give the start of the loader.
  cases hnames
  obtain rfl := Option.some.inj (hreads.opens.symm.trans hreads'.opens)
  have hsame := hopts.symm.trans hopts'
  rw [Outcome.ok.injEq] at hsame
  obtain ⟨rfl, hstart⟩ := hsame
  rw [hstart] at hload
  exact (Outcome.ok.inj (hload.symm.trans hload')).2

/-- The program has no outcome exactly if the emulation has none. -/
theorem main_endless_iff : (∀ fuel, main host fuel args names files Machine.static = .outOfFuel) ↔
    ∃ s₀, Emulates args names files s₀ ∧ ∀ n, emulate host n n n s₀ = .outOfFuel := by
  constructor
  · intro hall
    -- Without fuel everything but the emulation is carried out, and shows what is read.
    have hzero := hall 0
    rw [main_eq] at hzero
    cases hopts : getOptions args {} Machine.static with
    | outOfFuel => exact absurd hopts (getOptions_ends args {} _)
    | exit | undefined =>
      rw [bind_apply, hopts] at hzero
      cases hzero
    | ok opts s₁ =>
      -- The options are known; the number of names decides what comes next.
      obtain ⟨hstart, -⟩ := getOptions_ensures args {} hopts
      have hs₁ : s₁ = Machine.start (fun _ => 0) 0 s₁.trace := hstart
      rw [bind_ok_of hopts] at hzero
      unfold unpack at hzero
      split at hzero
      · rename_i elfname outname
        cases hread : readElf files elfname s₁ with
        | outOfFuel => exact absurd hread (readElf_ends files elfname s₁)
        | exit | undefined =>
          rw [bind_apply, hread] at hzero
          cases hzero
        | ok file s₂ =>
          obtain ⟨hreads, rfl⟩ := readElf_eq_ok.mp hread
          obtain ⟨s₀, hload, hnorun, hloop⟩ := unpackFile_endless_iff.mp fun fuel => by
            have hmain := hall fuel
            rw [main_eq, bind_ok_of hopts] at hmain
            exact (bind_ok_of hread).symm.trans hmain
          rw [hs₁] at hopts hload
          exact ⟨s₀, ⟨file, outname, opts, _, ⟨elfname, rfl, hreads⟩, ⟨hopts, hload⟩, hnorun⟩,
            hloop⟩
      · -- With any other number of names the program exits.
        cases hzero
  · rintro ⟨s₀, ⟨file, outname, opts, trace, ⟨elfname, rfl, hreads⟩, ⟨hopts, hload⟩, hnorun⟩,
      hloop⟩ fuel
    -- Conversely, the options, the file and the loader lead to the emulation.
    rw [main_eq, bind_ok_of hopts]
    refine (bind_ok_of (readElf_eq_ok.mpr ⟨hreads, rfl⟩)).trans ?_
    exact unpackFile_endless_iff.mpr ⟨s₀, hload, hnorun, hloop⟩ fuel

end Program

/-- The program runs forever: the turns of the loop go on, none of them giving an entry point. -/
def RunsForever (host : Host) (args : List Opt) (names : List String) (files : Files) : Prop :=
  ∃ s₀, Emulates args names files s₀ ∧ Forever (LoopStep host) s₀

/-- The stack of the program overflows, in a call some turns lead to. -/
def OverflowsStack (host : Host) (args : List Opt) (names : List String) (files : Files) : Prop :=
  ∃ s₀, Emulates args names files s₀ ∧
    ∃ t, Relation.ReflTransGen (LoopStep host) s₀ t ∧ Stuck t

/-- **Runs without an outcome.** At no fuel the program writes a file, exits or goes wrong exactly
if it runs forever or its stack overflows; and no run does both. -/
theorem no_outcome_iff (host : Host) (args : List Opt) (names : List String) (files : Files) :
    ((∀ fuel, main host fuel args names files Machine.static = .outOfFuel) ↔
      RunsForever host args names files ∨ OverflowsStack host args names files) ∧
    ¬(RunsForever host args names files ∧ OverflowsStack host args names files) := by
  constructor
  · -- The emulation is all that can have no end, and it has none in two ways.
    rw [main_endless_iff]
    simp only [emulate_endless_iff, and_or_left, exists_or]
    exact Iff.rfl
  · -- Both speak of the emulation from the same state.
    rintro ⟨⟨s₀, hstart, hforever⟩, s₁, hstart', t, hreach, hstuck⟩
    obtain rfl := hstart.unique hstart'
    exact not_stuck_of_forever hforever hreach hstuck

end Ps2Unpacker
