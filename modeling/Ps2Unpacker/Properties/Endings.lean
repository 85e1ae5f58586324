import Ps2Unpacker.Properties.CallOutcome
import Ps2Unpacker.Properties.LoaderSafety
import Ps2Unpacker.Properties.Output

/-!
# How the program ends early

A run of the program that ends without a file ends for one of few reasons. What it printed says
which one, or it did something the language leaves undefined, and then the reason is one of five.

* `reportLines`, `fatal_dumpasm_stop`: what a fatal path prints.
* `execI_leaves`, `emulate_leaves`: a call, and the loop, end early because of the instruction
  dispatched last, or because the target of the branches before it has no tag.
* `getOptions_leaves`, `readElf_leaves`, `loader_leaves`, `findRange_leaves`, `writeElf_leaves`: the
  other phases.
* `endings_explained`: the whole program.
-/

namespace Ps2Unpacker

open CProg Lanes Prog

/-! ### The report -/

/-- The line of the report on the word at `mem`. -/
def reportLine (memory : Fin MEMSIZE → U8) (mem : U32) : Event :=
  .printed (.disassembly ((fetchWord memory mem).getD 0) mem)

/-- The lines of the report around the instruction at `pc`, newest first. -/
def reportLines (memory : Fin MEMSIZE → U8) (pc : U32) : List Event :=
  (dumpOffsets.map fun i => reportLine memory (pc + i)).reverse

/-- The report stores nothing. -/
theorem replay_reportLines (memory memory' : Fin MEMSIZE → U8) (pc : U32) :
    replay memory (reportLines memory' pc) = memory := by
  funext m
  refine replay_of_not_hits ?_
  rintro ⟨e, he, hm⟩
  obtain ⟨i, -, rfl⟩ := List.mem_map.mp (List.mem_reverse.mp he)
  exact hm

/-- The words are printed as they are in memory. -/
theorem dumpWords_ensures (report : U32 → M Unit) (pc : U32) (is : List U32) :
    (dumpWords report pc is).Ensures fun s _ s' =>
      s'.log = (is.map fun i => reportLine s.memory (pc + i)).reverse ++ s.log ∧
        s'.memory = s.memory ∧ s'.cpu = s.cpu := by
  induction is with
  | nil =>
    intro s _ s' h
    cases h
    exact ⟨rfl, rfl, rfl⟩
  | cons i is ih =>
    intro s _ s' h
    obtain ⟨code, s₁, hread, h⟩ := bind_eq_ok.mp h
    -- The word is printed as it was read, and the tags are all that the read changes.
    obtain ⟨hword, hro⟩ := memRead32_ensures _ hread
    obtain ⟨_, s₂, hprint, h⟩ := bind_eq_ok.mp h
    cases hprint
    obtain ⟨hlog, hmemory, hcpu⟩ := ih h
    have hline : reportLine s.memory (pc + i) = .printed (.disassembly code (pc + i)) := by
      unfold reportLine
      rw [hword]
      rfl
    refine ⟨?_, hmemory.trans hro.memory, hcpu.trans hro.cpu⟩
    rw [hlog, List.map_cons, List.reverse_cons, hline, List.append_assoc]
    change _ ++ (.printed (.disassembly code (pc + i)) :: s₁.log) = _
    rw [hro.log]
    change (is.map fun i => reportLine s₁.memory (pc + i)).reverse ++ _ = _
    -- The read leaves memory alone, so the lines of the rest are the same before it.
    rw [hro.memory]
    rfl

/-- **A fatal path** that ends has printed the message and the words around the instruction. -/
theorem fatal_dumpasm_stop {depth : Nat} {msg : Message} {s : Machine} {x : Outcome Machine Empty}
    (h : ((fatal (dumpasm depth) msg : M Unit) s).stop = some x) :
    x = .outOfFuel ∨ ∃ s', x = .exit (-1) s' ∧ Legible s.cpu.pc ∧ s'.cpu = s.cpu ∧
      s'.memory = s.memory ∧
        s'.log = reportLines s.memory (s.cpu.pc - 4) ++ .printed msg :: s.log := by
  by_cases hlegible : Legible s.cpu.pc
  · cases depth with
    | zero =>
      cases h
      exact .inl rfl
    | succ depth =>
      -- The words are read after the message was printed.
      obtain ⟨s₁, hdump⟩ := @dumpWords_of_accepted (dumpasm depth) (s.cpu.pc - 4) dumpOffsets
        { s with log := .printed msg :: s.log } hlegible
      obtain ⟨hlog, hmemory, hcpu⟩ := dumpWords_ensures _ _ _ hdump
      rw [@fatal_of_ok (dumpasm (depth + 1)) _ _ _ _ hdump] at h
      cases h
      exact .inr ⟨s₁, rfl, hlegible, hcpu, hmemory, hlog⟩
  · -- Otherwise a word of the report cannot be read, and the report of that is no better.
    rw [fatal_of_not_legible depth s msg hlegible] at h
    cases h
    exact .inl rfl

/-! ### The crash -/

/-- The program left in `s` because of the instruction dispatched last: behind its dispatch, bytes
may have been stored, then comes the message and, if it is one that is reported, the report. -/
def Crashed (s : Machine) : Prop :=
  ∃ msg stores old, Fault s.cpu msg ∧ (∀ e ∈ stores, ∃ mem value, e = .store mem value) ∧
    (msg.isReported = true → Legible s.cpu.pc) ∧
    s.log = (if msg.isReported then reportLines s.memory (s.cpu.pc - 4) else []) ++
      .printed msg :: (stores ++ .exec s.cpu :: old)

/-- The program is in `s` after the delay slots of the delay chain executed last, and the final
target of the chain has no tag. -/
def Lost (s : Machine) : Prop :=
  ∃ branches last old,
    s.log.filterMap Event.dispatched? = (branches ++ [last]).reverse ++ old ∧
    finalTarget branches = some s.cpu.pc ∧ MEMSIZE ≤ s.cpu.pc.toNat

/-- How the emulation is given up: with a crash, in an undefined computation of the instruction
dispatched last, or in the lookup of a tag outside of the tags. -/
inductive GivesUp : Outcome Machine Empty → Machine → Prop where
  | crash {s : Machine} (hcrashed : Crashed s) : GivesUp (.exit (-1) s) s
  | computation {s : Machine} {old : List Event} (hundefined : s.cpu.Undefined)
      (hlog : s.log = .exec s.cpu :: old) : GivesUp (.undefined s) s
  | lookup {s : Machine} (hlost : Lost s) : GivesUp (.undefined s) s

/-- An instruction that fails ends the emulation. -/
theorem Fails.givesUp {depth : Nat} {s : Machine} {x : Outcome Machine Empty} {old : List Event}
    (h : Fails (dumpasm depth) s x) (hx : x ≠ .outOfFuel) (hlog : s.log = .exec s.cpu :: old) :
    ∃ s' new, GivesUp x s' ∧ s'.log = new ++ s.log ∧ s'.memory = replay s.memory new := by
  cases h with
  | undefined hop hnone =>
    -- The computation is undefined: nothing is printed.
    exact ⟨s, [], .computation (CpuRegisters.undefined_iff.mpr ⟨_, hop, hnone⟩) hlog, rfl, rfl⟩
  -- The failure has a message; the handler may have stored bytes before it.
  | @message msg t _ hfault hstored hend =>
    obtain ⟨hcpu, stores, hstores, hext⟩ := hstored
    have hlog' : t.log = stores ++ .exec s.cpu :: old := by rw [hext.log, hlog]
    unfold EndsWith at hend
    by_cases hreported : msg.isReported = true
    · rw [if_pos hreported] at hend
      -- The report ends, and its lines come on top of the message.
      obtain rfl | ⟨s', rfl, hlegible, hcpu', hmemory, hlast⟩ := fatal_dumpasm_stop hend
      · exact absurd rfl hx
      have hr : s'.cpu = s.cpu := hcpu'.trans hcpu
      refine ⟨s', reportLines t.memory (t.cpu.pc - 4) ++ .printed msg :: stores,
        .crash ⟨msg, stores, old, by rwa [hr], hstores, fun _ => by rwa [hcpu'], ?_⟩, ?_, ?_⟩
      · rw [if_pos hreported, hlast, hmemory, hcpu', hlog', hcpu]
      · rw [hlast, hext.log, List.append_assoc]
        rfl
      · -- The lines of the report store nothing.
        rw [hmemory, replay_append, replay_reportLines]
        exact hext.memory
    · rw [if_neg hreported] at hend
      subst hend
      -- `BREAK` and the unknown system call exit without a report.
      refine ⟨{ t with log := .printed msg :: t.log }, .printed msg :: stores,
        .crash ⟨msg, stores, old, by rwa [show _ = _ from hcpu], hstores,
          fun h => absurd h hreported, ?_⟩, ?_, hext.memory⟩
      · rw [if_neg hreported]
        change .printed msg :: t.log = .printed msg :: (stores ++ .exec t.cpu :: old)
        rw [hlog', hcpu]
      · change .printed msg :: t.log = _
        rw [hext.log]
        rfl

/-! ### The emulation -/

/-- The instruction at `t`, just dispatched, fails. -/
def FailsAfter (depth : Nat) (s : Machine) (x : Outcome Machine Empty) : Prop :=
  ∃ t new old, Extends new s t ∧ t.log = .exec t.cpu :: old ∧ Fails (dumpasm depth) t x

/-- The call from `s` executes its delay chain and fails at `t`, looking up the final target. -/
def LosesAfter (s : Machine) (x : Outcome Machine Empty) : Prop :=
  ∃ t new branches last, Extends new s t ∧ Executed s t (branches ++ [last]) ∧
    finalTarget branches = some t.cpu.pc ∧ MEMSIZE ≤ t.cpu.pc.toNat ∧ x = .undefined t

/-- **One call** ends early because of the instruction dispatched last, in whichever delay slot, or
because of the target behind it. -/
theorem execI_leaves (host : Host) (depth n : Nat) :
    (execI host (dumpasm depth) n).Leaves fun s x =>
      x = .outOfFuel ∨ FailsAfter depth s x ∨ LosesAfter s x := by
  -- On the levels: the delay slot of a taken branch is a call one level down.
  induction n with
  | zero =>
    intro s x h
    cases h
    exact .inl rfl
  | succ n ih =>
    intro s x h
    rcases bind_stop.mp h with h | ⟨_, s₀, hfetch, h⟩
    · -- A fetch without a word is reported without end.
      exact .inl (fetch_leaves depth h)
    have fetched := fetch_ensures _ hfetch
    obtain ⟨new, -, hext⟩ := fetched.history
    rw [cpu_bind] at h
    by_cases hop : ∃ o, decode s₀.cpu.code = .branch o
    · obtain ⟨o, ho⟩ := hop
      rw [ho] at h
      change (o.run (execI host (dumpasm depth) n) s₀).stop = _ at h
      by_cases htaken : o.taken s₀.cpu = true
      · have take := takenBranch_of_taken ho htaken
        have henter : Extends [] s₀ (s₀.enterSlot o) := .of_eq ⟨rfl, rfl, rfl⟩
        have hbranch : Executed s (s₀.enterSlot o) [s₀.cpu] := fetched.executed
        rw [BranchOp.run_of_taken htaken] at h
        rcases bind_stop.mp h with h | ⟨_, s₁, hslot, h⟩
        · obtain hout | ⟨t, new', old, hext', hlog, hfails⟩ |
            ⟨t, new', branches, last, hext', hexecuted, htarget, hlost, rfl⟩ := ih h
          · -- In the slot the instruction itself fails, or the slot fails at a lookup.
            exact .inl hout
          · exact .inr (.inl ⟨t, _, old, (hext.trans henter).trans hext', hlog, hfails⟩)
          · -- The slot fails at a lookup: its target is the final one.
            refine .inr (.inr ⟨t, _, s₀.cpu :: branches, last, (hext.trans henter).trans hext',
              hbranch.trans hexecuted, ?_, hlost, rfl⟩)
            rw [finalTarget_cons take, htarget]
            rfl
        · -- The slot returns, so it is the lookup of this branch that fails.
          rw [finishBranch_apply] at h
          split at h
          · cases h
          · rename_i hlost
            cases h
            have hexec := execI_exec host _ n hslot
            obtain ⟨new', hext'⟩ := hexec.history
            obtain ⟨branches, last, hcall⟩ := hexec.call
            exact .inr (.inr ⟨s₁.jump, _, s₀.cpu :: branches, last,
              (hext.trans henter).trans (hext'.trans (.of_eq ⟨rfl, rfl, rfl⟩)),
              hbranch.trans hcall.executed, (hcall.finalTarget_of_slot take).1,
              Nat.le_of_not_lt hlost, rfl⟩)
      · -- A branch that is not taken returns.
        rw [BranchOp.run_eq, if_neg htaken] at h
        cases h
    · -- Any other instruction fails on its own.
      exact .inr (.inl ⟨s₀, _, _, hext, hext.log, Op.run_leaves (fun o ho => hop ⟨o, ho⟩) h⟩)

/-- **The loop** ends early in one of its turns. -/
theorem emulate_leaves (host : Host) (depth levels turns : Nat) :
    (emulate host depth levels turns).Leaves fun s x =>
      x = .outOfFuel ∨ ∃ t, Run host s t ∧ (FailsAfter depth t x ∨ LosesAfter t x) := by
  induction turns with
  -- On the turns: a turn fails, or the loop behind it.
  | zero =>
    intro s x h
    cases h
    exact .inl rfl
  | succ turns ih =>
    intro s x h
    unfold emulate at h
    rw [get_bind] at h
    split at h
    · rcases bind_stop.mp h with h | ⟨_, s₁, hcall, h⟩
      · exact (execI_leaves host depth levels h).imp id fun hfails => ⟨s, .refl, hfails⟩
      · obtain hout | ⟨t, hrun, hfails⟩ := ih h
        · exact .inl hout
        · exact .inr ⟨t, .head ⟨depth, levels, hcall⟩ hrun, hfails⟩
    · -- The condition has failed, so the loop has returned.
      cases h

/-- A call that fails at its lookup is lost. -/
theorem LosesAfter.givesUp {s : Machine} {x : Outcome Machine Empty} (h : LosesAfter s x) :
    ∃ t new, GivesUp x t ∧ Extends new s t := by
  obtain ⟨t, new, branches, last, hext, ⟨new', hlog, hexecuted⟩, htarget, hlost, rfl⟩ := h
  refine ⟨t, new, .lookup ⟨branches, last, s.log.filterMap Event.dispatched?, ?_, htarget, hlost⟩,
    hext⟩
  rw [hlog, List.filterMap_append, ← hexecuted, List.reverse_reverse]

/-- What leaves the loop of `main` was given up, with the memory the history accounts for. -/
theorem emulate_givesUp {host : Host} {depth levels turns : Nat} {memory : Fin MEMSIZE → U8}
    {pc : U32} {trace : Bool} {x : Outcome Machine Empty}
    (h : (emulate host depth levels turns (Machine.start memory pc trace)).stop = some x) :
    x = .outOfFuel ∨ ∃ s', GivesUp x s' ∧ s'.memory = replay memory s'.log := by
  by_cases hx : x = .outOfFuel
  · exact .inl hx
  right
  obtain hout | ⟨t, hrun, hend⟩ := emulate_leaves host depth levels turns h
  · exact absurd hout hx
  obtain ⟨new₀, hext₀⟩ := hrun.history
  -- The whole history is that of the run and that of the last call.
  have hreplay : ∀ (new : List Event) {s' : Machine},
      s'.log = new ++ t.log → s'.memory = replay t.memory new →
        s'.memory = replay memory s'.log := by
    intro new s' hlog hmemory
    rw [hlog, hmemory, replay_append, hext₀.log, hext₀.memory]
    change _ = replay (replay memory (new₀ ++ [])) new
    rw [List.append_nil]
    rfl
  -- Either the instruction dispatched last failed,
  rcases hend with ⟨t', new, old, hext, hlog, hfails⟩ | hloses
  · obtain ⟨s', new', hgives, hlog', hmemory⟩ := hfails.givesUp hx hlog
    refine ⟨s', hgives, hreplay (new' ++ new) ?_ ?_⟩
    · rw [hlog', hext.log, List.append_assoc]
    · rw [hmemory, hext.memory, replay_append]
  · -- or the lookup of the last target.
    obtain ⟨s', new, hgives, hext⟩ := hloses.givesUp
    exact ⟨s', hgives, hreplay new hext.log hext.memory⟩

/-! ### The command line -/

/-- The options that end the program. -/
def Opt.stops : Opt → Bool
  | .help => true
  | .unknown _ => true
  | _ => false

/-- The command line ends the program, with what is printed. -/
inductive Misused (args : List Opt) : Outcome Machine Empty → Prop where
  /-- The first of the options that end the program asks for help, -/
  | help {before after : List Opt} {s : Machine} (hargs : args = before ++ .help :: after)
      (hbefore : ∀ opt ∈ before, opt.stops = false) (hlog : s.log = [.printed .usage]) :
      Misused args (.exit 0 s)
  /-- or one that does not exist. -/
  | unknown {before after : List Opt} {c : Char} {s : Machine}
      (hargs : args = before ++ .unknown c :: after) (hbefore : ∀ opt ∈ before, opt.stops = false)
      (hlog : s.log = [.printed .usage, .printed (.unknownOption c)]) :
      Misused args (.exit (-1) s)

/-- An option stops the program by asking for help, or by being none. -/
theorem set_leaves (opts : Options) (opt : Opt) :
    (opts.set opt).Leaves fun s x =>
      opt = .help ∧ x = .exit 0 { s with log := .printed .usage :: s.log } ∨
        ∃ c, opt = .unknown c ∧ x = .exit (-1)
          { s with log := .printed .usage :: .printed (.unknownOption c) :: s.log } := by
  intro s x h
  cases opt with
  | lo | hi | trace | align | ep | raw | norun => cases h
  | help =>
    cases h
    exact .inl ⟨rfl, rfl⟩
  | unknown c =>
    cases h
    exact .inr ⟨c, rfl, rfl⟩

/-- An option that is read prints nothing. -/
theorem set_ensures (opts : Options) (opt : Opt) :
    (opts.set opt).Ensures fun s _ s' => opt.stops = false ∧ s'.log = s.log := by
  intro s opts' s' h
  cases opt with
  | lo | hi | trace | align | ep | raw | norun =>
    cases h
    exact ⟨rfl, rfl⟩
  | help | unknown => cases h

/-- **The command line** ends the program at the first option that stops it. -/
theorem getOptions_leaves (args : List Opt) :
    ∀ (before : List Opt), (∀ opt ∈ before, opt.stops = false) → ∀ opts,
      (getOptions args opts).Leaves fun s x => s.log = [] → Misused (before ++ args) x := by
  -- On the options that are left; those before have been read.
  induction args with
  | nil => exact fun before _ opts => leaves_pure opts
  | cons opt args ih =>
    intro before hbefore opts s x h hlog
    rcases bind_stop.mp h with h | ⟨opts', s₁, hset, h⟩
    · -- An option that stops: `-h`, or one that is not known.
      rcases set_leaves opts opt h with ⟨rfl, rfl⟩ | ⟨c, rfl, rfl⟩
      · exact .help rfl hbefore (by rw [hlog])
      · exact .unknown rfl hbefore (by rw [hlog])
    · obtain ⟨hreads, hlog'⟩ := set_ensures opts opt hset
      -- The options read before now include this one.
      have hmore : ∀ opt' ∈ before ++ [opt], opt'.stops = false := by
        intro opt' hmem
        rcases List.mem_append.mp hmem with hmem | hmem
        · exact hbefore opt' hmem
        · rw [List.mem_singleton.mp hmem]
          exact hreads
      have hrest := ih (before ++ [opt]) hmore opts' h (hlog'.trans hlog)
      rwa [List.append_assoc] at hrest

/-! ### The loader -/

/-- A run that stops has gone wrong. -/
def GoesWrong {α : Type} (m : M α) : Prop := m.Leaves fun _ x => ∃ t, x = .undefined t

/-- A required value goes wrong where it is missing. -/
theorem goesWrong_require {α : Type} (o : Option α) : GoesWrong (require o) := fun s _ h =>
  ⟨s, (require_stop.mp h).2⟩

/-- A partial update goes wrong where it is undefined. -/
theorem goesWrong_modify? (g : Machine → Option Machine) : GoesWrong (modify? g) := fun s _ h =>
  ⟨s, (modify?_stop.mp h).2⟩

/-- A sequence goes wrong where one of its halves does. -/
theorem goesWrong_bind {α β : Type} {m : M α} {f : α → M β} (hm : GoesWrong m)
    (hf : ∀ a, GoesWrong (f a)) : GoesWrong (m >>= f) := by
  intro s x h
  rcases bind_stop.mp h with h | ⟨a, s₁, -, h⟩
  · exact hm h
  · exact hf a h

/-- The loop over the table does nothing but go wrong. -/
theorem loadSegments_goesWrong (bytes : List U8) (n : Nat) :
    ∀ (i : Nat) (eph : Int), GoesWrong (loadSegments bytes n i eph) := by
  induction n with
  | zero => exact fun _ _ => leaves_pure ()
  | succ n ih =>
    intro i eph
    -- A turn, and the two members read again after it.
    refine goesWrong_bind ?_ fun _ => goesWrong_bind (goesWrong_require _) fun _ =>
      goesWrong_bind (goesWrong_require _) fun _ => ih _ _
    rw [loadSegment_eq]
    refine goesWrong_bind (goesWrong_require _) fun seg => ?_
    cases seg with
    | none => exact leaves_pure ()
    | some seg => exact goesWrong_modify? _

/-- The image is refused over its magic number, or the copies go wrong. -/
theorem loadImage_leaves (opts : Options) (file : List U8) :
    (loadImage opts file).Leaves fun s x => (∃ t, x = .undefined t) ∨
      ∃ magic, peek 32 (fileBytes file) 0 = some magic ∧ magic ≠ ELF_MAGIC ∧
        x = .exit (-1) { s with log := .printed (.notElf magic) :: s.log } := by
  intro s x h
  unfold loadImage at h
  split at h
  · -- With `-r` there is one copy, and no magic number.
    exact .inl (goesWrong_modify? _ h)
  · unfold loadElf at h
    rcases bind_stop.mp h with h | ⟨magic, s₁, hrequire, hread⟩
    · exact .inl (goesWrong_require _ h)
    obtain ⟨hmagic, rfl⟩ := require_eq_ok.mp hrequire
    split at hread
    · rename_i hne
      cases hread
      exact .inr ⟨magic, hmagic, hne, rfl⟩
    · -- Behind the magic number nothing is refused.
      have hrest : GoesWrong (require (ehPhoff (fileBytes file)) >>= fun phoff =>
          require (ehPhnum (fileBytes file)) >>= fun phnum =>
            loadSegments (fileBytes file) phnum.toNat 0 phoff.toNat) :=
        goesWrong_bind (goesWrong_require _) fun _ =>
          goesWrong_bind (goesWrong_require _) fun _ => loadSegments_goesWrong _ _ _ _
      exact .inl (hrest hread)

/-- **The loader** has one complaint, and goes wrong only for a file that is not loadable. -/
theorem loader_leaves (opts : Options) (file : List U8) :
    (load opts file).Leaves fun s x => (¬Loadable opts file ∧ ∃ t, x = .undefined t) ∨
      ∃ t magic, peek 32 (fileBytes file) 0 = some magic ∧ magic ≠ ELF_MAGIC ∧
        t.log = .printed (.notElf magic) :: s.log ∧ x = .exit (-1) t := by
  intro s x h
  have hends : (∃ t, x = .undefined t) ∨ ∃ t magic, peek 32 (fileBytes file) 0 = some magic ∧
      magic ≠ ELF_MAGIC ∧ t.log = .printed (.notElf magic) :: s.log ∧ x = .exit (-1) t := by
    unfold load memInit at h
    rw [modify_bind] at h
    -- The copies stop, or the program counter is missing.
    rcases bind_stop.mp h with h | ⟨_, s₁, -, h⟩
    · obtain hwrong | ⟨magic, hmagic, hne, hx⟩ := loadImage_leaves opts file h
      · exact .inl hwrong
      · exact .inr ⟨_, magic, hmagic, hne, rfl, hx⟩
    · exact .inl (goesWrong_bind (goesWrong_require _)
        (fun _ _ _ h => absurd h (modifyCpu_neverStops _).ne) h)
  refine hends.imp (fun ⟨t, hx⟩ => ⟨fun hloadable => ?_, t, hx⟩) id
  subst hx
  -- A loadable file is loaded, or refused.
  obtain ⟨s', hexit⟩ | ⟨s', hload, -⟩ := (load_safe_iff opts file s).mpr hloadable
  · rw [hexit] at h
    cases h
  · rw [hload] at h
    cases h

/-! ### The range and the dump -/

/-- The search changes nothing, and does not exit. -/
theorem findRange_observes (opts : Options) (fuel : Nat) : (findRange opts fuel).Observes := by
  refine observes_bind observes_get fun s => observes_bind ?_ fun lo => observes_bind ?_ fun hi =>
    observes_pure _
  · unfold findLo
    split
    · -- Two scans for the low base,
      exact observes_bind (observes_bind (observes_scan _ _ _ _) fun _ => observes_scan _ _ _ _)
        fun _ => observes_pure _
    · exact observes_pure _
  · unfold findHi
    split
    · -- two for the high one.
      exact observes_bind (observes_scan _ _ _ _) fun _ => observes_scan _ _ _ _
    · exact observes_pure _

/-- **The search** goes wrong only if there is no range in memory. -/
theorem findRange_leaves (opts : Options) (fuel : Nat) :
    (findRange opts fuel).Leaves fun s x => x = .outOfFuel ∨
      x = .undefined s ∧ ¬∃ lo, LowBase opts s lo ∧ HighBase opts s lo := by
  intro s x h
  rcases (findRange_observes opts fuel).stops h with rfl | hx
  · refine .inr ⟨rfl, fun hbases => ?_⟩
    obtain ⟨fuel', lo, hi, hfound, -, -⟩ := (range_in_memory_iff opts s).mpr hbases
    -- Turns that are enough once are enough for more.
    have hends : findRange opts fuel s ≠ .outOfFuel := by
      intro hout
      rw [hout] at h
      cases h
    have hsame := chain_unique (fun n => findRange_below opts (Nat.le_succ n)) hends
      (hfound.trans_ne nofun)
    rw [hsame, hfound] at h
    cases h
  · exact .inl hx

/-- The range that was found is the one in memory, if there is one. -/
theorem isRange_of_findRange {opts : Options} {fuel : Nat} {s s' : Machine} {lo hi lo' : U32}
    (h : findRange opts fuel s = .ok (lo, hi) s') (hlo : LowBase opts s lo')
    (hhi : HighBase opts s lo') : IsRange lo hi := by
  obtain ⟨fuel', lo₁, hi₁, hfound, hle, hinside⟩ := (range_in_memory_iff opts s).mpr ⟨lo', hlo, hhi⟩
  have hsame := chain_unique (fun n => findRange_below opts (Nat.le_succ n)) (h.trans_ne nofun)
    (hfound.trans_ne nofun)
  rw [h, hfound] at hsame
  cases hsame
  exact ⟨hle, .inr hinside⟩

/-- **The dump** goes wrong only over something that is not a range. -/
theorem dump_leaves (lo hi : U32) :
    (dump lo hi).Leaves fun s x => x = .undefined s ∧ ¬IsRange lo hi := by
  intro s x h
  refine ⟨?_, fun hrange => ?_⟩
  · -- The bytes to write are missing only where the range is none.
    unfold dump dumpSection at h
    rw [get_bind, bind_stop, get_bind] at h
    rcases h with h | ⟨_, _, _, h⟩
    · split at h
      · cases h
      split at h
      · cases h
      · exact (require_stop.mp h).2
    · cases h
  · -- Over a range the dump returns.
    rw [dump_eq_ok.mpr ⟨hrange, rfl, rfl⟩] at h
    cases h

/-! ### Files -/

/-- A failed check exits with its message. -/
theorem check_stop {c : Bool} {msg : Message} {s : Machine} {x : Outcome Machine Empty} :
    (check c msg s).stop = some x ↔
      c = false ∧ x = .exit (-1) { s with log := .printed msg :: s.log } := by
  unfold check
  cases c with
  -- The check holds, and nothing stops.
  | true =>
    rw [if_pos rfl]
    exact iff_of_false nofun nofun
  -- It fails: a message, and the exit.
  | false =>
    rw [if_neg nofun]
    constructor
    · intro h
      cases h
      exact ⟨rfl, rfl⟩
    · rintro ⟨-, rfl⟩
      rfl

/-- Why the input file is not read, with the message that says so. -/
inductive ReadError (files : Files) (elfname : String) : Message → Prop where
  | opening (hopen : files.fopenRead elfname = none) :
      ReadError files elfname (.openingOutputFile elfname)
  | reading (hread : files.fread elfname = false) : ReadError files elfname .readingElf

/-- Why the output file is not written. -/
inductive WriteError (files : Files) (outname : String) : Message → Prop where
  | opening (hopen : files.fopenWrite outname = false) :
      WriteError files outname (.openingOutputFile outname)
  | weh (hwrite : files.fwrite outname .weh = false) : WriteError files outname .writingElfHeader
  | weph (hwrite : files.fwrite outname .weph = false) :
      WriteError files outname .writingProgramHeader
  | bytes (hwrite : files.fwrite outname .bytes = false) : WriteError files outname .dumpingSection

/-- **The input file** is not read for one of these reasons. -/
theorem readElf_leaves (files : Files) (elfname : String) :
    (readElf files elfname).Leaves fun s x => ∃ msg, ReadError files elfname msg ∧
      x = .exit (-1) { s with log := .printed msg :: s.log } := by
  intro s x h
  unfold readElf at h
  cases hopen : files.fopenRead elfname with
  | none =>
    rw [hopen] at h
    cases h
    exact ⟨_, .opening hopen, rfl⟩
  | some file =>
    rw [hopen] at h
    rcases bind_stop.mp h with hread | ⟨_, s₁, -, hrest⟩
    · obtain ⟨hc, rfl⟩ := check_stop.mp hread
      -- `fread` came short, and the file is not empty.
      exact ⟨_, .reading (Bool.or_eq_false_iff.mp hc).2, rfl⟩
    · cases hrest

/-- **The output file** is not written for one of these reasons, or what is to be written is no
range. -/
theorem writeElf_leaves (files : Files) (outname : String) (lo hi : U32) :
    (writeElf files outname lo hi).Leaves fun s x =>
      (∃ msg, WriteError files outname msg ∧
        x = .exit (-1) { s with log := .printed msg :: s.log }) ∨
      x = .undefined s ∧ ¬IsRange lo hi := by
  intro s x h
  -- The calls of the library one after the other, with the copy before the last one.
  rcases bind_stop.mp h with hopen | ⟨_, s₁, hopen, h₁⟩
  · obtain ⟨hc, rfl⟩ := check_stop.mp hopen
    exact .inl ⟨_, .opening hc, rfl⟩
  obtain ⟨-, rfl⟩ := check_eq_ok.mp hopen
  rcases bind_stop.mp h₁ with hweh | ⟨_, s₂, hweh, h₂⟩
  · obtain ⟨hc, rfl⟩ := check_stop.mp hweh
    exact .inl ⟨_, .weh hc, rfl⟩
  obtain ⟨-, rfl⟩ := check_eq_ok.mp hweh
  rcases bind_stop.mp h₂ with hweph | ⟨_, s₃, hweph, h₃⟩
  · obtain ⟨hc, rfl⟩ := check_stop.mp hweph
    exact .inl ⟨_, .weph hc, rfl⟩
  obtain ⟨-, rfl⟩ := check_eq_ok.mp hweph
  rcases bind_stop.mp h₃ with hdump | ⟨out, s₄, hdump, h₄⟩
  · exact .inr (dump_leaves lo hi hdump)
  obtain ⟨-, -, rfl⟩ := dump_eq_ok.mp hdump
  rcases bind_stop.mp h₄ with hbytes | ⟨_, s₅, -, h₅⟩
  · obtain ⟨hc, rfl⟩ := check_stop.mp hbytes
    exact .inl ⟨_, .bytes (Bool.or_eq_false_iff.mp hc).2, rfl⟩
  · cases h₅

/-! ### The whole program -/

/-- The emulation of `file`, with the options of the command line, starts in `s₀`. -/
structure Starts (args : List Opt) (file : List U8) (opts : Options) (trace : Bool) (s₀ : Machine) :
    Prop where
  options : getOptions args {} Machine.static = .ok opts (Machine.start (fun _ => 0) 0 trace)
  image : load opts file (Machine.start (fun _ => 0) 0 trace) = .ok () s₀

/-- The range and the entry point are looked for in `s`: with `-n` the options give them, otherwise
the emulation has ended with an entry point. -/
def Ready (host : Host) (opts : Options) (s₀ s : Machine) : Prop :=
  opts.norun = true ∧ s = { s₀ with bouncePc := opts.ep } ∨
    opts.norun = false ∧ Relation.ReflTransGen (LoopStep host) s₀ s ∧ s.bouncePc ≠ 0

/-- Why the program ends without a file. -/
inductive Ending (host : Host) (args : List Opt) (names : List String) (files : Files) :
    Outcome Machine Empty → Prop where
  /-- The command line is at fault, -/
  | misused {x : Outcome Machine Empty} (hmisused : Misused args x) : Ending host args names files x
  | count {s : Machine} (hnames : names.length ≠ 2)
      (hlog : s.log = [.printed (.filesSpecified names.length)]) :
      Ending host args names files (.exit (-1) s)
  /-- or the input file, -/
  | reading {elfname outname : String} {msg : Message} {s : Machine}
      (hnames : names = [elfname, outname]) (herror : ReadError files elfname msg)
      (hlog : s.log = [.printed msg]) : Ending host args names files (.exit (-1) s)
  | notElf {file : List U8} {outname : String} {magic : U32} {s : Machine}
      (hinput : files.Input names file outname) (hmagic : peek 32 (fileBytes file) 0 = some magic)
      (hne : magic ≠ ELF_MAGIC) (hlog : s.log = [.printed (.notElf magic)]) :
      Ending host args names files (.exit (-1) s)
  | notLoadable {file : List U8} {outname : String} {opts : Options} {s₁ s : Machine}
      (hinput : files.Input names file outname)
      (hopts : getOptions args {} Machine.static = .ok opts s₁) (hnot : ¬Loadable opts file) :
      Ending host args names files (.undefined s)
  /-- or the emulated program went wrong, -/
  | givesUp {file : List U8} {outname : String} {opts : Options} {trace : Bool} {s₀ s : Machine}
      {x : Outcome Machine Empty} (hinput : files.Input names file outname)
      (hstarts : Starts args file opts trace s₀) (hrun : opts.norun = false)
      (hgives : GivesUp x s) (hmemory : s.memory = replay s₀.memory s.log) :
      Ending host args names files x
  /-- or there is no range around the entry point it ended with, -/
  | noRange {file : List U8} {outname : String} {opts : Options} {trace : Bool} {s₀ s : Machine}
      (hinput : files.Input names file outname) (hstarts : Starts args file opts trace s₀)
      (hrun : opts.norun = false) (hready : Ready host opts s₀ s)
      (hnone : ¬∃ lo, LowBase opts s lo ∧ HighBase opts s lo) :
      Ending host args names files (.undefined s)
  /-- or the options of `-n` name none, -/
  | notRange {file : List U8} {outname : String} {opts : Options} {trace : Bool} {s₀ s : Machine}
      (hinput : files.Input names file outname) (hstarts : Starts args file opts trace s₀)
      (hrun : opts.norun = true)
      (hnot : ¬IsRange (if opts.lo = 0 then opts.raw else opts.lo)
        (if opts.hi = 0 then opts.raw + fileSize file else opts.hi)) :
      Ending host args names files (.undefined s)
  /-- or the output file is at fault. -/
  | writing {file : List U8} {outname : String} {opts : Options} {trace : Bool} {s₀ s : Machine}
      {msg : Message} (hinput : files.Input names file outname)
      (hstarts : Starts args file opts trace s₀) (hready : Ready host opts s₀ s)
      (herror : WriteError files outname msg) :
      Ending host args names files (.exit (-1) { s with log := .printed msg :: s.log })

section Unpack

variable {host : Host} {fuel : Nat} {args : List Opt} {names : List String} {files : Files}
  {opts : Options} {x : Outcome Machine Empty} {trace : Bool}

/-- The program after its input file is read. -/
theorem unpackFile_leaves {file : List U8} {outname : String}
    (hinput : files.Input names file outname)
    (hopts : getOptions args {} Machine.static = .ok opts (Machine.start (fun _ => 0) 0 trace))
    (h : (unpackFile host fuel files outname opts file
      (Machine.start (fun _ => 0) 0 trace)).stop = some x) :
    x = .outOfFuel ∨ Ending host args names files x := by
  -- The loader may refuse the file, or go wrong over it.
  rcases bind_stop.mp h with hload | ⟨_, s₀, hload, hrest⟩
  · obtain ⟨hnot, s, rfl⟩ | ⟨s, magic, hmagic, hne, hlog, rfl⟩ := loader_leaves opts file hload
    · exact .inr (.notLoadable hinput hopts hnot)
    · exact .inr (.notElf hinput hmagic hne hlog)
  have hstarts : Starts args file opts trace s₀ := ⟨hopts, hload⟩
  by_cases hnorun : opts.norun = true
  · -- With `-n` the range is that of the options.
    rw [if_pos hnorun] at hrest
    rcases bind_stop.mp hrest with hrange | ⟨range, s₁, hrange, hwrite⟩
    · cases hrange
    · cases hrange
      obtain ⟨msg, herror, rfl⟩ | ⟨rfl, hnot⟩ := writeElf_leaves _ _ _ _ hwrite
      · exact .inr (.writing hinput hstarts (.inl ⟨hnorun, rfl⟩) herror)
      · exact .inr (.notRange hinput hstarts hnorun hnot)
  · -- Without it the emulation comes first, and then the search.
    rw [if_neg hnorun] at hrest
    rw [Bool.not_eq_true] at hnorun
    -- The emulation stops, or it ends and leaves a state to search.
    rcases bind_stop.mp hrest with hrun | ⟨_, s, hrun, hrest⟩
    · obtain ⟨image, pc, rfl⟩ := load_start hload
      obtain hout | ⟨s, hgives, hmemory⟩ := emulate_givesUp hrun
      · exact .inl hout
      · exact .inr (.givesUp hinput hstarts hnorun hgives hmemory)
    have hready : Ready host opts s₀ s := .inr ⟨hnorun, emulate_loop hrun⟩
    rcases bind_stop.mp hrest with hfind | ⟨⟨lo, hi⟩, s₁, hfind, hwrite⟩
    · obtain hx | ⟨rfl, hnone⟩ := findRange_leaves opts fuel hfind
      · exact .inl hx
      · exact .inr (.noRange hinput hstarts hnorun hready hnone)
    · obtain rfl := findRange_state hfind
      obtain ⟨msg, herror, rfl⟩ | ⟨rfl, hnot⟩ := writeElf_leaves _ _ _ _ hwrite
      · exact .inr (.writing hinput hstarts hready herror)
      · -- What is no range when it is written was none when it was found.
        refine .inr (.noRange hinput hstarts hnorun hready fun ⟨lo', hlo, hhi⟩ => hnot ?_)
        exact isRange_of_findRange hfind hlo hhi

/-- The program once its options are known. -/
theorem unpack_leaves
    (hopts : getOptions args {} Machine.static = .ok opts (Machine.start (fun _ => 0) 0 trace))
    (h : (unpack host fuel names files opts (Machine.start (fun _ => 0) 0 trace)).stop = some x) :
    x = .outOfFuel ∨ Ending host args names files x := by
  unfold unpack at h
  split at h
  · rename_i elfname outname
    -- Two names: the input is read, or it is not.
    rcases bind_stop.mp h with hread | ⟨file, s₁, hread, hrest⟩
    · obtain ⟨msg, herror, rfl⟩ := readElf_leaves files elfname hread
      exact .inr (.reading rfl herror rfl)
    · obtain ⟨hreads, rfl⟩ := readElf_eq_ok.mp hread
      exact unpackFile_leaves ⟨elfname, rfl, hreads⟩ hopts hrest
  · rename_i hother
    -- With any other number of names the usage is printed.
    cases h
    refine .inr (.count (fun htwo => ?_) rfl)
    obtain ⟨elfname, outname, hnames⟩ := List.length_eq_two.mp htwo
    exact hother elfname outname hnames

end Unpack

/-- **Every early end is explained.** Whatever the command line, the files and the host: a run that
ends without writing a file has a reason of the list. It exits with status 0 when help is asked for,
and with −1 after a complaint about the command line or one of the two files, or after the message
about the instruction dispatched last and the report around it. It goes wrong only over a file that
is not loadable, in an undefined computation of the instruction dispatched last, in the lookup of a
tag for a branch that leaves main memory, or over a range that is none. -/
theorem endings_explained {host : Host} {fuel : Nat} {args : List Opt} {names : List String}
    {files : Files} {x : Outcome Machine Empty}
    (h : (main host fuel args names files Machine.static).stop = some x) (hx : x ≠ .outOfFuel) :
    Ending host args names files x := by
  rw [main_eq] at h
  rcases bind_stop.mp h with hstop | ⟨opts, s₁, hopts, hstop⟩
  · exact .misused (getOptions_leaves args [] nofun {} hstop rfl)
  · -- Of the state only the option `-t` has been set when the options are read.
    obtain ⟨hstart, -⟩ := getOptions_ensures args {} hopts
    have hs₁ : s₁ = Machine.start (fun _ => 0) 0 s₁.trace := hstart
    rw [hs₁] at hopts hstop
    exact (unpack_leaves hopts hstop).resolve_left hx

/-- The raw file `lui v0, 0x1000; lw v0, 0(v0)` reads from no mapping: two dispatches, the message
and seventeen lines. -/
theorem endings_explained_lw :
    let args : List Opt := [.raw 0x100, .ep 0x100]
    let files : Files := .holding [0, 0x10, 2, 0x3c, 0, 0, 0x42, 0x8c]
    ∃ status s, main .flat 2 args ["in", "out"] files Machine.static = .exit status s ∧
      s.log.length = 20 ∧ Ending .flat args ["in", "out"] files (.exit status s) := by
  intro args files
  -- The run is evaluated as far as the status and the length of the log.
  obtain ⟨status, s, hmain, hlength⟩ := Outcome.exitsWith_iff.mp
    (show (main .flat 2 args ["in", "out"] files Machine.static).exitsWith
      (fun _ s => decide (s.log.length = 20)) = true by decide +kernel)
  have hstop : (main .flat 2 args ["in", "out"] files Machine.static).stop =
      some (.exit status s) := by
    rw [hmain]
    rfl
  exact ⟨status, s, hmain, of_decide_eq_true hlength, endings_explained hstop nofun⟩

end Ps2Unpacker
