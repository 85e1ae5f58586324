import Ps2Unpacker.Machine.Main
import Ps2Unpacker.Semantics.Atoms
import Ps2Unpacker.Properties.Runs

/-!
# The output is reproducible

The program looks at the machine it was compiled for in one place only: `SQ` stores what lies on
the stack. A run is `Portable` if it executes no `SQ`. What a portable run does depends neither on
the host nor on the option `-t`, which only adds lines to what is printed.

* `SameButTrace`: two machines that differ in `-t` and in the lines it prints.
* `execI_agrees`, `emulate_agrees`, `loader_built`, `findRange_steady`: the parts of `main`.
* `reproducible`: the whole program, from the command line to the output file.
-/

namespace Ps2Unpacker

open CProg

/-! ### What is compared -/

/-- A line that only `-t` prints. -/
def Event.traced : Event → Bool
  | .printed (.trace _ _) => true
  | _ => false

/-- The machines differ in the option `-t` and in the lines it prints. -/
structure SameButTrace (s t : Machine) : Prop where
  rest : s = t.withHistory s.log s.trace
  log : s.log.filter (fun e => !e.traced) = t.log.filter fun e => !e.traced

/-- The instruction that is dispatched with `r` does not look at the host. -/
def CpuRegisters.Portable (r : CpuRegisters) : Prop := decode r.code ≠ .memory .SQ

/-- No instruction executed so far does. -/
def Machine.Portable (s : Machine) : Prop := ∀ r, .exec r ∈ s.log → r.Portable

/-- The instructions executed, in the history. -/
theorem mem_dispatched {log : List Event} {r : CpuRegisters} :
    .exec r ∈ log ↔ r ∈ log.filterMap Event.dispatched? := by
  rw [List.mem_filterMap]
  constructor
  · exact fun h => ⟨_, h, rfl⟩
  · rintro ⟨e, he, hr⟩
    cases e with
    | exec r' =>
      cases hr
      exact he
    | printed msg => cases hr
    | store mem value => cases hr

/-- Portable by the list of the instructions executed. -/
theorem Machine.portable_iff {s : Machine} :
    s.Portable ↔ ∀ r ∈ s.log.filterMap Event.dispatched?, r.Portable := by
  refine forall_congr' fun r => imp_congr_left ?_
  rw [mem_dispatched]

instance (r : CpuRegisters) : Decidable r.Portable :=
  inferInstanceAs (Decidable (_ ≠ _))

instance (s : Machine) : Decidable s.Portable := decidable_of_iff _ s.portable_iff.symm

/-- A branch is no `SQ`. -/
theorem CpuRegisters.Portable.of_branch {r : CpuRegisters} {o : BranchOp}
    (h : decode r.code = .branch o) : r.Portable := fun hSQ => by
  cases h.symm.trans hSQ

/-- The command lines differ in how often and where `-t` occurs. -/
inductive UpToTrace : List Opt → List Opt → Prop where
  | nil : UpToTrace [] []
  | cons (opt : Opt) {args args' : List Opt} (rest : UpToTrace args args') :
      UpToTrace (opt :: args) (opt :: args')
  | left {args args' : List Opt} (rest : UpToTrace args args') : UpToTrace (.trace :: args) args'
  | right {args args' : List Opt} (rest : UpToTrace args args') : UpToTrace args (.trace :: args')

namespace SameButTrace

theorem refl (s : Machine) : SameButTrace s s := ⟨rfl, rfl⟩

variable {s t : Machine}

theorem cpu (h : SameButTrace s t) : s.cpu = t.cpu :=
  (congrArg Machine.cpu h.rest).trans rfl

theorem memory (h : SameButTrace s t) : s.memory = t.memory :=
  (congrArg Machine.memory h.rest).trans rfl

theorem tags (h : SameButTrace s t) : s.tags = t.tags :=
  (congrArg Machine.tags h.rest).trans rfl

theorem bouncePc (h : SameButTrace s t) : s.bouncePc = t.bouncePc :=
  (congrArg Machine.bouncePc h.rest).trans rfl

theorem branchPC (h : SameButTrace s t) : s.branchPC = t.branchPC :=
  (congrArg Machine.branchPC h.rest).trans rfl

/-- The same change of what is neither history nor option. -/
theorem map (h : SameButTrace s t) {f : Machine → Machine}
    (hf : ∀ s log trace, f (s.withHistory log trace) = (f s).withHistory log trace) :
    SameButTrace (f s) (f t) := by
  -- The change keeps history and option.
  have hkeep : ∀ s : Machine, (f s).log = s.log ∧ (f s).trace = s.trace := fun s => by
    have hs : f s = (f s).withHistory s.log s.trace := hf s s.log s.trace
    exact ⟨(congrArg Machine.log hs).trans rfl, (congrArg Machine.trace hs).trans rfl⟩
  refine ⟨?_, by rw [(hkeep s).1, (hkeep t).1, h.log]⟩
  rw [(hkeep s).1, (hkeep s).2, ← hf, ← h.rest]

/-- The same event in both histories. -/
theorem push (h : SameButTrace s t) (e : Event) :
    SameButTrace { s with log := e :: s.log } { t with log := e :: t.log } where
  rest := congrArg (fun u : Machine => { u with log := e :: s.log }) h.rest
  log := by
    change List.filter _ (e :: s.log) = List.filter _ (e :: t.log)
    rw [List.filter_cons, List.filter_cons, h.log]

/-- A line that only `-t` prints is not compared. -/
theorem drop (h : SameButTrace s t) {e : Event} (he : e.traced = true) (b b' : Bool) :
    SameButTrace { s with log := if b then e :: s.log else s.log }
      { t with log := if b' then e :: t.log else t.log } where
  rest := congrArg (fun u : Machine => { u with log := if b then e :: s.log else s.log }) h.rest
  log := by
    -- The line is filtered out, printed or not.
    have hdrop : ∀ (c : Bool) (es : List Event),
        (if c then e :: es else es).filter (fun e => !e.traced) = es.filter fun e => !e.traced := by
      intro c es
      cases c with
      | false => rfl
      | true => exact List.filter_cons_of_neg (by simp [he])
    change List.filter _ (if b then e :: s.log else s.log) =
      List.filter _ (if b' then e :: t.log else t.log)
    rw [hdrop, hdrop, h.log]

end SameButTrace

/-- A machine whose history is a part of a portable one. -/
theorem Machine.Portable.of_suffix {s s' : Machine} (h : s'.Portable) {l : List Event}
    (hlog : s'.log = l ++ s.log) : s.Portable := by
  intro r hr
  refine h r ?_
  rw [hlog]
  exact List.mem_append_right l hr

/-! ### The atoms -/

section Atoms

variable {report : U32 → M Unit} {stack : Bool}

/-- A blind assignment keeps the history. -/
theorem BlindAssignment.log {f : Machine → Option Machine} (hf : BlindAssignment f) {s s' : Machine}
    (h : f s = some s') : s'.log = s.log := by
  have hs : f s = (f s).map (Machine.withHistory s.log s.trace) := hf s s.log s.trace
  rw [h, Option.map_some, Option.some.injEq] at hs
  exact (congrArg Machine.log hs).trans rfl

theorem reflects_emit (e : Event) : (emit e).Reflects Machine.Portable :=
  fun _ h => h.of_suffix (l := [e]) rfl

theorem reflects_cpu : cpu.Reflects Machine.Portable :=
  Prog.reflects_observe fun s => some s.cpu

theorem reflects_fatal {α : Type} (hreport : ∀ pc, (report pc).Reflects Machine.Portable)
    (msg : Message) : (fatal report msg : M α).Reflects Machine.Portable :=
  Prog.reflects_bind (reflects_emit _) fun _ =>
    Prog.reflects_bind reflects_cpu fun _ =>
      Prog.reflects_bind (hreport _) fun _ => Prog.reflects_exit (-1)

theorem reflects_assign {f : Machine → Option Machine} (hf : BlindAssignment f) :
    (Prog.modify? f).Reflects Machine.Portable :=
  Prog.reflects_modify? fun _ _ hs h => h.of_suffix (l := []) (hf.log hs)

/-- No atom forgets what was executed. -/
theorem Atom.reflects (hreport : ∀ pc, (report pc).Reflects Machine.Portable) {α : Type} {m : M α}
    (h : Atom report stack α m) : m.Reflects Machine.Portable := by
  cases h with
  | observe f blind => exact Prog.reflects_observe f
  | assign f blind => exact reflects_assign blind
  | behind f h => exact Prog.reflects_observe _
  | print msg h => exact reflects_emit _
  | store mem value => exact reflects_emit _
  | fatal msg h => exact reflects_fatal hreport msg
  | halt msg h => exact Prog.reflects_bind (reflects_emit _) fun _ => Prog.reflects_exit (-1)

theorem built_reflects (hreport : ∀ pc, (report pc).Reflects Machine.Portable) {α : Type}
    {m : M α} (h : BuiltOf report stack m) : m.Reflects Machine.Portable :=
  h.reflects fun _ _ => Atom.reflects hreport

/-- As far as it is portable, the program does the same on machines that differ in `-t`. -/
abbrev Steady {α : Type} (m : M α) : Prop := Prog.Steady Machine.Portable SameButTrace m

theorem steady_emit (e : Event) : Steady (emit e) :=
  ⟨reflects_emit e, Prog.agrees_modify fun _ _ h => h.push e⟩

theorem steady_cpu : Steady cpu := ⟨reflects_cpu, fun _ _ h _ => ⟨h.cpu, h⟩⟩

theorem steady_fatal {α : Type} (hreport : ∀ pc, Steady (report pc)) (msg : Message) :
    Steady (fatal report msg : M α) :=
  Prog.steady_bind (steady_emit _) fun _ => Prog.steady_bind steady_cpu fun _ =>
    Prog.steady_bind (hreport _) fun _ => Prog.steady_exit (-1)

/-- A blind assignment makes no difference. -/
theorem steady_assign {f : Machine → Option Machine} (hf : BlindAssignment f) :
    Steady (Prog.modify? f) := by
  -- The assignment on the first state is that on the second one.
  refine ⟨reflects_assign hf, Prog.agrees_modify? fun s t h => ?_⟩
  have hs : f s = (f t).map (Machine.withHistory s.log s.trace) := by
    rw [← hf, ← h.rest]
  cases ht : f t with
  | none =>
    rw [ht] at hs
    rw [hs]
    exact .none
  | some t' =>
    rw [ht] at hs
    rw [hs]
    refine .some ⟨rfl, ?_⟩
    change s.log.filter _ = _
    rw [h.log, hf.log ht]

/-- The atoms that do not look at the stack are steady. -/
theorem Atom.steady (hreport : ∀ pc, Steady (report pc)) {α : Type} {m : M α}
    (h : Atom report false α m) : Steady m := by
  cases h with
  | observe f blind =>
    refine Prog.steady_observe fun s t h => ?_
    rw [h.rest, blind]
  | assign f blind => exact steady_assign blind
  | behind f h => cases h
  | print msg h => exact steady_emit _
  | store mem value => exact steady_emit _
  | fatal msg h => exact steady_fatal hreport msg
  | halt msg h => exact Prog.steady_bind (steady_emit _) fun _ => Prog.steady_exit (-1)

theorem built_steady (hreport : ∀ pc, Steady (report pc)) {α : Type} {m : M α}
    (h : BuiltOf report false m) : Steady m :=
  h.steady fun _ _ => Atom.steady hreport

end Atoms

/-! ### Reports -/

/-- The report reads words and prints them. -/
theorem dumpWords_built (report : U32 → M Unit) (pc : U32) (is : List U32) :
    BuiltOf report false (dumpWords report pc is) := by
  induction is with
  | nil => exact .pure ()
  | cons i is ih =>
    exact .bind (readFrom_built report false (pc + i) 4 0 0) fun _ =>
      .bind (.atom (.print _ rfl)) fun _ => ih

/-- The report is steady at every depth. -/
theorem dumpasm_steady (depth : Nat) : ∀ pc, Steady (dumpasm depth pc) := by
  induction depth with
  | zero => exact fun _ => Prog.steady_diverge
  | succ depth ih => exact fun pc => built_steady ih (dumpWords_built _ pc dumpOffsets)

/-! ### Fetching -/

/-- A line that is printed under a condition on what both share. -/
theorem steady_printfIf (c : Bool) (msg : Message) : Steady (printfIf c msg) := by
  unfold printfIf
  split
  · exact steady_emit _
  · exact Prog.steady_pure ()

/-- The line of `-t` is not compared. -/
theorem steady_traceLine (code pc : U32) : Steady (traceLine code pc) where
  reflects := by
    refine Prog.reflects_bind Prog.reflects_get fun s => ?_
    exact (steady_printfIf s.trace _).reflects
  agrees := by
    intro s t h _
    rw [traceLine_apply, traceLine_apply]
    exact ⟨rfl, h.drop rfl s.trace t.trace⟩

theorem steady_modifyCpu (f : CpuRegisters → CpuRegisters) : Steady (modifyCpu f) where
  reflects := Prog.reflects_modify fun _ h => h.of_suffix (l := []) rfl
  agrees := Prog.agrees_modify fun _ _ h =>
    h.map (f := fun s => { s with cpu := f s.cpu }) fun _ _ _ => rfl

/-- **Fetching.** -/
theorem fetch_steady {report : U32 → M Unit} (hreport : ∀ pc, Steady (report pc)) :
    Steady (fetch report) := by
  rw [fetch_eq]
  exact Prog.steady_bind steady_cpu fun _ => Prog.steady_bind (steady_modifyCpu _) fun _ =>
    Prog.steady_bind steady_cpu fun _ => Prog.steady_bind (steady_printfIf _ _) fun _ =>
      Prog.steady_bind (built_steady hreport (readFrom_built report false _ 4 0 0)) fun _ =>
        Prog.steady_bind (steady_modifyCpu _) fun _ => Prog.steady_bind (steady_traceLine _ _)
          fun _ => Prog.steady_bind steady_cpu fun _ => steady_emit _

/-! ### One call -/

/-- What is executed is in the history. -/
theorem Executed.mem_log {s s' : Machine} {xs : List CpuRegisters} (h : Executed s s' xs)
    {x : CpuRegisters} (hx : x ∈ xs) : .exec x ∈ s'.log := by
  obtain ⟨new, hlog, rfl⟩ := h
  rw [List.mem_reverse, List.mem_filterMap] at hx
  obtain ⟨e, he, hex⟩ := hx
  rw [hlog]
  cases e with
  | exec r =>
    cases hex
    exact List.mem_append_left _ he
  | printed msg => cases hex
  | store mem value => cases hex

theorem hasWrite_same (s t : Machine) (mem : U32) (h : SameButTrace s t) :
    hasWrite s mem = hasWrite t mem := by
  unfold hasWrite
  rw [h.tags]

/-- The jump out of a slot goes to the same place. -/
theorem leaveSlot_same {s t : Machine} (h : SameButTrace s t) :
    SameButTrace s.leaveSlot t.leaveSlot := by
  have hjump : SameButTrace s.jump t.jump := h.map (f := Machine.jump) fun _ _ _ => rfl
  unfold Machine.leaveSlot
  rw [← h.branchPC, ← hasWrite_same s t _ h]
  -- In the written block both note the entry point and say so.
  split
  · exact (hjump.push (.printed (.execHitWritten (s.branchPC.setWidth 32)))).map
      (f := fun u => { u with bouncePc := s.branchPC.setWidth 32 }) fun _ _ _ => rfl
  · exact hjump

/-- **The jump** with its lookup. -/
theorem finishBranch_steady : Steady Handler.finishBranch where
  reflects := by
    intro s h
    rw [finishBranch_apply] at h
    split at h
    · obtain ⟨new, -, hext⟩ := leaveSlot_log s
      exact h.of_suffix hext.log
    · exact h.of_suffix (l := []) rfl
  agrees := by
    intro s t h _
    -- In memory the lookups agree, and out of range neither call returns.
    rw [finishBranch_apply, finishBranch_apply, ← h.branchPC]
    split
    · exact ⟨rfl, leaveSlot_same h⟩
    · exact h.map (f := Machine.jump) fun _ _ _ => rfl

section Call

variable {report : U32 → M Unit}

/-- A handler can only add instructions. -/
theorem Op.run_reflects (host : Host) (hreport : ∀ pc, Steady (report pc)) {execI : M Unit}
    (hexecI : execI.Reflects Machine.Portable) (o : Op) :
    (o.run host report execI).Reflects Machine.Portable := by
  cases o with
  | branch o =>
    intro s h
    change (o.run execI s).EndsIn Machine.Portable at h
    rw [BranchOp.run_eq] at h
    split at h
    · -- the slot, then the jump
      rw [doBranch_apply] at h
      exact (Prog.reflects_bind hexecI (fun _ => finishBranch_steady.reflects) h).of_suffix
        (l := []) rfl
    · exact h.of_suffix (l := []) rfl
  | _ =>
    exact built_reflects (fun pc => (hreport pc).reflects)
      (Op.run_built report true host execI (by simp) fun _ => rfl)

/-- So can a call. -/
theorem execI_reflects (host : Host) (hreport : ∀ pc, Steady (report pc)) (n : Nat) :
    (execI host report n).Reflects Machine.Portable := by
  induction n with
  | zero => exact Prog.reflects_diverge
  | succ n ih =>
    exact Prog.reflects_bind (fetch_steady hreport).reflects fun _ =>
      Prog.reflects_bind reflects_cpu fun r => Op.run_reflects host hreport ih _

/-- A branch that is taken, if its delay slot does the same. -/
theorem doBranch_agrees {execI execI' : M Unit} {s t : Machine} {o : BranchOp}
    (hst : SameButTrace s t) (hslot : execI.Agrees Machine.Portable SameButTrace execI')
    (h : ((execI >>= fun _ => Handler.finishBranch) (s.enterSlot o)).EndsIn Machine.Portable) :
    ((execI >>= fun _ => Handler.finishBranch) (s.enterSlot o)).Rel SameButTrace
      ((execI' >>= fun _ => Handler.finishBranch) (t.enterSlot o)) := by
  have henter : SameButTrace (s.enterSlot o) (t.enterSlot o) :=
    hst.map (f := Machine.enterSlot o) fun _ _ _ => rfl
  exact Prog.agrees_bind hslot (fun _ => finishBranch_steady.agrees)
    (fun _ => finishBranch_steady.reflects) henter h

/-- Every handler but the branches and `SQ`. -/
theorem Op.run_agrees (host host' : Host) (hreport : ∀ pc, Steady (report pc))
    (execI execI' : M Unit) {o : Op} (hop : ∀ b, o ≠ .branch b) (hSQ : o ≠ .memory .SQ) :
    (o.run host report execI).Agrees Machine.Portable SameButTrace (o.run host' report execI') := by
  -- The host and the interpreter are not looked at.
  have hsame : o.run host' report execI' = o.run host report execI := by
    cases o with
    | branch o => exact absurd rfl (hop o)
    | memory o =>
      cases o with
      | SQ => exact absurd rfl hSQ
      | _ => rfl
    | _ => rfl
  rw [hsame]
  have hbuilt := Op.run_built report false host execI hop fun h => absurd h hSQ
  exact (built_steady hreport hbuilt).agrees

/-- **A portable call** does the same on every host, with and without `-t`. -/
theorem execI_agrees (host host' : Host) (hreport : ∀ pc, Steady (report pc)) (n : Nat) :
    (execI host report n).Agrees Machine.Portable SameButTrace (execI host' report n) := by
  -- On the depth; the delay slot is a call one level down.
  induction n with
  | zero => exact Prog.agrees_diverge
  | succ n ih =>
    intro s t hst h
    have hreflects : ∀ r : CpuRegisters,
        ((decode r.code).run host report (execI host report n)).Reflects Machine.Portable :=
      fun r => Op.run_reflects host hreport (execI_reflects host hreport n) _
    refine Prog.rel_bind (fetch_steady hreport).agrees
      (fun _ => Prog.reflects_bind reflects_cpu hreflects) hst ?_ h
    intro _ s₀ t₀ hfetch hst₀ h₀
    rw [cpu_bind] at h₀ ⊢
    rw [cpu_bind, ← hst₀.cpu]
    -- The instruction was entered into the history, so it is portable.
    have hmem : .exec s₀.cpu ∈ s₀.log :=
      (fetch_ensures report hfetch).executed.mem_log List.mem_cons_self
    have hSQ := hreflects s₀.cpu h₀ s₀.cpu hmem
    cases hd : decode s₀.cpu.code with
    | branch o =>
      rw [hd] at h₀
      change (o.run (execI host report n) s₀).EndsIn _ at h₀
      change (o.run (execI host report n) s₀).Rel _ (o.run (execI host' report n) t₀)
      by_cases htaken : o.taken s₀.cpu = true
      · -- The slot is the inner call, by the hypothesis.
        rw [BranchOp.run_of_taken htaken] at h₀ ⊢
        rw [BranchOp.run_of_taken (by rwa [← hst₀.cpu])]
        exact doBranch_agrees hst₀ ih h₀
      · -- The instruction is passed over in both.
        rw [BranchOp.run_eq, BranchOp.run_eq, ← hst₀.cpu, if_neg htaken, if_neg htaken]
        exact ⟨rfl, hst₀.map (f := fun u => { u with cpu := o.skip s₀.cpu }) fun _ _ _ => rfl⟩
    -- No branch: the handler alone.
    | _ =>
      refine Op.run_agrees host host' hreport _ _ (by simp) ?_ hst₀ (by rwa [hd] at h₀)
      rwa [CpuRegisters.Portable, hd] at hSQ

end Call

/-! ### The program -/

/-- So can the whole emulation. -/
theorem emulate_reflects (host : Host) (depth levels turns : Nat) :
    (emulate host depth levels turns).Reflects Machine.Portable := by
  induction turns with
  | zero => exact Prog.reflects_diverge
  | succ turns ih =>
    refine Prog.reflects_bind Prog.reflects_get fun s => ?_
    split
    · exact Prog.reflects_bind (execI_reflects host (dumpasm_steady depth) levels) fun _ => ih
    · exact Prog.reflects_pure ()

/-- **The emulation.** -/
theorem emulate_agrees (host host' : Host) (depth levels turns : Nat) :
    (emulate host depth levels turns).Agrees Machine.Portable SameButTrace
      (emulate host' depth levels turns) := by
  induction turns with
  -- On the turns.
  | zero => exact Prog.agrees_diverge
  | succ turns ih =>
    intro s t hst h
    unfold emulate at h ⊢
    rw [Prog.get_bind] at h ⊢
    -- The loop goes on in both or in neither.
    rw [Prog.get_bind, ← hst.bouncePc]
    split
    · rename_i hzero
      rw [if_pos hzero] at h
      exact Prog.agrees_bind (execI_agrees host host' (dumpasm_steady depth) levels) (fun _ => ih)
        (fun _ => emulate_reflects host depth levels turns) hst h
    · exact ⟨rfl, hst⟩

section Load

variable (report : U32 → M Unit)

theorem built_require {α : Type} (o : Option α) : BuiltOf report false (Prog.require o) :=
  .atom (.observe (fun _ => o) fun _ _ _ => rfl)

/-- A section that is loaded is an assignment. -/
theorem loadSection_built (mem : U32) (bytes : List U8) (offset : Nat) (size : U32) :
    BuiltOf report false (loadSection mem bytes offset size) := by
  refine .atom (.assign _ fun s log trace => ?_)
  split
  · rfl
  · split <;> rfl

/-- A segment. -/
theorem loadSegment_built (bytes : List U8) (eph : Int) :
    BuiltOf report false (loadSegment bytes eph) := by
  refine .bind (built_require report _) fun type => ?_
  split
  · exact .bind (built_require report _) fun _ => .bind (built_require report _) fun _ =>
      .bind (built_require report _) fun _ => loadSection_built report _ _ _ _
  · exact .pure ()

/-- All segments. -/
theorem loadSegments_built (bytes : List U8) (n : Nat) :
    ∀ i eph, BuiltOf report false (loadSegments bytes n i eph) := by
  induction n with
  | zero => exact fun _ _ => .pure ()
  | succ n ih =>
    exact fun i eph => .bind (loadSegment_built report bytes eph) fun _ =>
      .bind (built_require report _) fun _ => .bind (built_require report _) fun _ => ih _ _

/-- An ELF file. -/
theorem loadElf_built (bytes : List U8) : BuiltOf report false (loadElf bytes) := by
  refine .bind (built_require report _) fun magic => ?_
  split
  · exact .atom (.halt _ rfl)
  · exact .bind (built_require report _) fun _ => .bind (built_require report _) fun _ =>
      loadSegments_built report bytes _ _ _

/-- **The loader** is composed of the same atoms as the handlers. -/
theorem loader_built (opts : Options) (file : List U8) :
    BuiltOf report false (load opts file) := by
  refine .bind (built_modify report false fun _ _ _ => rfl) fun _ => .bind ?_ fun _ =>
    .bind (built_require report _) fun _ => built_modifyCpu report false _
  unfold loadImage
  split
  · exact loadSection_built report _ _ _ _
  · exact loadElf_built report _

end Load

theorem steady_bouncePc {α : Type} {f : U32 → M α} (hf : ∀ pc, Steady (f pc)) :
    Steady (do let s ← Prog.get; f s.bouncePc) :=
  Prog.steady_bind (f := f) (m := Prog.observe fun s : Machine => some s.bouncePc)
    (Prog.steady_observe fun _ _ h => congrArg some h.bouncePc) hf

theorem isZero_same (s t : Machine) (mem : U32) (h : SameButTrace s t) :
    isZero s mem = isZero t mem := by
  unfold isZero
  rw [h.memory]

/-- **The search for the range.** -/
theorem findRange_steady (opts : Options) (fuel : Nat) : Steady (findRange opts fuel) := by
  refine steady_bouncePc (f := fun pc => do
    let lo ← findLo opts fuel pc
    let hi ← findHi opts fuel pc
    pure (lo, hi)) fun pc => ?_
  -- Four scans, each with a test that both pass or fail.
  refine Prog.steady_bind ?_ fun lo => Prog.steady_bind ?_ fun hi => Prog.steady_pure _
  · unfold findLo
    split
    · refine Prog.steady_bind ?_ fun lo => Prog.steady_pure _
      exact Prog.steady_bind (Prog.steady_scan (fun s t x => hasWrite_same s t (x - 1)) _ fuel pc)
        fun lo => Prog.steady_scan isZero_same _ fuel lo
    · exact Prog.steady_pure _
  · unfold findHi
    split
    · exact Prog.steady_bind (Prog.steady_scan (fun s t x => hasWrite_same s t (x + 1)) _ fuel pc)
        fun hi => Prog.steady_scan (fun s t x => isZero_same s t (x - 1)) _ fuel hi
    · exact Prog.steady_pure _

/-- The range of `-n`. -/
theorem norunRange_steady (opts : Options) (size : U32) : Steady (norunRange opts size) := by
  refine Prog.steady_bind ?_ fun _ => Prog.steady_pure _
  exact ⟨Prog.reflects_modify fun _ h => h.of_suffix (l := []) rfl, Prog.agrees_modify fun _ _ h =>
    h.map (f := fun s => { s with bouncePc := opts.ep }) fun _ _ _ => rfl⟩

/-- **The dump.** -/
theorem dump_steady (lo hi : U32) : Steady (dump lo hi) := by
  refine steady_bouncePc (f := fun pc => do
    let data ← dumpSection lo (hi - lo)
    pure (writeAt ((dumpHeader pc).bytes ++ (dumpPheader lo hi).bytes) 0x1000 data)) fun pc => ?_
  refine Prog.steady_bind ⟨?_, ?_⟩ fun data => Prog.steady_pure _
  · refine Prog.reflects_bind Prog.reflects_get fun s => ?_
    split
    · exact Prog.reflects_pure _
    split
    · exact Prog.reflects_pure _
    · exact Prog.reflects_require _
  · intro s t h _
    unfold dumpSection
    rw [Prog.get_bind, Prog.get_bind, h.memory]
    split
    · exact ⟨rfl, h⟩
    -- The bytes of the range are the same.
    split
    · exact ⟨rfl, h⟩
    · exact h

/-- One option. -/
theorem set_steady (opts : Options) (opt : Opt) : Steady (opts.set opt) := by
  cases opt with
  | lo | hi | align | ep | raw | norun => exact Prog.steady_pure _
  | trace =>
    -- `-t` alone sets what is not compared.
    refine Prog.steady_bind ⟨?_, ?_⟩ fun _ => Prog.steady_pure _
    · exact Prog.reflects_modify fun _ h => h.of_suffix (l := []) rfl
    · refine Prog.agrees_modify fun s t h => ⟨?_, h.log⟩
      exact congrArg (fun u : Machine => { u with trace := true }) h.rest
  | help => exact Prog.steady_bind (steady_emit _) fun _ => Prog.steady_exit 0
  | unknown c =>
    exact Prog.steady_bind (steady_emit _) fun _ => Prog.steady_bind (steady_emit _) fun _ =>
      Prog.steady_exit (-1)

/-- Reading the options adds no instruction. -/
theorem getOptions_reflects (args : List Opt) :
    ∀ opts, (getOptions args opts).Reflects Machine.Portable := by
  induction args with
  | nil => exact fun opts => Prog.reflects_pure opts
  | cons opt args ih => exact fun opts => Prog.reflects_bind (set_steady opts opt).reflects ih

/-- **The command line.** -/
theorem getOptions_agrees {args args' : List Opt} (h : UpToTrace args args') :
    ∀ opts,
      (getOptions args opts).Agrees Machine.Portable SameButTrace (getOptions args' opts) := by
  induction h with
  | nil => exact fun opts => Prog.agrees_pure opts
  | @cons opt args args' rest ih =>
    exact fun opts => Prog.agrees_bind (set_steady opts opt).agrees ih (getOptions_reflects args)
  | @left args args' rest ih =>
    intro opts s t hst hend
    -- `-t` on the left sets what is not compared.
    have hset : SameButTrace { s with trace := true } t :=
      ⟨congrArg (fun u : Machine => { u with trace := true }) hst.rest, hst.log⟩
    exact ih opts hset hend
  | @right args args' rest ih =>
    intro opts s t hst hend
    have hset : SameButTrace s { t with trace := true } := ⟨hst.rest, hst.log⟩
    exact ih opts hset hend

/-- A check is steady. -/
theorem check_steady (c : Bool) (msg : Message) : Steady (check c msg) := by
  unfold check
  split
  · exact Prog.steady_pure ()
  · exact Prog.steady_bind (steady_emit _) fun _ => Prog.steady_exit (-1)

theorem steady_printExit (msg : Message) (status : Int) :
    Steady (printf msg >>= fun _ => Prog.exit status : M (List U8)) :=
  Prog.steady_bind (steady_emit _) fun _ => Prog.steady_exit status

/-- **The input file.** -/
theorem readElf_steady (files : Files) (elfname : String) : Steady (readElf files elfname) := by
  unfold readElf
  split
  · exact steady_printExit _ (-1)
  · exact Prog.steady_bind (check_steady _ _) fun _ => Prog.steady_pure _

/-- **The output file.** -/
theorem writeElf_steady (files : Files) (outname : String) (lo hi : U32) :
    Steady (writeElf files outname lo hi) :=
  Prog.steady_bind (check_steady _ _) fun _ => Prog.steady_bind (check_steady _ _) fun _ =>
    Prog.steady_bind (check_steady _ _) fun _ => Prog.steady_bind (dump_steady lo hi) fun _ =>
      Prog.steady_bind (check_steady _ _) fun _ => Prog.steady_pure _

section Files

variable (files : Files) (outname : String)

/-- A range and the file written from it. -/
theorem writeElf_range_steady {m : M (U32 × U32)} (hm : Steady m) :
    Steady (m >>= fun range => writeElf files outname range.1 range.2) :=
  Prog.steady_bind hm fun range => writeElf_steady files outname range.1 range.2

/-- The work on a file can only add instructions. -/
theorem unpackFile_reflects (host : Host) (fuel : Nat) (opts : Options) (file : List U8) :
    (unpackFile host fuel files outname opts file).Reflects Machine.Portable := by
  refine Prog.reflects_bind
    (built_steady (dumpasm_steady 0) (loader_built _ opts file)).reflects fun _ => ?_
  split
  · exact (writeElf_range_steady files outname (norunRange_steady opts _)).reflects
  · exact Prog.reflects_bind (emulate_reflects host fuel fuel fuel) fun _ =>
      (writeElf_range_steady files outname (findRange_steady opts fuel)).reflects

/-- **The work on a file** on two hosts. -/
theorem unpackFile_agrees (host host' : Host) (fuel : Nat) (opts : Options) (file : List U8) :
    (unpackFile host fuel files outname opts file).Agrees Machine.Portable SameButTrace
      (unpackFile host' fuel files outname opts file) := by
  refine Prog.agrees_bind (built_steady (dumpasm_steady 0) (loader_built _ opts file)).agrees
    (fun _ => ?_) fun _ => ?_
  · -- The range comes from the options, or from the emulation and a search.
    split
    · exact (writeElf_range_steady files outname (norunRange_steady opts _)).agrees
    · exact Prog.agrees_bind (emulate_agrees host host' fuel fuel fuel)
        (fun _ => (writeElf_range_steady files outname (findRange_steady opts fuel)).agrees)
        fun _ => (writeElf_range_steady files outname (findRange_steady opts fuel)).reflects
  · split
    · exact (writeElf_range_steady files outname (norunRange_steady opts _)).reflects
    · exact Prog.reflects_bind (emulate_reflects host fuel fuel fuel) fun _ =>
        (writeElf_range_steady files outname (findRange_steady opts fuel)).reflects

end Files

/-- With the names, before the file is read. -/
theorem unpack_reflects (host : Host) (fuel : Nat) (names : List String) (files : Files)
    (opts : Options) : (unpack host fuel names files opts).Reflects Machine.Portable := by
  unfold unpack
  split
  · exact Prog.reflects_bind (readElf_steady files _).reflects fun file =>
      unpackFile_reflects files _ host fuel opts file
  · exact (steady_printExit _ (-1)).reflects

/-- With the names, on two hosts. -/
theorem unpack_agrees (host host' : Host) (fuel : Nat) (names : List String) (files : Files)
    (opts : Options) :
    (unpack host fuel names files opts).Agrees Machine.Portable SameButTrace
      (unpack host' fuel names files opts) := by
  unfold unpack
  split
  · exact Prog.agrees_bind (readElf_steady files _).agrees
      (fun file => unpackFile_agrees files _ host host' fuel opts file) fun file =>
        unpackFile_reflects files _ host fuel opts file
  · exact (steady_printExit _ (-1)).agrees

/-- **Reproducibility.** If a run of the program ends after portable instructions only, then on
every other host, and with `-t` given or not, it ends in the same way: with the same output file or
the same exit status, and in a state that differs in the lines of `-t` alone. -/
theorem reproducible (host host' : Host) (fuel : Nat) {args args' : List Opt}
    (hargs : UpToTrace args args') (names : List String) (files : Files)
    (hend : (main host fuel args names files Machine.static).EndsIn Machine.Portable) :
    (main host fuel args names files Machine.static).Rel SameButTrace
      (main host' fuel args' names files Machine.static) := by
  rw [main_eq] at hend ⊢
  rw [main_eq]
  exact Prog.agrees_bind (getOptions_agrees hargs {}) (unpack_agrees host host' fuel names files)
    (unpack_reflects host fuel names files) (SameButTrace.refl _) hend

/-- The raw file `addiu v1, r0, 7; addiu a0, r0, 0x200; syscall` with `-t` on one host and without
it on another. -/
theorem reproducible_execPS2 :
    let args : List Opt := [.raw 0x100, .ep 0x100, .lo 0x100, .hi 0x104]
    let file : List U8 := [7, 0, 3, 0x24, 0, 2, 4, 0x24, 0xc, 0, 0, 0]
    (main .flat 4 (.trace :: args) ["in", "out"] (.holding file) Machine.static).Rel SameButTrace
      (main ⟨0, fun _ => 1⟩ 4 args ["in", "out"] (.holding file) Machine.static) := by
  intro args file
  exact reproducible .flat _ 4 (.left (.cons _ (.cons _ (.cons _ (.cons _ .nil))))) _ _
    (by decide +kernel)

end Ps2Unpacker
