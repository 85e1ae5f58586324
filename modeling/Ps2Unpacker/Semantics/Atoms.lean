import Ps2Unpacker.Framework.Agreement
import Ps2Unpacker.Machine.InterTables

/-!
# What the handlers are composed of

Every handler but the branches is a sequence of a few kinds of atoms: it looks at the machine,
assigns to it, prints, stores a byte, or ends the program with a message. Two things it never does:
it does not look at the history and the option `-t`, nor assign to them (`Blind`,
`BlindAssignment`); and it prints none of the two messages that `execI` prints on its own account
(`Message.ofStep`).

`SQ` is set apart by the flag `stack`, since it looks at the stack of the program itself, and
nothing is known about what a host leaves there.

* `MemOp.run_built`, `Op.run_built`: the handlers are composed of these atoms.
-/

namespace Ps2Unpacker

open CProg Lanes

/-- The machine with another history and another setting of `-t`. -/
def Machine.withHistory (log : List Event) (trace : Bool) (s : Machine) : Machine :=
  { s with log := log, trace := trace }

/-- The observation does not depend on the history, nor on `-t`. -/
def Blind {β : Type} (f : Machine → Option β) : Prop :=
  ∀ s log trace, f (s.withHistory log trace) = f s

/-- The assignment neither depends on them nor changes them. -/
def BlindAssignment (f : Machine → Option Machine) : Prop :=
  ∀ s log trace, f (s.withHistory log trace) = (f s).map (Machine.withHistory log trace)

/-- The messages of `execI` itself. -/
def Message.ofStep : Message → Bool
  | .stillRunning _ _ => true
  | .trace _ _ => true
  | _ => false

/-- What the handlers are composed of. -/
inductive Atom (report : U32 → M Unit) (stack : Bool) : ∀ α : Type, M α → Prop where
  | observe {β : Type} (f : Machine → Option β) (blind : Blind f) :
      Atom report stack β (Prog.observe f)
  | assign (f : Machine → Option Machine) (blind : BlindAssignment f) :
      Atom report stack Unit (Prog.modify? f)
  /-- A look at the stack of the program. -/
  | behind (f : Machine → U64) (h : stack = true) :
      Atom report stack U64 (Prog.observe fun s => some (f s))
  | print (msg : Message) (h : msg.ofStep = false) : Atom report stack Unit (printf msg)
  | store (mem : U32) (value : U8) : Atom report stack Unit (emit (.store mem value))
  /-- An error that is reported with the words around the instruction. -/
  | fatal {α : Type} (msg : Message) (h : msg.ofStep = false) :
      Atom report stack α (fatal report msg)
  /-- One that is not. -/
  | halt (msg : Message) (h : msg.ofStep = false) :
      Atom report stack Unit (printf msg >>= fun _ => Prog.exit (-1))

/-- A program composed of these atoms. -/
abbrev BuiltOf (report : U32 → M Unit) (stack : Bool) {α : Type} (m : M α) : Prop :=
  Prog.Built (Atom report stack) α m

section Built

variable (report : U32 → M Unit) (stack : Bool)

/-! ### Registers and globals -/

/-- A look at something other than the history. -/
theorem built_observe {β : Type} {f : Machine → β}
    (blind : ∀ s log trace, f (s.withHistory log trace) = f s) :
    BuiltOf report stack (Prog.observe fun s => some (f s)) :=
  .atom (.observe _ fun s log trace => congrArg some (blind s log trace))

theorem built_cpu : BuiltOf report stack cpu :=
  built_observe report stack (f := Machine.cpu) fun _ _ _ => rfl

theorem built_modify {f : Machine → Machine}
    (blind : ∀ s log trace, f (s.withHistory log trace) = (f s).withHistory log trace) :
    BuiltOf report stack (Prog.modify f) :=
  .atom (.assign (fun s => some (f s)) fun s log trace => congrArg some (blind s log trace))

theorem built_modifyCpu (f : CpuRegisters → CpuRegisters) :
    BuiltOf report stack (modifyCpu f) :=
  built_modify report stack fun _ _ _ => rfl

theorem built_modifyCpu? (f : CpuRegisters → Option CpuRegisters) :
    BuiltOf report stack (modifyCpu? f) := by
  refine .atom (.assign _ fun s log trace => ?_)
  change (f s.cpu).map _ = ((f s.cpu).map _).map _
  rw [Option.map_map]
  rfl

/-- What is done with the registers as they are. -/
theorem built_cpu_bind {β : Type} {f : CpuRegisters → M β}
    (hf : ∀ r, BuiltOf report stack (f r)) : BuiltOf report stack (cpu >>= f) :=
  (built_cpu report stack).bind hf

/-! ### Accessors -/

/-- Translation, whose errors are fatal. -/
theorem translate_built (access : Access) (mem : U32) :
    BuiltOf report stack (translate report access mem) := by
  refine .bind ?_ fun mem' => ?_
  · -- the mapping switch
    unfold unmap
    split
    · exact .pure _
    · split
      · exact .pure _
      · exact .atom (.fatal _ rfl)
  · -- the range check
    unfold inRange
    split
    · exact .pure _
    · exact built_cpu_bind report stack fun _ => .atom (.fatal _ rfl)

/-- A byte is looked up, then tagged. -/
theorem memRead8_built (mem : U32) : BuiltOf report stack (memRead8 report mem) := by
  -- The byte is looked up before it is tagged.
  change BuiltOf report stack (translate report .reading mem >>= fun m =>
    Prog.observe (fun s => some (s.memory m)) >>= fun b => tagRead m >>= fun _ => pure b)
  exact .bind (translate_built report stack .reading mem) fun m =>
    .bind (built_observe report stack fun _ _ _ => rfl) fun b =>
      .bind (built_modify report stack fun _ _ _ => rfl) fun _ => .pure b

/-- A byte is assigned and tagged, and the store recorded. -/
theorem memWrite8_built (mem : U32) (value : U8) :
    BuiltOf report stack (memWrite8 report mem value) :=
  .bind (translate_built report stack .writing mem) fun _ =>
    .bind (built_modify report stack fun _ _ _ => rfl) fun _ =>
      .bind (built_modify report stack fun _ _ _ => rfl) fun _ => .atom (.store mem value)

theorem readFrom_built {w : Nat} (mem : U32) (n : Nat) :
    ∀ (k : Nat) (value : BitVec w), BuiltOf report stack (readFrom report mem k n value) := by
  induction n with
  | zero => exact fun _ value => .pure value
  | succ n ih => exact fun k _ => .bind (memRead8_built report stack _) fun _ => ih (k + 1) _

theorem writeFrom_built {w : Nat} (mem : U32) (value : BitVec w) (n : Nat) :
    ∀ k, BuiltOf report stack (writeFrom report mem value k n) := by
  induction n with
  | zero => exact fun _ => .pure ()
  | succ n ih => exact fun k => .bind (memWrite8_built report stack _ _) fun _ => ih (k + 1)

/-! ### Loads and stores -/

/-- A load into `rt`. -/
theorem load_built {α : Type} {addr : CpuRegisters → U32} {read : U32 → M α} {ext : α → U64}
    (hread : ∀ mem, BuiltOf report stack (read mem)) :
    BuiltOf report stack (do let val ← read (addr (← cpu)); Handler.loadRt (ext val)) :=
  built_cpu_bind report stack fun r =>
    .bind (hread (addr r)) fun _ => built_modifyCpu report stack _

/-- A load of part of `rt`. -/
theorem merge_built {w : Nat} {addr : CpuRegisters → U32}
    {merge : CpuRegisters → BitVec w → CpuRegisters → U64} (n : Nat) :
    BuiltOf report stack (do
      let r ← cpu
      if r.rt = 0 then pure ()
      else do
        let mem ← readFrom report (addr r) 0 n (0 : BitVec w)
        modifyCpu fun r' => r'.setLane r'.rt 0 (merge r mem r')) := by
  refine built_cpu_bind report stack fun r => ?_
  split
  · exact .pure ()
  · exact .bind (readFrom_built report stack _ n 0 0) fun _ => built_modifyCpu report stack _

/-- A store. -/
theorem store_built {w : Nat} {addr : CpuRegisters → U32} {value : CpuRegisters → BitVec w}
    (n : Nat) :
    BuiltOf report stack (do let r ← cpu; writeFrom report (addr r) (value r) 0 n) :=
  built_cpu_bind report stack fun _ => writeFrom_built report stack _ _ n 0

/-- A store of part of `rt`. -/
theorem mergeStore_built {w : Nat} {addr : CpuRegisters → U32}
    {merge : CpuRegisters → BitVec w → BitVec w} (n : Nat) :
    BuiltOf report stack (do
      let r ← cpu
      let mem ← readFrom report (addr r) 0 n (0 : BitVec w)
      writeFrom report (addr r) (merge r mem) 0 n) :=
  built_cpu_bind report stack fun _ => .bind (readFrom_built report stack _ n 0 0) fun _ =>
    writeFrom_built report stack _ _ n 0

/-- **Loads and stores**; `SQ` looks at the stack. -/
theorem MemOp.run_built (host : Host) (o : MemOp) (hstack : o = .SQ → stack = true) :
    BuiltOf report stack (o.run host report) := by
  cases o with
  -- By the accessor the handler calls; all but `SQ` take their value from `rt`.
  | LB | LBU => exact load_built report stack (memRead8_built report stack)
  | LH | LHU => exact load_built report stack fun mem => readFrom_built report stack mem 2 0 0
  | LW | LWU => exact load_built report stack fun mem => readFrom_built report stack mem 4 0 0
  | LD =>
    exact @load_built report stack _ _ _ id fun mem => readFrom_built report stack mem 8 0 0
  | LWL | LWR => exact merge_built report stack 4
  | LDL | LDR => exact merge_built report stack 8
  | LQ =>
    exact built_cpu_bind report stack fun _ => .bind (readFrom_built report stack _ 16 0 0) fun _ =>
      built_modifyCpu report stack _
  | SB => exact built_cpu_bind report stack fun _ => memWrite8_built report stack _ _
  | SH => exact store_built report stack 2
  | SW => exact store_built report stack 4
  | SD => exact store_built report stack 8
  | SWL | SWR => exact mergeStore_built report stack 4
  | SDL | SDR => exact mergeStore_built report stack 8
  | SQ =>
    -- The handler looks at the stack before it writes.
    change BuiltOf report stack (cpu >>= fun r =>
      Prog.observe (fun s => some (host.behindValue s)) >>= fun v =>
        writeFrom report (Handler.addressOut r &&& ~~~0xf) (v ++ Handler.addressOfRt host r) 0 16)
    exact built_cpu_bind report stack fun _ =>
      .bind (.atom (.behind host.behindValue (hstack rfl))) fun _ =>
        writeFrom_built report stack _ _ 16 0

/-! ### The system instructions -/

/-- `COP0`. -/
theorem COP0_built : BuiltOf report stack (Handler.COP0 report) := by
  refine built_cpu_bind report stack fun r => ?_
  split
  · exact built_modifyCpu report stack _
  split
  · exact .pure ()
  split
  · exact .pure ()
  · exact .atom (.fatal _ rfl)

/-- `SYSCALL`. -/
theorem SYSCALL_built : BuiltOf report stack (Handler.SYSCALL report) := by
  refine built_cpu_bind report stack fun r => ?_
  dsimp only
  -- In the order of the switch; what is not handled ends the program without a report.
  split
  · exact .atom (.fatal _ rfl)
  split
  · exact .bind (built_modify report stack fun _ _ _ => rfl) fun _ => .atom (.print _ rfl)
  split
  · exact .bind (built_modify report stack fun _ _ _ => rfl) fun _ => .atom (.print _ rfl)
  split
  · exact .bind (built_modifyCpu report stack _) fun _ =>
      built_cpu_bind report stack fun _ => .atom (.print _ rfl)
  split
  · exact .pure ()
  split
  · exact .bind (.atom (.print _ rfl)) fun _ => built_modify report stack fun _ _ _ => rfl
  · exact .atom (.halt _ rfl)

/-- **The handlers**, all but the branches. -/
theorem Op.run_built (host : Host) (execI : M Unit) {o : Op} (hop : ∀ b, o ≠ .branch b)
    (hstack : o = .memory .SQ → stack = true) :
    BuiltOf report stack (o.run host report execI) := by
  cases o with
  | register o => exact built_modifyCpu? report stack o.run
  | memory o => exact o.run_built report stack host fun h => hstack (congrArg Op.memory h)
  | branch o => exact absurd rfl (hop o)
  | COP0 => exact COP0_built report stack
  | SYSCALL => exact SYSCALL_built report stack
  | BREAK => exact built_cpu_bind report stack fun _ => .atom (.halt _ rfl)
  | UnknownOpcode => exact built_cpu_bind report stack fun _ => .atom (.fatal _ rfl)
  | MMI_Unknown => exact .atom (.fatal _ rfl)

end Built

/-! ### The fetch -/

/-- A message that is printed on a condition. -/
theorem printfIf_apply (c : Bool) (msg : Message) (s : Machine) :
    printfIf c msg s =
      .ok () { s with log := if c then .printed msg :: s.log else s.log } := by
  unfold printfIf
  by_cases hc : c = true
  · rw [if_pos hc, if_pos hc]
    rfl
  · rw [if_neg hc, if_neg hc]
    rfl

/-- The line of `-t`. -/
def traceLine (code pc : U32) : M Unit := do printfIf (← Prog.get).trace (.trace code pc)

/-- The line of `-t`. -/
theorem traceLine_apply (code pc : U32) (s : Machine) :
    traceLine code pc s = .ok ()
      { s with log := if s.trace then .printed (.trace code pc) :: s.log else s.log } :=
  printfIf_apply s.trace _ s

/-- `fetch` as the sequence of its phases. -/
theorem fetch_eq (report : U32 → M Unit) :
    fetch report = (cpu >>= fun r₀ =>
      modifyCpu (fun r => { r with pc := r.pc + 4, cycle := r.cycle + 1 }) >>= fun _ =>
      cpu >>= fun r =>
      printfIf (r.cycle &&& 0xffffff = 0) (.stillRunning (r.pc - 4) r.cycle) >>= fun _ =>
      memRead32 report r₀.pc >>= fun code =>
      modifyCpu (fun r => { r with code := code }) >>= fun _ =>
      traceLine code r₀.pc >>= fun _ =>
      cpu >>= fun r => emit (.exec r)) := rfl

end Ps2Unpacker
