import Ps2Unpacker.Framework.Fuel
import Ps2Unpacker.Machine.Main
import Ps2Unpacker.Properties.FatalPath

/-!
# Deeper recursions and longer loops

The model bounds the recursion through reports, that through delay slots, and the loops of `main`.
Where the program ends, more depth and more turns make no difference.

* `fatal_dumpasm_below`, `Op.run_below`: a report that can be read needs no further one, and the
  handlers use reports in fatal paths only.
* `execI_below`, `emulate_below`, `findRange_below`: the calls and the loops.
* `main_below`: the whole program.
-/

namespace Ps2Unpacker

open CProg Lanes Prog

/-! ### Deeper reports -/

section Reports

variable {report report' : U32 → M Unit}

/-- What is read without a report is read without any other. -/
theorem readFrom_of_ok {w : Nat} (mem : U32) (n : Nat) :
    ∀ {k : Nat} {value v : BitVec w} {s s' : Machine},
      readFrom report mem k n value s = .ok v s' → readFrom report' mem k n value s = .ok v s' := by
  induction n with
  | zero => exact fun h => h
  | succ n ih =>
    intro k value v s s' h
    obtain ⟨b, s₁, hbyte, hrest⟩ := bind_eq_ok.mp h
    exact bind_eq_ok.mpr ⟨b, s₁, memRead8_eq_ok.mpr (memRead8_eq_ok.mp hbyte), ih hrest⟩

/-- A report that returns does not need the reports inside it. -/
theorem dumpWords_of_ok (pc : U32) (is : List U32) :
    ∀ {s s' : Machine}, dumpWords report pc is s = .ok () s' →
      dumpWords report' pc is s = .ok () s' := by
  induction is with
  | nil => exact fun h => h
  | cons i is ih =>
    intro s s' h
    obtain ⟨code, s₁, hread, h⟩ := bind_eq_ok.mp h
    obtain ⟨_, s₂, hprint, h⟩ := bind_eq_ok.mp h
    -- The word is read without a report.
    exact bind_eq_ok.mpr ⟨code, s₁, readFrom_of_ok _ 4 hread,
      bind_eq_ok.mpr ⟨(), s₂, hprint, ih h⟩⟩

/-- A report that can be read, then `exit(-1)`, whatever the type. -/
theorem fatal_of_ok {α : Type} {msg : Message} {s s' : Machine}
    (h : report (s.cpu.pc - 4) { s with log := .printed msg :: s.log } = .ok () s') :
    (fatal report msg : M α) s = .exit (-1) s' := by
  change (report (s.cpu.pc - 4) >>= fun _ => exit (-1)) { s with log := .printed msg :: s.log } = _
  rw [bind_ok_of h]
  rfl

/-- A fatal path that ends does the same one level deeper. -/
theorem fatal_dumpasm_below (depth : Nat) {α : Type} (msg : Message) :
    (fatal (dumpasm depth) msg : M α).Below (fatal (dumpasm (depth + 1)) msg) := by
  intro s h
  by_cases hlegible : Legible s.cpu.pc
  · cases depth with
    | zero => exact absurd rfl h
    | succ depth =>
      -- The words around the instruction can be read, so the report needs no other one.
      obtain ⟨s', hdump⟩ := @dumpWords_of_accepted (dumpasm depth) (s.cpu.pc - 4) dumpOffsets
        { s with log := .printed msg :: s.log } hlegible
      have hmore : dumpasm (depth + 2) (s.cpu.pc - 4) { s with log := .printed msg :: s.log } =
          .ok () s' := dumpWords_of_ok _ _ hdump
      exact (fatal_of_ok hmore).trans (@fatal_of_ok (dumpasm (depth + 1)) _ _ _ _ hdump).symm
  · -- If they cannot be read, the report does not end at any depth.
    refine absurd ?_ h
    rw [← fatal_bind msg (fun _ : Unit => (diverge : M α))]
    exact bind_outOfFuel_of (fatal_of_not_legible depth s msg hlegible)

end Reports

/-! ### Handlers with deeper reports -/

/-- A load that extends the value it read. -/
theorem load_below {α : Type} {addr : CpuRegisters → U32} {read read' : U32 → M α} {ext : α → U64}
    (hread : ∀ mem, (read mem).Below (read' mem)) :
    (do let val ← read (addr (← cpu)); Handler.loadRt (ext val)).Below
      (do let val ← read' (addr (← cpu)); Handler.loadRt (ext val)) :=
  below_bind (below_refl _) fun r => below_bind (hread (addr r)) fun _ => below_refl _

section Handlers

variable {report report' : U32 → M Unit}
  (h : ∀ (α : Type) (msg : Message), (fatal report msg : M α).Below (fatal report' msg))
include h

/-- The translation asks for a report only where it fails. -/
theorem translate_below (access : Access) (mem : U32) :
    (translate report access mem).Below (translate report' access mem) := by
  refine below_bind ?_ fun mem' => ?_
  · -- the mapping switch
    unfold unmap
    split
    · exact below_refl _
    · split
      · exact below_refl _
      · exact h _ _
  · -- the range check
    unfold inRange
    split
    · exact below_refl _
    · exact below_bind (below_refl _) fun _ => h _ _

theorem memRead8_below (mem : U32) : (memRead8 report mem).Below (memRead8 report' mem) :=
  below_bind (translate_below h .reading mem) fun _ => below_refl _

theorem memWrite8_below (mem : U32) (value : U8) :
    (memWrite8 report mem value).Below (memWrite8 report' mem value) :=
  below_bind (translate_below h .writing mem) fun _ => below_refl _

theorem readFrom_below {w : Nat} (mem : U32) (n : Nat) :
    ∀ (k : Nat) (value : BitVec w),
      (readFrom report mem k n value).Below (readFrom report' mem k n value) := by
  induction n with
  | zero => exact fun _ _ => below_refl _
  | succ n ih => exact fun k _ => below_bind (memRead8_below h _) fun _ => ih (k + 1) _

theorem writeFrom_below {w : Nat} (mem : U32) (value : BitVec w) (n : Nat) :
    ∀ k, (writeFrom report mem value k n).Below (writeFrom report' mem value k n) := by
  induction n with
  | zero => exact fun _ => below_refl _
  | succ n ih => exact fun k => below_bind (memWrite8_below h _ _) fun _ => ih (k + 1)

/-- A load that merges the value it read into `rt`. -/
theorem merge_below {w : Nat} {addr : CpuRegisters → U32}
    {merge : CpuRegisters → BitVec w → CpuRegisters → U64} (n : Nat) :
    (do let r ← cpu
        if r.rt = 0 then pure ()
        else do
          let mem ← readFrom report (addr r) 0 n (0 : BitVec w)
          modifyCpu fun r' => r'.setLane r'.rt 0 (merge r mem r')).Below
      (do let r ← cpu
          if r.rt = 0 then pure ()
          else do
            let mem ← readFrom report' (addr r) 0 n (0 : BitVec w)
            modifyCpu fun r' => r'.setLane r'.rt 0 (merge r mem r')) := by
  refine below_bind (below_refl _) fun r => ?_
  split
  · exact below_refl _
  · exact below_bind (readFrom_below h _ n 0 0) fun _ => below_refl _

/-- A store. -/
theorem store_below {w : Nat} {addr : CpuRegisters → U32} {value : CpuRegisters → BitVec w}
    (n : Nat) :
    (do let r ← cpu; writeFrom report (addr r) (value r) 0 n).Below
      (do let r ← cpu; writeFrom report' (addr r) (value r) 0 n) :=
  below_bind (below_refl _) fun _ => writeFrom_below h _ _ n 0

/-- A store that merges `rt` into the value it read. -/
theorem mergeStore_below {w : Nat} {addr : CpuRegisters → U32}
    {merge : CpuRegisters → BitVec w → BitVec w} (n : Nat) :
    (do let r ← cpu
        let mem ← readFrom report (addr r) 0 n (0 : BitVec w)
        writeFrom report (addr r) (merge r mem) 0 n).Below
      (do let r ← cpu
          let mem ← readFrom report' (addr r) 0 n (0 : BitVec w)
          writeFrom report' (addr r) (merge r mem) 0 n) :=
  below_bind (below_refl _) fun _ => below_bind (readFrom_below h _ n 0 0) fun _ =>
    writeFrom_below h _ _ n 0

/-- **Loads and stores.** -/
theorem MemOp.run_below (host : Host) (o : MemOp) :
    (o.run host report).Below (o.run host report') := by
  cases o with
  -- By the accessor that reads or writes.
  | LB | LBU => exact load_below (memRead8_below h)
  | LH | LHU => exact load_below fun mem => readFrom_below h mem 2 0 0
  | LW | LWU => exact load_below fun mem => readFrom_below h mem 4 0 0
  | LD =>
    exact below_bind (below_refl _) fun _ => below_bind (readFrom_below h _ 8 0 0) fun _ =>
      below_refl _
  | LWL | LWR => exact merge_below h 4
  | LDL | LDR => exact merge_below h 8
  | LQ =>
    exact below_bind (below_refl _) fun _ => below_bind (readFrom_below h _ 16 0 0) fun _ =>
      below_refl _
  | SB => exact below_bind (below_refl _) fun _ => memWrite8_below h _ _
  | SH => exact store_below h 2
  | SW => exact store_below h 4
  | SD => exact store_below h 8
  | SWL | SWR => exact mergeStore_below h 4
  | SDL | SDR => exact mergeStore_below h 8
  | SQ =>
    exact below_bind (below_refl _) fun _ => below_bind (below_refl _) fun _ =>
      writeFrom_below h _ _ 16 0

/-- The fatal case of `COP0`. -/
theorem COP0_below : (Handler.COP0 report).Below (Handler.COP0 report') := by
  refine below_bind (below_refl _) fun r => ?_
  split
  · exact below_refl _
  split
  · exact below_refl _
  split
  · exact below_refl _
  · exact h _ _

/-- The system calls. -/
theorem SYSCALL_below : (Handler.SYSCALL report).Below (Handler.SYSCALL report') := by
  refine below_bind (below_refl _) fun r => ?_
  dsimp only
  -- Only `SleepThread` is reported.
  split
  · exact h _ _
  · exact below_refl _

/-- The fetch. -/
theorem fetch_below : (fetch report).Below (fetch report') :=
  below_bind (below_refl _) fun _ => below_bind (below_refl _) fun _ =>
    below_bind (below_refl _) fun _ => below_bind (below_refl _) fun _ =>
      below_bind (readFrom_below h _ 4 0 0) fun _ => below_refl _

/-- **The handlers**, over a deeper interpreter. -/
theorem Op.run_below (host : Host) {execI execI' : M Unit} (hexecI : execI.Below execI') (o : Op) :
    (o.run host report execI).Below (o.run host report' execI') := by
  cases o with
  | register | BREAK => exact below_refl _
  | memory o => exact o.run_below h host
  | branch o =>
    intro s hs
    change o.run execI s ≠ _ at hs
    change o.run execI' s = o.run execI s
    rw [BranchOp.run_eq] at hs ⊢
    rw [BranchOp.run_eq]
    split
    · -- The slot runs on the deeper interpreter.
      rename_i htaken
      rw [if_pos htaken, doBranch_apply] at hs
      rw [doBranch_apply, doBranch_apply]
      exact below_bind hexecI (fun _ => below_refl _) hs
    · rfl
  | COP0 => exact COP0_below h
  | SYSCALL => exact SYSCALL_below h
  | UnknownOpcode => exact below_bind (below_refl _) fun _ => h _ _
  | MMI_Unknown => exact h _ _

/-- A call with deeper reports. -/
theorem execI_report_below (host : Host) (n : Nat) :
    (execI host report n).Below (execI host report' n) := by
  induction n with
  | zero => exact below_diverge _
  | succ n ih =>
    exact below_bind (fetch_below h) fun _ => below_bind (below_refl _) fun r =>
      Op.run_below h host ih _

end Handlers

/-! ### Levels and turns -/

/-- **One level more** of the recursion through delay slots. -/
theorem execI_levels_below (host : Host) (report : U32 → M Unit) (n : Nat) :
    (execI host report n).Below (execI host report (n + 1)) := by
  induction n with
  | zero => exact below_diverge _
  | succ n ih =>
    exact below_bind (below_refl _) fun _ => below_bind (below_refl _) fun r =>
      Op.run_below (fun _ _ => below_refl _) host ih _

/-- **A call** with more depth for reports and more levels. -/
theorem execI_below (host : Host) {depth depth' levels levels' : Nat} (hdepth : depth ≤ depth')
    (hlevels : levels ≤ levels') :
    (execI host (dumpasm depth) levels).Below (execI host (dumpasm depth') levels') :=
  (below_of_le (p := fun depth => execI host (dumpasm depth) levels)
    (fun depth => execI_report_below (fun _ => fatal_dumpasm_below depth) host levels)
    hdepth).trans (below_of_le (execI_levels_below host (dumpasm depth')) hlevels)

/-- **The emulation.** -/
theorem emulate_below (host : Host) {depth depth' levels levels' turns turns' : Nat}
    (hdepth : depth ≤ depth') (hlevels : levels ≤ levels') (hturns : turns ≤ turns') :
    (emulate host depth levels turns).Below (emulate host depth' levels' turns') := by
  induction turns generalizing turns' with
  | zero => exact below_diverge _
  | succ turns ih =>
    -- The deeper loop has a turn to take as well.
    obtain ⟨turns', rfl⟩ : ∃ n, turns' = n + 1 := ⟨turns' - 1, by omega⟩
    unfold emulate
    refine below_bind (below_refl _) fun s => ?_
    split
    · exact below_bind (execI_below host hdepth hlevels) fun _ =>
        ih (Nat.le_of_succ_le_succ hturns)
    · exact below_refl _

/-- **The search for the range.** -/
theorem findRange_below (opts : Options) {fuel fuel' : Nat} (h : fuel ≤ fuel') :
    (findRange opts fuel).Below (findRange opts fuel') := by
  refine below_bind (below_refl _) fun s => below_bind ?_ fun lo => below_bind ?_ fun hi =>
    below_refl _
  · -- Each scan on more turns does the same.
    unfold findLo
    split
    · exact below_bind (below_bind (below_scan _ _ h _) fun lo => below_scan _ _ h lo) fun lo =>
        below_refl _
    · exact below_refl _
  · unfold findHi
    split
    · exact below_bind (below_scan _ _ h _) fun hi => below_scan _ _ h hi
    · exact below_refl _

/-! ### The program -/

/-- The work on a file. -/
theorem unpackFile_below (host : Host) (files : Files) (outname : String) (opts : Options)
    (file : List U8) {fuel fuel' : Nat} (h : fuel ≤ fuel') :
    (unpackFile host fuel files outname opts file).Below
      (unpackFile host fuel' files outname opts file) := by
  refine below_bind (below_refl _) fun _ => ?_
  split
  · exact below_refl _
  · exact below_bind (emulate_below host h h h) fun _ =>
      below_bind (findRange_below opts h) fun range => below_refl _

/-- **The whole program.** -/
theorem main_below (host : Host) (args : List Opt) (names : List String) (files : Files)
    {fuel fuel' : Nat} (h : fuel ≤ fuel') :
    (main host fuel args names files).Below (main host fuel' args names files) := by
  rw [main_eq, main_eq]
  refine below_bind (below_refl _) fun opts => ?_
  unfold unpack
  split
  · exact below_bind (below_refl _) fun file => unpackFile_below host files _ opts file h
  · exact below_refl _

end Ps2Unpacker
