import Ps2Unpacker.Semantics.Access
import Ps2Unpacker.Semantics.Quiet

/-!
# What an instruction leaves alone

The frame conditions of the handlers, proved once over the instruction set. The history of a run is
the currency: `Extends new s s'` says that the events `new` were added to the log and that memory
and tags changed exactly as these events tell.

* `Extends.trans`: histories compose.
* `MemOp.run_body`, `RegOp.run_quiet`: loads, stores and computations keep `r0`, the program
  counter, the branch target and the entry point found.
* `Op.run_straight`: the same for every handler but the branches; only `ExecPS2` sets the entry
  point.
-/

namespace Ps2Unpacker

open CProg Lanes

/-! ### Histories -/

/-- Bit 1 of the tag: the byte was stored to. -/
def Machine.Written (s : Machine) (m : Fin MEMSIZE) : Prop := s.tags m &&& 2 ≠ 0

instance (s : Machine) (m : Fin MEMSIZE) : Decidable (s.Written m) :=
  inferInstanceAs (Decidable (_ ≠ _))

/-- Tagging as written sets bit 1. -/
theorem or_two_and_two (x : U8) : (x ||| 2) &&& 2 ≠ 0 := by
  revert x
  decide

/-- Tagging as read keeps it. -/
theorem or_one_and_two (x : U8) : (x ||| 1) &&& 2 = x &&& 2 := by
  revert x
  decide

/-- The event stores to the byte `m`. -/
def Event.hits (m : Fin MEMSIZE) : Event → Prop
  | .store mem _ => foldAddr mem = some m
  | _ => False

/-- The registers of a dispatch. -/
def Event.dispatched? : Event → Option CpuRegisters
  | .exec r => some r
  | _ => none

/-- Memory after the stores of a history, newest first. -/
def replay (memory : Fin MEMSIZE → U8) : List Event → Fin MEMSIZE → U8
  | [], m => memory m
  | .store mem value :: es, m => if foldAddr mem = some m then value else replay memory es m
  | _ :: es, m => replay memory es m

/-- The stores of two histories, replayed in turn. -/
theorem replay_append (memory : Fin MEMSIZE → U8) (es es' : List Event) :
    replay memory (es' ++ es) = replay (replay memory es) es' := by
  -- The newest event decides first, and only a store decides anything.
  induction es' with
  | nil => rfl
  | cons e es' ih =>
    funext m
    cases e with
    | printed msg => exact congrFun ih m
    | exec r => exact congrFun ih m
    | store mem value =>
      simp only [List.cons_append, replay]
      rw [ih]

/-- A byte that no event of the history hits keeps its value. -/
theorem replay_of_not_hits {memory : Fin MEMSIZE → U8} {es : List Event} {m : Fin MEMSIZE}
    (h : ¬∃ e ∈ es, e.hits m) : replay memory es m = memory m := by
  induction es with
  | nil => rfl
  | cons e es ih =>
    have hrest : ¬∃ e ∈ es, e.hits m := by
      rintro ⟨e', he', hm⟩
      exact h ⟨e', List.mem_cons_of_mem e he', hm⟩
    -- Of the events, only a store can change the byte, and it would hit it.
    cases e with
    | printed msg => exact ih hrest
    | exec r => exact ih hrest
    | store mem value =>
      have hne : foldAddr mem ≠ some m := fun hm => h ⟨_, List.mem_cons_self, hm⟩
      simp only [replay, if_neg hne]
      exact ih hrest

/-- The events `new` lead from `s` to `s'`: they were logged, and memory and tags agree with them.
-/
structure Extends (new : List Event) (s s' : Machine) : Prop where
  /-- The events were logged, newest first. -/
  log : s'.log = new ++ s.log
  /-- Memory changed by the stores among them. -/
  memory : s'.memory = replay s.memory new
  /-- Exactly the bytes they store to became tagged as written. -/
  written : ∀ m, s'.Written m ↔ s.Written m ∨ ∃ e ∈ new, e.hits m
  /-- No tag bit was cleared. -/
  tags : ∀ m, s.tags m ||| s'.tags m = s'.tags m

theorem Extends.refl (s : Machine) : Extends [] s s where
  log := rfl
  memory := rfl
  written m := by simp
  tags m := BitVec.or_self

/-- What two steps append, in turn. -/
theorem Extends.trans {new new' : List Event} {s₁ s₂ s₃ : Machine} (h : Extends new s₁ s₂)
    (h' : Extends new' s₂ s₃) : Extends (new' ++ new) s₁ s₃ where
  log := by rw [h'.log, h.log, List.append_assoc]
  memory := by rw [h'.memory, h.memory, replay_append]
  written m := by
    rw [h'.written, h.written, or_assoc]
    simp only [List.mem_append, or_and_right, exists_or]
    rw [or_comm (a := ∃ e ∈ new, e.hits m)]
  tags m := by rw [← h'.tags m, ← BitVec.or_assoc, h.tags m]

/-- What is not part of the history is irrelevant to it. -/
theorem Extends.congr {new : List Event} {s s' t t' : Machine} (h : Extends new s s')
    (hs : t.log = s.log ∧ t.memory = s.memory ∧ t.tags = s.tags)
    (hs' : t'.log = s'.log ∧ t'.memory = s'.memory ∧ t'.tags = s'.tags) : Extends new t t' where
  log := by rw [hs'.1, hs.1, h.log]
  memory := by rw [hs'.2.1, hs.2.1, h.memory]
  written m := by
    unfold Machine.Written
    rw [hs'.2.2, hs.2.2]
    exact h.written m
  tags m := by rw [hs'.2.2, hs.2.2]; exact h.tags m

/-- A step outside log, memory and tags. -/
theorem Extends.of_eq {s s' : Machine}
    (h : s'.log = s.log ∧ s'.memory = s.memory ∧ s'.tags = s.tags) :
    Extends [] s s' :=
  (Extends.refl s).congr ⟨rfl, rfl, rfl⟩ h

/-- An event other than a store, with log, memory and tags otherwise the same. -/
theorem Extends.of_cons {s s' : Machine} {e : Event} (he : ∀ mem value, e ≠ .store mem value)
    (h : s'.log = e :: s.log ∧ s'.memory = s.memory ∧ s'.tags = s.tags) : Extends [e] s s' where
  log := h.1
  memory := by
    rw [h.2.1]
    cases e with
    | store mem value => exact absurd rfl (he mem value)
    | printed msg => rfl
    | exec r => rfl
  written m := by
    unfold Machine.Written
    rw [h.2.2]
    cases e with
    | store mem value => exact absurd rfl (he mem value)
    | printed msg => simp [Event.hits]
    | exec r => simp [Event.hits]
  tags m := by rw [h.2.2]; exact BitVec.or_self

/-- A stored byte is one event, which hits exactly the byte. -/
theorem extends_storeByte {mem : U32} {m : Fin MEMSIZE} (hm : foldAddr mem = some m) (value : U8)
    (s : Machine) : Extends [.store mem value] s (s.storeByte mem m value) where
  log := rfl
  memory := by
    funext j
    simp only [Machine.storeByte, replay, hm, Option.some.injEq]
    by_cases hj : j = m
    · rw [if_pos hj, if_pos hj.symm]
    · rw [if_neg hj, if_neg (Ne.symm hj)]
  written j := by
    simp only [List.mem_singleton, exists_eq_left, Event.hits, hm, Option.some.injEq]
    unfold Machine.Written Machine.storeByte
    by_cases hj : j = m
    · subst hj
      simp only [if_true, or_true, iff_true]
      exact or_two_and_two (s.tags j)
    · simp only [if_neg hj, Ne.symm hj, or_false]
  tags j := by
    unfold Machine.storeByte
    by_cases hj : j = m
    · subst hj
      simp only [if_true]
      rw [← BitVec.or_assoc, BitVec.or_self]
    · simp only [if_neg hj]
      exact BitVec.or_self

/-- A read appends nothing. -/
theorem ReadOnly.extends {s s' : Machine} (h : ReadOnly s s') : Extends [] s s' where
  log := h.log
  memory := h.memory
  written m := by
    -- A read sets bit 0, and bit 1 is the one that counts.
    unfold Machine.Written
    rcases h.tags m with ht | ht
    · rw [ht]; simp
    · rw [ht, or_one_and_two]; simp
  tags m := by
    rcases h.tags m with ht | ht
    · rw [ht]; exact BitVec.or_self
    · rw [ht, ← BitVec.or_assoc, BitVec.or_self]

/-! ### The body of an instruction -/

/-- What a handler other than a branch and a system call may do. -/
structure Body (s s' : Machine) : Prop where
  /-- Registers other than `r0`, `HI` and `LO` may change; the program counter does not. -/
  quiet : s.cpu.Quiet s'.cpu
  branchPC : s'.branchPC = s.branchPC
  bouncePc : s'.bouncePc = s.bouncePc
  trace : s'.trace = s.trace
  /-- Nothing is dispatched. -/
  history : ∃ new, (∀ e ∈ new, e.dispatched? = none) ∧ Extends new s s'

theorem Body.refl (s : Machine) : Body s s where
  quiet := .refl _
  branchPC := rfl
  bouncePc := rfl
  trace := rfl
  history := ⟨[], by simp, .refl s⟩

/-- Two bodies in turn are one. -/
theorem Body.trans ⦃s₁ s₂ s₃ : Machine⦄ (h : Body s₁ s₂) (h' : Body s₂ s₃) : Body s₁ s₃ where
  quiet := h.quiet.trans h'.quiet
  branchPC := h'.branchPC.trans h.branchPC
  bouncePc := h'.bouncePc.trans h.bouncePc
  trace := h'.trace.trans h.trace
  history := by
    obtain ⟨new, hnew, hext⟩ := h.history
    obtain ⟨new', hnew', hext'⟩ := h'.history
    refine ⟨new' ++ new, ?_, hext.trans hext'⟩
    intro e he
    rcases List.mem_append.mp he with he | he
    · exact hnew' e he
    · exact hnew e he

/-- A quiet update of the registers is a body. -/
theorem body_cpu {s : Machine} {r : CpuRegisters} (h : s.cpu.Quiet r) :
    Body s { s with cpu := r } where
  quiet := h
  branchPC := rfl
  bouncePc := rfl
  trace := rfl
  history := ⟨[], by simp, .of_eq ⟨rfl, rfl, rfl⟩⟩

/-- So are a read and the store of a byte. -/
theorem ReadOnly.body {s s' : Machine} (h : ReadOnly s s') : Body s s' where
  quiet := by rw [h.cpu]; exact .refl _
  branchPC := by rw [h.only_tags]
  bouncePc := by rw [h.only_tags]
  trace := by rw [h.only_tags]
  history := ⟨[], by simp, h.extends⟩

theorem body_storeByte {mem : U32} {m : Fin MEMSIZE} (hm : foldAddr mem = some m) (value : U8)
    (s : Machine) : Body s (s.storeByte mem m value) where
  quiet := .refl _
  branchPC := rfl
  bouncePc := rfl
  trace := rfl
  history := ⟨[.store mem value], by simp [Event.dispatched?], extends_storeByte hm value s⟩

/-- The history of a `printf`. -/
theorem printed_history {s s' : Machine} {msg : Message}
    (h : s'.log = .printed msg :: s.log ∧ s'.memory = s.memory ∧ s'.tags = s.tags) :
    ∃ new, (∀ e ∈ new, e.dispatched? = none) ∧ Extends new s s' :=
  ⟨[.printed msg], by simp [Event.dispatched?], .of_cons (by simp) h⟩

/-! ### Accessors -/

section Accessors

variable (report : U32 → M Unit)

theorem readFrom_body {w : Nat} (mem : U32) (k n : Nat) (value : BitVec w) :
    (readFrom report mem k n value).Within Body :=
  Prog.ensures_mono (readFrom_readOnly mem k n value) fun _ _ _ h => h.body

theorem memRead8_body (mem : U32) : (memRead8 report mem).Within Body :=
  Prog.ensures_mono (memRead8_readOnly mem) fun _ _ _ h => h.body

theorem memWrite8_body (mem : U32) (value : U8) : (memWrite8 report mem value).Within Body := by
  intro s u s' h
  obtain ⟨m, hm, rfl⟩ := memWrite8_eq_ok.mp h
  exact body_storeByte hm value s

theorem writeFrom_body {w : Nat} (mem : U32) (value : BitVec w) (n : Nat) :
    ∀ k, (writeFrom report mem value k n).Within Body := by
  induction n with
  | zero => exact fun _ => Prog.within_pure Body.refl ()
  | succ n ih =>
    exact fun k => Prog.within_bind Body.trans (memWrite8_body report _ _) fun _ => ih (k + 1)

theorem modifyCpu_body {f : CpuRegisters → CpuRegisters} (hf : ∀ r, CpuRegisters.Quiet r (f r)) :
    (modifyCpu f).Within Body :=
  Prog.within_modify fun s => body_cpu (hf s.cpu)

/-- Behind a look at the registers. -/
theorem cpu_within {β : Type} {f : CpuRegisters → M β} (hf : ∀ r, (f r).Within Body) :
    (cpu >>= f).Within Body :=
  fun s _ _ h => hf s.cpu h

theorem loadRt_body (v : U64) : (Handler.loadRt v).Within Body :=
  modifyCpu_body fun r => (CpuRegisters.Quiet.refl r).setRt v

end Accessors

/-! ### Loads and stores -/

section Handlers

variable (report : U32 → M Unit)

/-- A load that extends the value it read. -/
theorem load_body {α : Type} {addr : CpuRegisters → U32} {read : U32 → M α} {ext : α → U64}
    (hread : ∀ mem, (read mem).Within Body) :
    (do let val ← read (addr (← cpu)); Handler.loadRt (ext val)).Within Body :=
  cpu_within fun r => Prog.within_bind Body.trans (hread (addr r)) fun v => loadRt_body (ext v)

/-- A load that merges the value it read into `rt`. -/
theorem merge_body {w : Nat} {addr : CpuRegisters → U32}
    {merge : CpuRegisters → BitVec w → CpuRegisters → U64} (n : Nat) :
    (do let r ← cpu
        if r.rt = 0 then pure ()
        else do
          let mem ← readFrom report (addr r) 0 n (0 : BitVec w)
          modifyCpu fun r' => r'.setLane r'.rt 0 (merge r mem r')).Within Body := by
  intro s u s' h
  rw [cpu_bind] at h
  by_cases hrt : s.cpu.rt = 0
  · -- `r0` as the destination: nothing is even read.
    rw [if_pos hrt] at h
    obtain ⟨-, rfl⟩ := Prog.pure_eq_ok.mp h
    exact .refl s
  · rw [if_neg hrt] at h
    obtain ⟨v, s₁, h₁, h₂⟩ := Prog.bind_eq_ok.mp h
    obtain ⟨-, hro⟩ := readFrom_ensures _ _ _ _ h₁
    -- The registers are those the guard was tested on.
    have hrt' : s₁.cpu.rt ≠ 0 := by rw [hro.cpu]; exact hrt
    cases h₂
    exact hro.body.trans (body_cpu ((CpuRegisters.Quiet.refl _).setLane hrt' 0 _))

/-- A store of a value that is computed from the registers. -/
theorem store_body {w : Nat} {addr : CpuRegisters → U32} {value : CpuRegisters → BitVec w}
    (n : Nat) :
    (do let r ← cpu; writeFrom report (addr r) (value r) 0 n).Within Body :=
  cpu_within fun r => writeFrom_body report (addr r) (value r) n 0

/-- A store that merges `rt` into the value it read. -/
theorem mergeStore_body {w : Nat} {addr : CpuRegisters → U32}
    {merge : CpuRegisters → BitVec w → BitVec w} (n : Nat) :
    (do let r ← cpu
        let mem ← readFrom report (addr r) 0 n (0 : BitVec w)
        writeFrom report (addr r) (merge r mem) 0 n).Within Body :=
  cpu_within fun r => Prog.within_bind Body.trans (readFrom_body report (addr r) 0 n 0) fun v =>
    writeFrom_body report (addr r) (merge r v) n 0

theorem LQ_body : (Handler.LQ report).Within Body :=
  cpu_within fun _ => Prog.within_bind Body.trans (readFrom_body report _ 0 16 0) fun v =>
    modifyCpu_body fun r => (CpuRegisters.Quiet.refl r).guard fun hi =>
      (CpuRegisters.Quiet.refl r).setGPR hi v

theorem SB_body : (Handler.SB report).Within Body :=
  cpu_within fun _ => memWrite8_body report _ _

theorem SQ_body (host : Host) : (Handler.SQ report host).Within Body :=
  cpu_within fun _ => Prog.within_bind Body.trans (Prog.within_get Body.refl) fun _ =>
    writeFrom_body report _ _ 16 0

/-- **Loads and stores** keep `r0` and the control state. -/
theorem MemOp.run_body (host : Host) (o : MemOp) : (o.run host report).Within Body := by
  cases o with
  | LB | LBU => exact load_body (memRead8_body report)
  | LH | LHU => exact load_body fun mem => readFrom_body report mem 0 2 0
  | LW | LWU => exact load_body fun mem => readFrom_body report mem 0 4 0
  | LD => exact @load_body _ _ _ id fun mem => readFrom_body report mem 0 8 0
  | LWL | LWR => exact merge_body report 4
  | LDL | LDR => exact merge_body report 8
  | LQ => exact LQ_body report
  | SB => exact SB_body report
  | SH => exact store_body report 2
  | SW => exact store_body report 4
  | SD => exact store_body report 8
  | SWL | SWR => exact mergeStore_body report 4
  | SDL | SDR => exact mergeStore_body report 8
  | SQ => exact SQ_body report host

end Handlers

/-! ### Straight-line instructions -/

/-- The instruction is the system call `ExecPS2`. -/
def CpuRegisters.callsExecPS2 (r : CpuRegisters) : Prop :=
  decode r.code = .SYSCALL ∧ Handler.callNumber r = 0x07

instance (r : CpuRegisters) : Decidable r.callsExecPS2 := inferInstanceAs (Decidable (_ ∧ _))

/-- What an instruction other than a branch may do: as `Body`, except that `ExecPS2` sets the entry
point. -/
structure Straight (s s' : Machine) : Prop where
  quiet : s.cpu.Quiet s'.cpu
  branchPC : s'.branchPC = s.branchPC
  trace : s'.trace = s.trace
  bouncePc : s'.bouncePc = if s.cpu.callsExecPS2 then UL 0 (s.cpu.GPR Handler.a0) else s.bouncePc
  history : ∃ new, (∀ e ∈ new, e.dispatched? = none) ∧ Extends new s s'

/-- A body that is not `ExecPS2` is straight. -/
theorem Body.straight {s s' : Machine} (h : Body s s') (hop : ¬s.cpu.callsExecPS2) :
    Straight s s' where
  quiet := h.quiet
  branchPC := h.branchPC
  trace := h.trace
  bouncePc := by rw [if_neg hop, h.bouncePc]
  history := h.history

section System

variable {report : U32 → M Unit} {s s' : Machine} {u : Unit}

/-- A returning coprocessor instruction. -/
theorem COP0_eq_ok (h : Handler.COP0 report s = .ok u s') :
    s' = { s with cpu := s.cpu.setLane Handler.s0 0 (0 : U32) } ∧ s.cpu.code = 0x40106000 ∨
      s' = s ∧ (s.cpu.code = 0x42000038 ∨ s.cpu.code = 0x42000039) := by
  unfold Handler.COP0 at h
  rw [cpu_bind] at h
  -- The three words that the handler compares with; any other one is fatal.
  split at h
  · rename_i hc
    cases h
    exact .inl ⟨rfl, hc⟩
  · split at h
    · rename_i hc
      cases h
      exact .inr ⟨rfl, .inl hc⟩
    · split at h
      · rename_i hc
        cases h
        exact .inr ⟨rfl, .inr hc⟩
      · exact absurd h (fatal_ne_ok _ _)

/-- A returning system call: one of five calls, of which one writes a register and one sets the
entry point. -/
structure SystemCall (s s' : Machine) : Prop where
  supported : Handler.callNumber s.cpu ∈ ([0x3c, 0x3d, 0x3e, 0x64, 0x07] : List U8)
  cpu : s'.cpu = if Handler.callNumber s.cpu = 0x3e then
    s.cpu.setLane Handler.v0 0 (0x02000000 : U32) else s.cpu
  bouncePc : s'.bouncePc =
    if Handler.callNumber s.cpu = 0x07 then UL 0 (s.cpu.GPR Handler.a0) else s.bouncePc
  branchPC : s'.branchPC = s.branchPC
  trace : s'.trace = s.trace
  tags : s'.tags = s.tags
  history : ∃ new, (∀ e ∈ new, e.dispatched? = none) ∧ Extends new s s'

/-- A system call that returns. -/
theorem SYSCALL_eq_ok (h : Handler.SYSCALL report s = .ok u s') : SystemCall s s' := by
  unfold Handler.SYSCALL at h
  rw [cpu_bind] at h
  -- Along the switch: `SleepThread` does not return,
  by_cases h32 : Handler.callNumber s.cpu = 0x32
  · rw [if_pos h32] at h
    exact absurd h (fatal_ne_ok _ _)
  rw [if_neg h32] at h
  -- `RFU060` and `RFU061` set globals nothing here speaks about,
  by_cases h3c : Handler.callNumber s.cpu = 0x3c
  · rw [if_pos h3c] at h
    cases h
    exact ⟨by simp [h3c], by simp [h3c], by simp [h3c], rfl, rfl, rfl,
      printed_history ⟨rfl, rfl, rfl⟩⟩
  rw [if_neg h3c] at h
  by_cases h3d : Handler.callNumber s.cpu = 0x3d
  · rw [if_pos h3d] at h
    cases h
    exact ⟨by simp [h3d], by simp [h3d], by simp [h3d], rfl, rfl, rfl,
      printed_history ⟨rfl, rfl, rfl⟩⟩
  rw [if_neg h3d] at h
  -- the end of the heap is returned in `v0`,
  by_cases h3e : Handler.callNumber s.cpu = 0x3e
  · rw [if_pos h3e] at h
    cases h
    exact ⟨by simp [h3e], by simp [h3e], by simp [h3e], rfl, rfl, rfl,
      printed_history ⟨rfl, rfl, rfl⟩⟩
  rw [if_neg h3e] at h
  -- flushing the cache does nothing,
  by_cases h64 : Handler.callNumber s.cpu = 0x64
  · rw [if_pos h64] at h
    cases h
    exact ⟨by simp [h64], by simp [h64], by simp [h64], rfl, rfl, rfl, [], by simp,
      .refl s⟩
  rw [if_neg h64] at h
  -- `ExecPS2` sets the entry point, and any other call exits.
  by_cases h07 : Handler.callNumber s.cpu = 0x07
  · rw [if_pos h07] at h
    cases h
    exact ⟨by simp [h07], by simp [h07], by simp [h07], rfl, rfl, rfl,
      printed_history ⟨rfl, rfl, rfl⟩⟩
  rw [if_neg h07] at h
  cases h

end System

/-- **Straight-line instructions.** Every handler but the branches keeps `r0`, the program counter
and the branch target, and only `ExecPS2` sets the entry point. -/
theorem Op.run_straight {host : Host} {report : U32 → M Unit} {execI : M Unit} {s s' : Machine}
    (hop : ∀ o, decode s.cpu.code ≠ .branch o)
    (h : (decode s.cpu.code).run host report execI s = .ok () s') : Straight s s' := by
  -- Only a system call can be `ExecPS2`.
  have hexec : decode s.cpu.code ≠ .SYSCALL → ¬s.cpu.callsExecPS2 := fun hne hc => hne hc.1
  cases hd : decode s.cpu.code with
  | register o =>
    rw [hd] at h
    obtain ⟨r, hr, rfl⟩ := modifyCpu?_eq_ok.mp h
    exact (body_cpu (o.run_quiet hr)).straight (hexec (by rw [hd]; simp))
  | memory o =>
    rw [hd] at h
    exact (o.run_body report host h).straight (hexec (by rw [hd]; simp))
  | branch o => exact absurd hd (hop o)
  | COP0 =>
    rw [hd] at h
    have hquiet : s.cpu.Quiet (s.cpu.setLane Handler.s0 0 (0 : U32)) :=
      (CpuRegisters.Quiet.refl s.cpu).setLane (by decide) 0 _
    rcases COP0_eq_ok h with ⟨rfl, -⟩ | ⟨rfl, -⟩
    · exact (body_cpu hquiet).straight (hexec (by rw [hd]; simp))
    · exact (Body.refl s').straight (hexec (by rw [hd]; simp))
  | SYSCALL =>
    rw [hd] at h
    have hcall := SYSCALL_eq_ok h
    -- The registers change by `v0` alone, and the entry point by `ExecPS2`.
    refine ⟨?_, hcall.branchPC, hcall.trace, ?_, hcall.history⟩
    · rw [hcall.cpu]
      split
      · exact (CpuRegisters.Quiet.refl s.cpu).setLane (by decide) 0 _
      · exact .refl _
    · rw [hcall.bouncePc]
      simp only [CpuRegisters.callsExecPS2, hd, true_and]
  -- The others do not return.
  | BREAK =>
    rw [hd] at h
    cases h
  | UnknownOpcode =>
    rw [hd] at h
    exact absurd h (fatal_ne_ok _ _)
  | MMI_Unknown =>
    rw [hd] at h
    exact absurd h (fatal_ne_ok _ _)

end Ps2Unpacker
