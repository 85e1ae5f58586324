import Ps2Unpacker.Semantics.Atoms
import Ps2Unpacker.Semantics.Exec
import Ps2Unpacker.Semantics.Footprint

/-!
# Which bytes an instruction accesses

`MemOp.reads` lists the addresses a load or store reads, as `MemOp.footprint` lists those it stores
to, both in the order of the accesses. An `Account` is a relation between two states that is indexed
by such lists; to know it of an instruction it is enough to know it of one byte read, of one byte
stored and of steps that access nothing.

* `MemOp.run_account`: loads and stores.
* `Op.run_account`: all instructions but the branches.
* `fetch_account`: the fetch.
-/

namespace Ps2Unpacker

open CProg Lanes

/-- The addresses a memory instruction reads. With `r0` as its destination, an unaligned load reads
nothing. -/
def MemOp.reads : MemOp → CpuRegisters → List U32
  | LB, r | LBU, r => [Handler.address r]
  | LH, r | LHU, r => span (Handler.address r) 0 2
  | LW, r => span (Handler.addressOut r) 0 4
  | LWU, r => span (Handler.address r) 0 4
  | LD, r => span (Handler.address r) 0 8
  | LWL, r | LWR, r => if r.rt = 0 then [] else span (Handler.address r &&& ~~~3) 0 4
  | LDL, r | LDR, r => if r.rt = 0 then [] else span (Handler.address r &&& ~~~7) 0 8
  | LQ, r => span (Handler.address r &&& ~~~0xf) 0 16
  | SWL, r | SWR, r => span (Handler.addressOut r &&& ~~~3) 0 4
  | SDL, r | SDR, r => span (Handler.addressOut r &&& ~~~7) 0 8
  | SB, _ | SH, _ | SW, _ | SD, _ | SQ, _ => []

/-- The addresses an instruction loads from. -/
def CpuRegisters.loads (r : CpuRegisters) : List U32 :=
  match decode r.code with
  | .memory o => o.reads r
  | _ => []

/-- The addresses an instruction reads: its own word, and what it loads. -/
def CpuRegisters.reads (r : CpuRegisters) : List U32 := span (r.pc - 4) 0 4 ++ r.loads

/-- The loads of a memory instruction. -/
theorem loads_of_memory {r : CpuRegisters} {o : MemOp} (h : decode r.code = .memory o) :
    r.loads = o.reads r := by
  unfold CpuRegisters.loads
  rw [h]

/-- No other instruction loads. -/
theorem loads_of_ne {r : CpuRegisters} (h : ∀ o, decode r.code ≠ .memory o) : r.loads = [] := by
  unfold CpuRegisters.loads
  split
  · rename_i o ho
    exact absurd ho (h o)
  · rfl

/-! ### Accounts -/

/-- No byte was accessed; the rest may have changed, and messages were printed. -/
structure Mute (s s' : Machine) : Prop where
  memory : s'.memory = s.memory
  tags : s'.tags = s.tags
  log : ∃ new, (∀ e ∈ new, ∃ msg, e = .printed msg) ∧ s'.log = new ++ s.log

/-- Where nothing is printed either, the step is mute. -/
theorem Mute.silent {s s' : Machine} (memory : s'.memory = s.memory) (tags : s'.tags = s.tags)
    (log : s'.log = s.log) : Mute s s' :=
  ⟨memory, tags, [], nofun, log⟩

/-- A message keeps the step mute. -/
theorem Mute.print {s s' : Machine} {msg : Message} (memory : s'.memory = s.memory)
    (tags : s'.tags = s.tags) (log : s'.log = .printed msg :: s.log) : Mute s s' :=
  ⟨memory, tags, [.printed msg], fun _ he => ⟨msg, List.mem_singleton.mp he⟩, log⟩

/-- From one state to the next the addresses of the first list were read and those of the second
were stored to, and the relation says what this did. -/
structure Account (T : List U32 → List U32 → Machine → Machine → Prop) : Prop where
  trans ⦃R W R' W' : List U32⦄ ⦃s₁ s₂ s₃ : Machine⦄ : T R W s₁ s₂ → T R' W' s₂ s₃ →
    T (R ++ R') (W ++ W') s₁ s₃
  read ⦃mem : U32⦄ ⦃m : Fin MEMSIZE⦄ (s : Machine) : foldAddr mem = some m →
    T [mem] [] s (s.tag 1 m)
  store ⦃mem : U32⦄ ⦃m : Fin MEMSIZE⦄ (value : U8) (s : Machine) : foldAddr mem = some m →
    T [] [mem] s (s.storeByte mem m value)
  mute ⦃s s' : Machine⦄ : Mute s s' → T [] [] s s'

section Accessors

variable {T : List U32 → List U32 → Machine → Machine → Prop} (hT : Account T)
  (report : U32 → M Unit)

include hT

theorem memRead8_account (mem : U32) : (memRead8 report mem).Within (T [mem] []) := by
  intro s b s' h
  obtain ⟨m, hm, -, rfl⟩ := memRead8_eq_ok.mp h
  exact hT.read s hm

theorem memWrite8_account (mem : U32) (value : U8) :
    (memWrite8 report mem value).Within (T [] [mem]) := by
  intro s u s' h
  obtain ⟨m, hm, rfl⟩ := memWrite8_eq_ok.mp h
  exact hT.store value s hm

/-- A wider read reads its bytes in turn. -/
theorem readFrom_account {w : Nat} (mem : U32) (n : Nat) :
    ∀ (k : Nat) (value : BitVec w),
      (readFrom report mem k n value).Within (T (span mem k n) []) := by
  induction n with
  | zero => exact fun _ value => Prog.within_pure (fun _ => hT.mute (.silent rfl rfl rfl)) value
  | succ n ih =>
    intro k value s v s' h
    obtain ⟨b, s₁, h₁, h₂⟩ := Prog.bind_eq_ok.mp h
    exact hT.trans (memRead8_account hT report _ h₁) (ih (k + 1) _ h₂)

/-- A wider write writes its bytes in turn. -/
theorem writeFrom_account {w : Nat} (mem : U32) (value : BitVec w) (n : Nat) :
    ∀ k, (writeFrom report mem value k n).Within (T [] (span mem k n)) := by
  induction n with
  | zero => exact fun _ => Prog.within_pure (fun _ => hT.mute (.silent rfl rfl rfl)) ()
  | succ n ih =>
    intro k s u s' h
    obtain ⟨_, s₁, h₁, h₂⟩ := Prog.bind_eq_ok.mp h
    exact hT.trans (memWrite8_account hT report _ _ h₁) (ih (k + 1) h₂)

/-- A change of the registers accesses nothing. -/
theorem modifyCpu_account (f : CpuRegisters → CpuRegisters) : (modifyCpu f).Within (T [] []) :=
  Prog.within_modify fun _ => hT.mute (.silent rfl rfl rfl)

/-! ### Loads and stores -/

/-- A load that extends the value it read. -/
theorem load_account {α : Type} {addr : CpuRegisters → U32} {read : U32 → M α} {ext : α → U64}
    {A : U32 → List U32} (hread : ∀ mem, (read mem).Within (T (A mem) [])) {s s' : Machine}
    {u : Unit} (h : (do let val ← read (addr (← cpu)); Handler.loadRt (ext val)) s = .ok u s') :
    T (A (addr s.cpu)) [] s s' := by
  rw [cpu_bind] at h
  obtain ⟨v, s₁, h₁, h₂⟩ := Prog.bind_eq_ok.mp h
  simpa using hT.trans (hread _ h₁) (modifyCpu_account hT _ h₂)

/-- A load that merges the value it read into `rt`. -/
theorem merge_account {w : Nat} (addr : CpuRegisters → U32)
    {merge : CpuRegisters → BitVec w → CpuRegisters → U64} (n : Nat) {s s' : Machine} {u : Unit}
    (h : (do let r ← cpu
             if r.rt = 0 then pure ()
             else do
               let mem ← readFrom report (addr r) 0 n (0 : BitVec w)
               modifyCpu fun r' => r'.setLane r'.rt 0 (merge r mem r')) s = .ok u s') :
    T (if s.cpu.rt = 0 then [] else span (addr s.cpu) 0 n) [] s s' := by
  rw [cpu_bind] at h
  split at h
  · -- With `rt = 0` the handler returns before the read.
    rename_i hrt
    obtain ⟨-, rfl⟩ := Prog.pure_eq_ok.mp h
    rw [if_pos hrt]
    exact hT.mute (.silent rfl rfl rfl)
  · rename_i hrt
    obtain ⟨v, s₁, h₁, h₂⟩ := Prog.bind_eq_ok.mp h
    rw [if_neg hrt]
    simpa using hT.trans (readFrom_account hT report _ n 0 _ h₁) (modifyCpu_account hT _ h₂)

/-- A store that merges `rt` into the value it read. -/
theorem mergeStore_account {w : Nat} (addr : CpuRegisters → U32)
    {merge : CpuRegisters → BitVec w → BitVec w} (n : Nat) {s s' : Machine} {u : Unit}
    (h : (do let r ← cpu
             let mem ← readFrom report (addr r) 0 n (0 : BitVec w)
             writeFrom report (addr r) (merge r mem) 0 n) s = .ok u s') :
    T (span (addr s.cpu) 0 n) (span (addr s.cpu) 0 n) s s' := by
  rw [cpu_bind] at h
  obtain ⟨v, s₁, h₁, h₂⟩ := Prog.bind_eq_ok.mp h
  simpa using hT.trans (readFrom_account hT report _ n 0 _ h₁)
    (writeFrom_account hT report _ _ n 0 h₂)

/-- **Loads and stores** access exactly the bytes at `reads` and `footprint`. -/
theorem MemOp.run_account {host : Host} (o : MemOp) {s s' : Machine}
    (h : o.run host report s = .ok () s') : T (o.reads s.cpu) (o.footprint s.cpu) s s' := by
  -- By the number of bytes; the merging forms access the whole aligned word or doubleword.
  cases o with
  | LB | LBU => exact load_account hT (memRead8_account hT report) h
  | LH | LHU => exact load_account hT (fun mem => readFrom_account hT report mem 2 0 (0 : U16)) h
  | LW | LWU => exact load_account hT (fun mem => readFrom_account hT report mem 4 0 (0 : U32)) h
  | LD =>
    exact @load_account _ hT _ _ _ id _ (fun mem => readFrom_account hT report mem 8 0 0) _ _ _ h
  | LWL | LWR => exact merge_account hT report (fun r => Handler.address r &&& ~~~3) 4 h
  | LDL | LDR => exact merge_account hT report (fun r => Handler.address r &&& ~~~7) 8 h
  | LQ =>
    change (cpu >>= fun r => _) s = _ at h
    rw [cpu_bind] at h
    obtain ⟨v, s₁, h₁, h₂⟩ := Prog.bind_eq_ok.mp h
    have haccount := hT.trans (readFrom_account hT report _ 16 0 _ h₁) (modifyCpu_account hT _ h₂)
    rwa [List.append_nil] at haccount
  | SB => exact memWrite8_account hT report _ _ h
  | SH => exact writeFrom_account hT report _ _ 2 0 h
  | SW => exact writeFrom_account hT report _ _ 4 0 h
  | SD => exact writeFrom_account hT report _ _ 8 0 h
  | SWL | SWR => exact mergeStore_account hT report (fun r => Handler.addressOut r &&& ~~~3) 4 h
  | SDL | SDR => exact mergeStore_account hT report (fun r => Handler.addressOut r &&& ~~~7) 8 h
  | SQ => exact writeFrom_account hT report _ _ 16 0 h

end Accessors

/-! ### All instructions -/

/-- A system call that returns accesses nothing. -/
theorem SYSCALL_mute {report : U32 → M Unit} : (Handler.SYSCALL report).Within Mute := by
  intro s u s' h
  unfold Handler.SYSCALL at h
  rw [cpu_bind] at h
  -- The cases of the handler in turn. `SleepThread` is fatal, so no call returns from it.
  split at h
  · exact absurd h (fatal_ne_ok _ _)
  -- `RFU060`, `RFU061` and the end of the heap print a message each,
  split at h
  · cases h
    exact .print rfl rfl rfl
  split at h
  · cases h
    exact .print rfl rfl rfl
  split at h
  · cases h
    exact .print rfl rfl rfl
  -- flushing the cache does nothing,
  split at h
  · cases h
    exact .silent rfl rfl rfl
  -- and `ExecPS2` prints one more. Behind it the call is unknown, and exits.
  split at h
  · cases h
    exact .print rfl rfl rfl
  · cases h

/-- **All instructions** but the branches access exactly the bytes at `loads` and `footprint`. -/
theorem Op.run_account {T : List U32 → List U32 → Machine → Machine → Prop} (hT : Account T)
    {host : Host} {report : U32 → M Unit} {execI : M Unit} {s s' : Machine}
    (hop : ∀ o, decode s.cpu.code ≠ .branch o)
    (h : (decode s.cpu.code).run host report execI s = .ok () s') :
    T s.cpu.loads s.cpu.footprint s s' := by
  -- Only a load or a store has bytes to account for; everything else that returns is mute.
  by_cases hmem : ∃ o, decode s.cpu.code = .memory o
  · obtain ⟨o, ho⟩ := hmem
    rw [loads_of_memory ho, footprint_of_memory ho]
    rw [ho] at h
    exact o.run_account hT report h
  · push Not at hmem
    rw [loads_of_ne hmem, footprint_of_ne hmem]
    refine hT.mute ?_
    cases hd : decode s.cpu.code with
    | register o =>
      rw [hd] at h
      obtain ⟨r, hr, rfl⟩ := modifyCpu?_eq_ok.mp h
      exact .silent rfl rfl rfl
    | memory o => exact absurd hd (hmem o)
    | branch o => exact absurd hd (hop o)
    | COP0 =>
      rw [hd] at h
      obtain ⟨rfl, -⟩ | ⟨rfl, -⟩ := COP0_eq_ok h
      · exact .silent rfl rfl rfl
      · exact .silent rfl rfl rfl
    | SYSCALL =>
      rw [hd] at h
      exact SYSCALL_mute h
    | BREAK => rw [hd] at h; cases h
    | UnknownOpcode => rw [hd] at h; exact absurd h (fatal_ne_ok _ _)
    | MMI_Unknown => rw [hd] at h; exact absurd h (fatal_ne_ok _ _)

/-! ### The fetch -/

/-- The fetch reads the word of the instruction, between what it prints and the dispatch. -/
theorem fetch_account {T : List U32 → List U32 → Machine → Machine → Prop} (hT : Account T)
    (report : U32 → M Unit) :
    (fetch report).Ensures fun s _ s₀ => ∃ s₁, s₀.log = .exec s₀.cpu :: s₁.log ∧
      s₀.memory = s₁.memory ∧ s₀.tags = s₁.tags ∧ T (span (s₀.cpu.pc - 4) 0 4) [] s s₁ := by
  intro s u s₀ h
  -- The program counter has moved past the word that was read.
  have hcpu := (fetch_ensures report h).cpu
  have hpc : s₀.cpu.pc - 4 = s.cpu.pc := by
    rw [hcpu]
    exact BitVec.add_sub_cancel _ _
  rw [hpc]
  rw [fetch_eq, cpu_bind, modifyCpu_bind, cpu_bind] at h
  obtain ⟨_, s₁, hprint, h⟩ := Prog.bind_eq_ok.mp h
  obtain ⟨code, s₂, hread, h⟩ := Prog.bind_eq_ok.mp h
  rw [modifyCpu_bind] at h
  obtain ⟨_, s₃, htrace, h⟩ := Prog.bind_eq_ok.mp h
  cases h
  refine ⟨s₃, rfl, rfl, rfl, ?_⟩
  -- The two traces print before the read and after it.
  have hbefore : Mute s s₁ := by
    obtain ⟨hlog, new, hnew, hext⟩ := printfIf_ensures _ _ hprint
    exact ⟨by rw [hlog], by rw [hlog], new, hnew, hext.log⟩
  have hafter : Mute s₂ s₃ := by
    obtain ⟨hlog, new, hnew, hext⟩ := printfIf_ensures _ _ htrace
    exact ⟨by rw [hlog], by rw [hlog], new, hnew, hext.log⟩
  simpa using hT.trans (hT.trans (hT.mute hbefore) (readFrom_account hT report _ 4 0 _ hread))
    (hT.mute hafter)

end Ps2Unpacker
