import Ps2Unpacker.Framework.Stops
import Ps2Unpacker.Semantics.AccessTags

/-!
# Why an instruction ends the program

An instruction that does not return is an undefined computation, or it ends the program with a
message that says why: the address it could not access, the word no handler is there for, the system
call that is not supported. `Fault` lists the reasons and their messages as a function of the
registers the instruction is dispatched with.

* `denial`, `translate_denied`: the message about an address that denotes no byte.
* `MemOp.run_leaves`: a load or store stops over an address it accesses.
* `Op.run_leaves`: every instruction that stops has such a reason, and until then it has stored
  bytes and changed nothing else.
-/

namespace Ps2Unpacker

open CProg Lanes Prog

/-! ### Denied addresses -/

/-- The message about an address that denotes no byte, for the instruction at `pc`. -/
def denial (access : Access) (mem pc : U32) : Message :=
  if mem.toNat < 0x08000000 then .outOfRange access mem pc
  else if mem.toNat < 0x10000000 then .outOfRange access (mem &&& 0xf7ffffff) pc
  else .unknownMapping access (mem &&& 0xf8000000) mem

/-- An address that denotes no byte takes the fatal path, with this message. -/
theorem translate_denied {report : U32 → M Unit} {mem : U32} (access : Access)
    (h : foldAddr mem = none) (s : Machine) :
    translate report access mem s = fatal report (denial access mem (s.cpu.pc - 4)) s := by
  have hsize := MEMSIZE_eq
  have hreject := not_accepted_iff.mpr h
  rw [accepted_iff] at hreject
  unfold denial
  -- The cases of the switch, with the message that each of them leads to.
  by_cases hdefault : mem.toNat < 0x08000000
  · rw [if_pos hdefault, translate_of_unmap (unmap_default hdefault),
      inRange_of_not_lt (by omega)]
  · rw [if_neg hdefault]
    by_cases hcopy : mem.toNat < 0x10000000
    · have hn := copy_toNat (by omega) hcopy
      rw [if_pos hcopy, translate_of_unmap (unmap_copy ⟨by omega, hcopy⟩),
        inRange_of_not_lt (by omega)]
    · rw [if_neg hcopy]
      unfold translate
      rw [unmap_other (by omega), fatal_bind]

/-! ### What happens before -/

/-- From `s` to `s'` bytes were stored, and the registers did not change. -/
structure StoresOnly (s s' : Machine) : Prop where
  cpu : s'.cpu = s.cpu
  history : ∃ new, (∀ e ∈ new, ∃ mem value, e = .store mem value) ∧ Extends new s s'

theorem StoresOnly.refl (s : Machine) : StoresOnly s s := ⟨rfl, [], nofun, .refl s⟩

/-- The stores of two steps in turn. -/
theorem StoresOnly.trans {s₁ s₂ s₃ : Machine} (h : StoresOnly s₁ s₂) (h' : StoresOnly s₂ s₃) :
    StoresOnly s₁ s₃ where
  cpu := h'.cpu.trans h.cpu
  history := by
    obtain ⟨new, hnew, hext⟩ := h.history
    obtain ⟨new', hnew', hext'⟩ := h'.history
    refine ⟨new' ++ new, fun e he => ?_, hext.trans hext'⟩
    rcases List.mem_append.mp he with he | he
    · exact hnew' e he
    · exact hnew e he

/-- A read stores nothing. -/
theorem ReadOnly.storesOnly {s s' : Machine} (h : ReadOnly s s') : StoresOnly s s' :=
  ⟨h.cpu, [], nofun, h.extends⟩

/-- An assignment to the registers does not stop. -/
theorem modifyCpu_neverStops (f : CpuRegisters → CpuRegisters) : (modifyCpu f).NeverStops :=
  neverStops_modify _

/-! ### Loads and stores -/

section Accessors

variable (report : U32 → M Unit)

/-- The program stopped over one of the addresses `A`, which denotes no byte. -/
def Denied (access : Access) (A : List U32) (s : Machine) (x : Outcome Machine Empty) : Prop :=
  ∃ mem ∈ A, foldAddr mem = none ∧ ∃ t, StoresOnly s t ∧
    ((fatal report (denial access mem (s.cpu.pc - 4)) : M Unit) t).stop = some x

variable {report} {access : Access} {A B : List U32} {s : Machine} {x : Outcome Machine Empty}

/-- Over more addresses there is more to stop at. -/
theorem Denied.mono (hA : A ⊆ B) (h : Denied report access A s x) :
    Denied report access B s x := by
  obtain ⟨mem, hmem, hdenied⟩ := h
  exact ⟨mem, hA hmem, hdenied⟩

/-- What was stored before belongs to what happened until then. -/
theorem Denied.before {t : Machine} (hst : StoresOnly s t) (h : Denied report access A t x) :
    Denied report access A s x := by
  obtain ⟨mem, hmem, hnone, t', hstored, hstop⟩ := h
  rw [hst.cpu] at hstop
  exact ⟨mem, hmem, hnone, t', hst.trans hstored, hstop⟩

/-- A fatal path stops alike at every type. -/
theorem fatal_stop {α : Type} {msg : Message} (h : ((fatal report msg : M α) s).stop = some x) :
    ((fatal report msg : M Unit) s).stop = some x := by
  rw [← fatal_bind msg (fun _ : α => pure ()) s]
  exact bind_stop.mpr (.inl h)

/-- Translation stops over the address it is given. -/
theorem translate_leaves (access : Access) (mem : U32) :
    (translate report access mem).Leaves (Denied report access [mem]) := by
  intro s x h
  cases hmem : foldAddr mem with
  | none =>
    rw [translate_denied access hmem] at h
    exact ⟨mem, List.mem_singleton_self mem, hmem, s, .refl s, fatal_stop h⟩
  | some m =>
    rw [translate_of_fold access hmem] at h
    cases h

theorem memRead8_leaves (mem : U32) :
    (memRead8 report mem).Leaves (Denied report .reading [mem]) :=
  leaves_bind_left (translate_leaves .reading mem) fun _ => neverStops_bind neverStops_get fun _ =>
    neverStops_bind (neverStops_modify _) fun _ => neverStops_pure _

theorem memWrite8_leaves (mem : U32) (value : U8) :
    (memWrite8 report mem value).Leaves (Denied report .writing [mem]) :=
  leaves_bind_left (translate_leaves .writing mem) fun _ =>
    neverStops_bind (neverStops_modify _) fun _ =>
      neverStops_bind (neverStops_modify _) fun _ => neverStops_modify _

theorem memWrite8_storesOnly (mem : U32) (value : U8) :
    (memWrite8 report mem value).Within StoresOnly := by
  intro s u s' h
  obtain ⟨m, hm, rfl⟩ := memWrite8_eq_ok.mp h
  refine ⟨rfl, [.store mem value], fun e he => ?_, extends_storeByte hm value s⟩
  exact ⟨mem, value, List.mem_singleton.mp he⟩

/-- A run of addresses starts with its first. -/
theorem span_succ (mem : U32) (k n : Nat) :
    span mem k (n + 1) = (mem + BitVec.ofNat 32 k) :: span mem (k + 1) n := rfl

/-- A wider read stops over one of its addresses. -/
theorem readFrom_leaves {w : Nat} (mem : U32) (n : Nat) :
    ∀ (k : Nat) (value : BitVec w),
      (readFrom report mem k n value).Leaves (Denied report .reading (span mem k n)) := by
  induction n with
  | zero => exact fun _ value => leaves_pure value
  | succ n ih =>
    intro k value
    rw [span_succ]
    refine leaves_bind (fun _ _ h => (memRead8_leaves _ h).mono (by simp)) (memRead8_readOnly _)
      fun b s₁ x h s hread => ?_
    exact ((ih (k + 1) _ h).before hread.storesOnly).mono (by simp)

/-- So does a wider write, behind the bytes it has stored. -/
theorem writeFrom_leaves {w : Nat} (mem : U32) (value : BitVec w) (n : Nat) :
    ∀ k, (writeFrom report mem value k n).Leaves (Denied report .writing (span mem k n)) := by
  induction n with
  | zero => exact fun _ => leaves_pure ()
  -- The first byte may be stored before the rest stops.
  | succ n ih =>
    intro k
    rw [span_succ]
    refine leaves_bind (fun _ _ h => (memWrite8_leaves _ _ h).mono (by simp))
      (memWrite8_storesOnly _ _) fun _ s₁ x h s hwrite => ?_
    exact ((ih (k + 1) h).before hwrite).mono (by simp)

/-- A load that extends the value it read. -/
theorem load_leaves {α : Type} {addr : CpuRegisters → U32} {read : U32 → M α} {ext : α → U64}
    (A : U32 → List U32) (hread : ∀ mem, (read mem).Leaves (Denied report .reading (A mem)))
    (h : ((do let val ← read (addr (← cpu)); Handler.loadRt (ext val)) s).stop = some x) :
    Denied report .reading (A (addr s.cpu)) s x := by
  rw [cpu_bind] at h
  exact leaves_bind_left (hread _) (fun _ => modifyCpu_neverStops _) h

/-- A load that merges the value it read into `rt`. -/
theorem merge_leaves {w : Nat} (addr : CpuRegisters → U32)
    {merge : CpuRegisters → BitVec w → CpuRegisters → U64} (n : Nat)
    (h : ((do let r ← cpu
              if r.rt = 0 then pure ()
              else do
                let mem ← readFrom report (addr r) 0 n (0 : BitVec w)
                modifyCpu fun r' => r'.setLane r'.rt 0 (merge r mem r')) s).stop = some x) :
    Denied report .reading (if s.cpu.rt = 0 then [] else span (addr s.cpu) 0 n) s x := by
  rw [cpu_bind] at h
  -- Without a destination nothing is read.
  split at h
  · cases h
  · rename_i hrt
    rw [if_neg hrt]
    exact leaves_bind_left (readFrom_leaves _ n 0 _) (fun _ => modifyCpu_neverStops _) h

/-- A store that merges `rt` into the value it read. -/
theorem mergeStore_leaves {w : Nat} (addr : CpuRegisters → U32)
    {merge : CpuRegisters → BitVec w → BitVec w} (n : Nat)
    (h : ((do let r ← cpu
              let mem ← readFrom report (addr r) 0 n (0 : BitVec w)
              writeFrom report (addr r) (merge r mem) 0 n) s).stop = some x) :
    Denied report .reading (span (addr s.cpu) 0 n) s x ∨
      Denied report .writing (span (addr s.cpu) 0 n) s x := by
  rw [cpu_bind] at h
  rcases bind_stop.mp h with h | ⟨v, s₁, hread, h⟩
  · exact .inl (readFrom_leaves _ n 0 _ h)
  · exact .inr ((writeFrom_leaves _ _ n 0 h).before (readFrom_readOnly _ _ _ _ hread).storesOnly)

/-- **A load or store** stops over an address that it reads or stores to. -/
theorem MemOp.run_leaves {host : Host} (o : MemOp) (h : (o.run host report s).stop = some x) :
    Denied report .reading (o.reads s.cpu) s x ∨
      Denied report .writing (o.footprint s.cpu) s x := by
  cases o with
  -- Loads read; their assignment to `rt` does not stop.
  | LB | LBU => exact .inl (load_leaves (fun mem => [mem]) memRead8_leaves h)
  | LH | LHU =>
    exact .inl (load_leaves (fun mem => span mem 0 2) (fun mem => readFrom_leaves mem 2 0 0) h)
  | LW | LWU =>
    exact .inl (load_leaves (fun mem => span mem 0 4) (fun mem => readFrom_leaves mem 4 0 0) h)
  | LD =>
    exact .inl (@load_leaves _ _ _ _ _ _ id (fun mem => span mem 0 8)
      (fun mem => readFrom_leaves mem 8 0 0) h)
  | LWL | LWR => exact .inl (merge_leaves (fun r => Handler.address r &&& ~~~3) 4 h)
  | LDL | LDR => exact .inl (merge_leaves (fun r => Handler.address r &&& ~~~7) 8 h)
  | LQ =>
    change ((cpu >>= fun r => _) s).stop = _ at h
    rw [cpu_bind] at h
    exact .inl (leaves_bind_left (readFrom_leaves _ 16 0 _) (fun _ => modifyCpu_neverStops _) h)
  | SB => exact .inr (memWrite8_leaves _ _ h)
  -- Stores write, and the merging ones read the same block before.
  | SH => exact .inr (writeFrom_leaves _ _ 2 0 h)
  | SW => exact .inr (writeFrom_leaves _ _ 4 0 h)
  | SD => exact .inr (writeFrom_leaves _ _ 8 0 h)
  | SWL | SWR => exact mergeStore_leaves (fun r => Handler.addressOut r &&& ~~~3) 4 h
  | SDL | SDR => exact mergeStore_leaves (fun r => Handler.addressOut r &&& ~~~7) 8 h
  | SQ => exact .inr (writeFrom_leaves _ _ 16 0 h)

end Accessors

/-! ### Reasons -/

/-- The system calls the interpreter knows, apart from `SleepThread`. -/
def supportedCalls : List U8 := [0x3c, 0x3d, 0x3e, 0x64, 0x07]

/-- Why the instruction dispatched with `r` ends the program, and the message that says so. -/
inductive Fault (r : CpuRegisters) : Message → Prop where
  | reading {o : MemOp} (hop : decode r.code = .memory o) {mem : U32} (hmem : mem ∈ o.reads r)
      (hnone : foldAddr mem = none) : Fault r (denial .reading mem (r.pc - 4))
  | writing {o : MemOp} (hop : decode r.code = .memory o) {mem : U32} (hmem : mem ∈ o.footprint r)
      (hnone : foldAddr mem = none) : Fault r (denial .writing mem (r.pc - 4))
  | unknownOpcode (hop : decode r.code = .UnknownOpcode) :
      Fault r (.unknownOpcode r.code (r.pc - 4))
  | unknownMMI (hop : decode r.code = .MMI_Unknown) : Fault r .unknownMMI
  | cop0 (hop : decode r.code = .COP0)
      (hcode : r.code ∉ ([0x40106000, 0x42000038, 0x42000039] : List U32)) :
      Fault r (.cop0 r.code (r.pc - 4))
  | sleepThread (hop : decode r.code = .SYSCALL) (hcall : Handler.callNumber r = 0x32) :
      Fault r (.sleepThread (r.pc - 4))
  | unknownSyscall (hop : decode r.code = .SYSCALL) (hcall : Handler.callNumber r ≠ 0x32)
      (hsupported : Handler.callNumber r ∉ supportedCalls) :
      Fault r (.unknownSyscall (Handler.callNumber r) (r.pc - 4))
  | break (hop : decode r.code = .BREAK) : Fault r (.break r.code (r.pc - 4))

/-- The words around the instruction follow on the message. -/
def Message.isReported : Message → Bool
  | .unknownSyscall _ _ => false
  | .break _ _ => false
  | _ => true

/-- The program ends with the message. -/
def EndsWith (report : U32 → M Unit) (msg : Message) (t : Machine) (x : Outcome Machine Empty) :
    Prop :=
  if msg.isReported then ((fatal report msg : M Unit) t).stop = some x
  else x = .exit (-1) { t with log := .printed msg :: t.log }

/-- The instruction dispatched last in `s` ends the program. -/
inductive Fails (report : U32 → M Unit) (s : Machine) : Outcome Machine Empty → Prop where
  /-- The computation is undefined, -/
  | undefined {o : RegOp} (hop : decode s.cpu.code = .register o) (hnone : o.run s.cpu = none) :
      Fails report s (.undefined s)
  /-- or bytes may be stored, and then comes the message about it. -/
  | message {msg : Message} {t : Machine} {x : Outcome Machine Empty} (hfault : Fault s.cpu msg)
      (hstores : StoresOnly s t) (hend : EndsWith report msg t x) : Fails report s x

section Handlers

variable {report : U32 → M Unit} {s : Machine} {x : Outcome Machine Empty}

/-- The errors of the memory accessors are reported. -/
theorem denial_isReported (access : Access) (mem pc : U32) :
    (denial access mem pc).isReported = true := by
  unfold denial
  split
  · rfl
  · split <;> rfl

/-- An error over an address is a failure, if the registers ask for that address. -/
theorem Denied.fails {access : Access} {A : List U32} (h : Denied report access A s x)
    (hfault : ∀ mem ∈ A, foldAddr mem = none → Fault s.cpu (denial access mem (s.cpu.pc - 4))) :
    Fails report s x := by
  obtain ⟨mem, hmem, hnone, t, hstored, hstop⟩ := h
  refine .message (hfault mem hmem hnone) hstored ?_
  unfold EndsWith
  rw [if_pos (denial_isReported access mem _)]
  exact hstop

/-- `COP0` stops over a word it does not know. -/
theorem COP0_fails (hop : decode s.cpu.code = .COP0)
    (h : (Handler.COP0 report s).stop = some x) : Fails report s x := by
  -- The three words that return, then all others.
  unfold Handler.COP0 at h
  rw [cpu_bind] at h
  split at h
  · cases h
  split at h
  · cases h
  split at h
  · cases h
  · rename_i hmfc0 hEI hDI
    refine .message (.cop0 hop ?_) (.refl s) h
    simp only [List.mem_cons, List.not_mem_nil, or_false, not_or]
    exact ⟨hmfc0, hEI, hDI⟩

/-- `SYSCALL` stops in `SleepThread`, or over a call it does not know. -/
theorem SYSCALL_fails (hop : decode s.cpu.code = .SYSCALL)
    (h : (Handler.SYSCALL report s).stop = some x) : Fails report s x := by
  unfold Handler.SYSCALL at h
  rw [cpu_bind] at h
  split at h
  · rename_i hsleep
    exact .message (.sleepThread hop hsleep) (.refl s) h
  split at h
  · cases h
  split at h
  · cases h
  split at h
  · cases h
  split at h
  · cases h
  split at h
  · cases h
  · -- The other calls have all returned.
    rename_i hsleep h3c h3d h3e h64 h07
    cases h
    refine .message (.unknownSyscall hop hsleep ?_) (.refl s) rfl
    unfold supportedCalls
    simp only [List.mem_cons, List.not_mem_nil, or_false, not_or]
    exact ⟨h3c, h3d, h3e, h64, h07⟩

/-- **Whenever an instruction** other than a branch stops, it has a reason. -/
theorem Op.run_leaves {host : Host} {execI : M Unit} (hop : ∀ o, decode s.cpu.code ≠ .branch o)
    (h : ((decode s.cpu.code).run host report execI s).stop = some x) :
    Fails report s x := by
  -- One case for each kind of handler.
  cases hd : decode s.cpu.code with
  | register o =>
    rw [hd] at h
    change (modifyCpu? o.run s).stop = _ at h
    unfold modifyCpu? at h
    obtain ⟨hnone, rfl, rfl⟩ := modify?_stop.mp h
    -- A register instruction prints nothing: it goes wrong where the handler has no value.
    exact .undefined hd (Option.map_eq_none_iff.mp hnone)
  | memory o =>
    rw [hd] at h
    rcases o.run_leaves h with h | h
    · exact h.fails fun mem hmem hnone => .reading hd hmem hnone
    · exact h.fails fun mem hmem hnone => .writing hd hmem hnone
  | branch o => exact absurd hd (hop o)
  -- The rest ends in a message, with a report or without.
  | COP0 =>
    rw [hd] at h
    exact COP0_fails hd h
  | SYSCALL =>
    rw [hd] at h
    exact SYSCALL_fails hd h
  | BREAK =>
    rw [hd] at h
    cases h
    exact .message (.break hd) (.refl s) rfl
  | UnknownOpcode =>
    rw [hd] at h
    exact .message (.unknownOpcode hd) (.refl s) h
  | MMI_Unknown =>
    rw [hd] at h
    exact .message (.unknownMMI hd) (.refl s) h

end Handlers

end Ps2Unpacker
