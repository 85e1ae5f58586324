import Ps2Unpacker.Semantics.Frame

/-!
# Where an instruction stores

`CpuRegisters.footprint` lists the addresses an instruction stores to, as a function of the
registers with which it is dispatched. It is what decides, before an instruction runs, which bytes
are tagged as written after it.

* `MemOp.run_writes`: a memory instruction tags exactly the bytes of its footprint.
* `Op.run_writes`: so does every instruction but the branches, and only stores have a footprint.
-/

namespace Ps2Unpacker

open CProg Lanes

/-- The addresses of the bytes `k, k + 1, …` of a value, `n` of them. -/
def span (mem : U32) (k n : Nat) : List U32 :=
  (List.range' k n).map fun j => mem + BitVec.ofNat 32 j

/-- The addresses of a run, by their offset. -/
theorem exists_mem_span {mem : U32} {n : Nat} {P : U32 → Prop} :
    (∃ a ∈ span mem 0 n, P a) ↔ ∃ j, j < n ∧ P (mem + BitVec.ofNat 32 j) := by
  unfold span
  rw [← List.range_eq_range']
  simp only [List.mem_map, List.mem_range]
  constructor
  · rintro ⟨_, ⟨j, hj, rfl⟩, hP⟩
    exact ⟨j, hj, hP⟩
  · rintro ⟨j, hj, hP⟩
    exact ⟨_, ⟨j, hj, rfl⟩, hP⟩

/-- The addresses a memory instruction stores to. -/
def MemOp.footprint : MemOp → CpuRegisters → List U32
  | SB, r => [Handler.address r]
  | SH, r => span (Handler.address r) 0 2
  | SW, r => span (Handler.addressOut r) 0 4
  | SWL, r | SWR, r => span (Handler.addressOut r &&& ~~~3) 0 4
  | SD, r => span (Handler.addressOut r) 0 8
  | SDL, r | SDR, r => span (Handler.addressOut r &&& ~~~7) 0 8
  | SQ, r => span (Handler.addressOut r &&& ~~~0xf) 0 16
  | _, _ => []

/-- The addresses an instruction stores to. -/
def CpuRegisters.footprint (r : CpuRegisters) : List U32 :=
  match decode r.code with
  | .memory o => o.footprint r
  | _ => []

/-- The instruction stores to the byte `m`, through either window. -/
def CpuRegisters.Stores (r : CpuRegisters) (m : Fin MEMSIZE) : Prop :=
  ∃ mem ∈ r.footprint, foldAddr mem = some m

instance (r : CpuRegisters) (m : Fin MEMSIZE) : Decidable (r.Stores m) :=
  inferInstanceAs (Decidable (∃ mem ∈ r.footprint, foldAddr mem = some m))

/-- From `s` to `s'`, exactly the bytes at the addresses `A` became tagged as written. -/
def Writes (A : List U32) (s s' : Machine) : Prop :=
  ∀ m, s'.Written m ↔ s.Written m ∨ ∃ mem ∈ A, foldAddr mem = some m

theorem Writes.refl (s : Machine) : Writes [] s s := by
  intro m
  simp

/-- The writes of two steps in turn. -/
theorem Writes.trans {A B : List U32} {s₁ s₂ s₃ : Machine} (h : Writes A s₁ s₂)
    (h' : Writes B s₂ s₃) : Writes (A ++ B) s₁ s₃ := by
  intro m
  rw [h' m, h m, or_assoc]
  simp only [List.mem_append, or_and_right, exists_or]

/-- Two steps without writes have none. -/
theorem Writes.nil_trans ⦃s₁ s₂ s₃ : Machine⦄ (h : Writes [] s₁ s₂) (h' : Writes [] s₂ s₃) :
    Writes [] s₁ s₃ := h.trans h'

/-- Where the tags stay, nothing was written. -/
theorem Writes.of_tags {s s' : Machine} (h : s'.tags = s.tags) : Writes [] s s' := by
  intro m
  unfold Machine.Written
  rw [h]
  simp

/-- A read writes nothing. -/
theorem ReadOnly.writes {s s' : Machine} (h : ReadOnly s s') : Writes [] s s' := by
  intro m
  rw [h.extends.written m]
  simp

/-! ### Accessors -/

section Accessors

variable {report : U32 → M Unit}

/-- A byte that is written is tagged. -/
theorem memWrite8_writes (mem : U32) (value : U8) :
    (memWrite8 report mem value).Within (Writes [mem]) := by
  intro s u s' h
  obtain ⟨m, hm, rfl⟩ := memWrite8_eq_ok.mp h
  intro j
  rw [(extends_storeByte hm value s).written j]
  simp [Event.hits]

/-- The bytes of a wider write are tagged. -/
theorem writeFrom_writes {w : Nat} (mem : U32) (value : BitVec w) (n : Nat) :
    ∀ k, (writeFrom report mem value k n).Within (Writes (span mem k n)) := by
  -- Byte `k`, then the bytes from `k + 1` on: the span is built the same way.
  induction n with
  | zero => exact fun _ => Prog.within_pure Writes.refl ()
  | succ n ih =>
    intro k s u s' h
    obtain ⟨_, s₁, h₁, h₂⟩ := Prog.bind_eq_ok.mp h
    exact (memWrite8_writes _ _ h₁).trans (ih (k + 1) h₂)

/-- A change of the registers stores nothing. -/
theorem modifyCpu_writes (f : CpuRegisters → CpuRegisters) : (modifyCpu f).Within (Writes []) :=
  Prog.within_modify fun _ => .of_tags rfl

/-! ### Loads and stores -/

/-- A load that extends the value it read. -/
theorem load_writes {α : Type} {addr : CpuRegisters → U32} {read : U32 → M α} {ext : α → U64}
    (hread : ∀ mem, (read mem).Within ReadOnly) :
    (do let val ← read (addr (← cpu)); Handler.loadRt (ext val)).Within (Writes []) := by
  intro s u s' h
  rw [cpu_bind] at h
  obtain ⟨v, s₁, h₁, h₂⟩ := Prog.bind_eq_ok.mp h
  exact (hread _ h₁).writes.nil_trans (modifyCpu_writes _ h₂)

/-- A load that merges the value it read into `rt`. -/
theorem merge_writes {w : Nat} {addr : CpuRegisters → U32}
    {merge : CpuRegisters → BitVec w → CpuRegisters → U64} (n : Nat) :
    (do let r ← cpu
        if r.rt = 0 then pure ()
        else do
          let mem ← readFrom report (addr r) 0 n (0 : BitVec w)
          modifyCpu fun r' => r'.setLane r'.rt 0 (merge r mem r')).Within (Writes []) := by
  intro s u s' h
  rw [cpu_bind] at h
  -- A load tags as read only.
  split at h
  · obtain ⟨-, rfl⟩ := Prog.pure_eq_ok.mp h
    exact .refl s
  · obtain ⟨v, s₁, h₁, h₂⟩ := Prog.bind_eq_ok.mp h
    exact (readFrom_readOnly _ _ _ _ h₁).writes.nil_trans (modifyCpu_writes _ h₂)

/-- A store that merges `rt` into the value it read. -/
theorem mergeStore_writes {w : Nat} {addr : CpuRegisters → U32}
    {merge : CpuRegisters → BitVec w → BitVec w} (n : Nat) {s s' : Machine} {u : Unit}
    (h : (do let r ← cpu
             let mem ← readFrom report (addr r) 0 n (0 : BitVec w)
             writeFrom report (addr r) (merge r mem) 0 n) s = .ok u s') :
    Writes (span (addr s.cpu) 0 n) s s' := by
  rw [cpu_bind] at h
  obtain ⟨v, s₁, h₁, h₂⟩ := Prog.bind_eq_ok.mp h
  exact (readFrom_readOnly _ _ _ _ h₁).writes.trans (writeFrom_writes _ _ n 0 h₂)

/-- **Stores** tag exactly the bytes of their footprint, and loads tag none. -/
theorem MemOp.run_writes {host : Host} (o : MemOp) {s s' : Machine}
    (h : o.run host report s = .ok () s') : Writes (o.footprint s.cpu) s s' := by
  cases o with
  -- Loads only read; what they set is bit 0 of a tag.
  | LB | LBU => exact load_writes memRead8_readOnly h
  | LH | LHU => exact load_writes (fun mem => readFrom_readOnly mem 0 2 0) h
  | LW | LWU => exact load_writes (fun mem => readFrom_readOnly mem 0 4 0) h
  | LD => exact @load_writes _ _ _ id (fun mem => readFrom_readOnly mem 0 8 0) _ _ _ h
  | LWL | LWR => exact merge_writes 4 h
  | LDL | LDR => exact merge_writes 8 h
  | LQ =>
    change (cpu >>= fun r => _) s = _ at h
    rw [cpu_bind] at h
    obtain ⟨v, s₁, h₁, h₂⟩ := Prog.bind_eq_ok.mp h
    exact (readFrom_readOnly _ _ _ _ h₁).writes.nil_trans (modifyCpu_writes _ h₂)
  -- Stores write the bytes from their address on, the merging ones the block around it.
  | SB => exact memWrite8_writes _ _ h
  | SH => exact writeFrom_writes _ _ 2 0 h
  | SW => exact writeFrom_writes _ _ 4 0 h
  | SD => exact writeFrom_writes _ _ 8 0 h
  | SWL | SWR => exact mergeStore_writes 4 h
  | SDL | SDR => exact mergeStore_writes 8 h
  | SQ => exact writeFrom_writes _ _ 16 0 h

end Accessors

/-! ### All instructions -/

/-- The footprint of a memory instruction. -/
theorem footprint_of_memory {r : CpuRegisters} {o : MemOp} (h : decode r.code = .memory o) :
    r.footprint = o.footprint r := by
  unfold CpuRegisters.footprint
  rw [h]

/-- No other instruction has one. -/
theorem footprint_of_ne {r : CpuRegisters} (h : ∀ o, decode r.code ≠ .memory o) :
    r.footprint = [] := by
  unfold CpuRegisters.footprint
  split
  · rename_i o ho
    exact absurd ho (h o)
  · rfl

/-- **All instructions** but the branches tag exactly the bytes of their footprint. -/
theorem Op.run_writes {host : Host} {report : U32 → M Unit} {execI : M Unit} {s s' : Machine}
    (hop : ∀ o, decode s.cpu.code ≠ .branch o)
    (h : (decode s.cpu.code).run host report execI s = .ok () s') :
    Writes s.cpu.footprint s s' := by
  -- Only a memory instruction has a footprint; the others must leave the tags alone.
  cases hd : decode s.cpu.code with
  | register o =>
    rw [hd] at h
    obtain ⟨r, hr, rfl⟩ := modifyCpu?_eq_ok.mp h
    rw [footprint_of_ne (by rw [hd]; simp)]
    exact .of_tags rfl
  | memory o =>
    rw [hd] at h
    rw [footprint_of_memory hd]
    exact o.run_writes h
  | branch o => exact absurd hd (hop o)
  | COP0 =>
    rw [hd] at h
    rw [footprint_of_ne (by rw [hd]; simp)]
    rcases COP0_eq_ok h with ⟨rfl, -⟩ | ⟨rfl, -⟩
    · exact .of_tags rfl
    · exact .refl s'
  | SYSCALL =>
    rw [hd] at h
    rw [footprint_of_ne (by rw [hd]; simp)]
    exact .of_tags (SYSCALL_eq_ok h).tags
  -- These three never return.
  | BREAK => rw [hd] at h; cases h
  | UnknownOpcode => rw [hd] at h; exact absurd h (fatal_ne_ok _ _)
  | MMI_Unknown => rw [hd] at h; exact absurd h (fatal_ne_ok _ _)

end Ps2Unpacker
