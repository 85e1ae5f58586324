import Ps2Unpacker.Machine.InterTables

/-!
# What a memory access does

One specification for each accessor of `memory.c`, in terms of `foldAddr`, the byte an address
denotes. The proofs about instructions use these and never look at the mapping switch again.

* `translate_of_fold`, `translate_of_none`: an address is accepted exactly if it denotes a byte, and
  a rejected one takes the fatal path.
* `memRead8_eq_ok`, `memWrite8_eq_ok`: what a returning access of one byte does.
* `fetchWord`, `memRead32_ensures`: the word a returning fetch delivers, as a function of memory.
* `ReadOnly`: what reading changes, which is bit 0 of some tags.
-/

namespace Ps2Unpacker

open CProg Lanes

variable {report : U32 → M Unit} {s s' : Machine} {mem : U32}

/-! ### Rejection -/

/-- A fatal path does not return. -/
theorem fatal_ne_ok {α : Type} (msg : Message) (a : α) : fatal report msg s ≠ .ok a s' := by
  intro h
  obtain ⟨-, s₁, -, h⟩ := Prog.bind_eq_ok.mp h
  obtain ⟨r, s₂, -, h⟩ := Prog.bind_eq_ok.mp h
  obtain ⟨-, s₃, -, h⟩ := Prog.bind_eq_ok.mp h
  simp at h

/-- Nothing runs after a fatal path. -/
@[simp] theorem fatal_bind {α β : Type} (msg : Message) (f : α → M β) (s : Machine) :
    ((fatal report msg : M α) >>= f) s = (fatal report msg : M β) s := by
  unfold fatal
  simp only [Prog.bind_apply, printf_apply, cpu]
  cases report _ _ <;> rfl

/-- What ends in the fatal path ends there whatever was to come. -/
theorem bind_of_fatal {α β : Type} {m : M α} {f : α → M β} {msg : Message}
    (h : m s = fatal report msg s') : (m >>= f) s = (fatal report msg : M β) s' := by
  rw [← fatal_bind msg f s', Prog.bind_apply, h]
  rfl

/-! ### Translation -/

/-- Clearing the bit of the copy window subtracts its base. -/
theorem copy_toNat (hlo : 0x08000000 ≤ mem.toNat) (hhi : mem.toNat < 0x10000000) :
    (mem &&& 0xf7ffffff).toNat = mem.toNat - 0x08000000 := by
  -- Bits 28 to 31 are clear below `2 ^ 28`, so the mask leaves the 27 low bits.
  have hlow : mem &&& 0xf7ffffff = mem &&& 0x07ffffff := by
    apply BitVec.eq_of_getLsbD_eq
    intro i hi
    have htop : 28 ≤ i → mem.getLsbD i = false := by
      intro h28
      apply Nat.testBit_lt_two_pow
      calc mem.toNat < 2 ^ 28 := hhi
        _ ≤ 2 ^ i := Nat.pow_le_pow_right (by decide) h28
    by_cases h28 : 28 ≤ i
    · simp [htop h28]
    · have : i < 28 := by omega
      interval_cases i <;> simp
  rw [hlow, BitVec.toNat_and]
  have hmod : mem.toNat &&& 0x07ffffff = mem.toNat % 2 ^ 27 := Nat.and_two_pow_sub_one_eq_mod _ 27
  -- The mask of ones is a remainder.
  change mem.toNat &&& 0x07ffffff = _
  rw [hmod]
  omega

/-- The range check passes an index below the end of memory. -/
theorem inRange_of_lt {access : Access} (h : mem.toNat < MEMSIZE) :
    inRange report access mem s = .ok ⟨mem.toNat, h⟩ s := by
  unfold inRange
  rw [dif_pos h, Prog.pure_apply]

/-- Any other one takes the fatal path. -/
theorem inRange_of_not_lt {access : Access} (h : ¬mem.toNat < MEMSIZE) :
    inRange report access mem s = fatal report (.outOfRange access mem (s.cpu.pc - 4)) s := by
  unfold inRange
  rw [dif_neg h, cpu_bind]

/-- Translation past the mapping switch. -/
theorem translate_of_unmap {access : Access} {mem' : U32}
    (h : unmap report access mem = pure mem') :
    translate report access mem s = inRange report access mem' s := by
  unfold translate
  rw [h]
  rfl

/-- Below 128 MiB the address is the index. -/
theorem unmap_default {access : Access} (h : mem.toNat < 0x08000000) :
    unmap report access mem = pure mem := by
  unfold unmap
  rw [if_pos ((mapping_eq_zero mem).mpr h)]

/-- In the next 128 MiB the bit of the copy is cleared. -/
theorem unmap_copy {access : Access} (h : 0x08000000 ≤ mem.toNat ∧ mem.toNat < 0x10000000) :
    unmap report access mem = pure (mem &&& 0xf7ffffff) := by
  have h0 : ¬(mem &&& 0xf8000000) >>> 24 = 0 := by
    rw [mapping_eq_zero]
    omega
  unfold unmap
  rw [if_neg h0, if_pos ((mapping_eq_eight mem).mpr h)]

/-- No other address is mapped. -/
theorem unmap_other {access : Access} (h : 0x10000000 ≤ mem.toNat) :
    unmap report access mem = fatal report (.unknownMapping access (mem &&& 0xf8000000) mem) := by
  have h0 : ¬(mem &&& 0xf8000000) >>> 24 = 0 := by
    rw [mapping_eq_zero]
    omega
  have h8 : ¬(mem &&& 0xf8000000) >>> 24 = 8 := by
    rw [mapping_eq_eight]
    omega
  unfold unmap
  rw [if_neg h0, if_neg h8]

/-- An address that denotes a byte is accepted, and nothing changes. -/
theorem translate_of_fold {m : Fin MEMSIZE} (access : Access) (h : foldAddr mem = some m) :
    translate report access mem s = .ok m s := by
  have hsize := MEMSIZE_eq
  unfold foldAddr at h
  split at h
  · -- main memory
    rename_i hlt
    obtain rfl := Option.some.inj h
    rw [translate_of_unmap (unmap_default (by omega)), inRange_of_lt hlt]
  · split at h
    · -- the copy window
      rename_i hlt hwin
      obtain rfl := Option.some.inj h
      have hn := copy_toNat hwin.1 (by omega)
      have hlt' : (mem &&& 0xf7ffffff).toNat < MEMSIZE := by omega
      rw [translate_of_unmap (unmap_copy ⟨hwin.1, by omega⟩), inRange_of_lt hlt']
      exact congrArg (fun m => Outcome.ok m s) (Fin.ext hn)
    · cases h

/-- An address that denotes no byte takes the fatal path. -/
theorem translate_of_none (access : Access) (h : foldAddr mem = none) :
    ∃ msg, translate report access mem s = fatal report msg s := by
  have hsize := MEMSIZE_eq
  -- Neither window contains the address.
  unfold foldAddr at h
  split at h
  · cases h
  · split at h
    · cases h
    · -- Past the end of memory, past the end of the copy, or in another mapping altogether.
      rename_i hlt hwin
      by_cases hdefault : mem.toNat < 0x08000000
      · refine ⟨.outOfRange access mem (s.cpu.pc - 4), ?_⟩
        rw [translate_of_unmap (unmap_default hdefault), inRange_of_not_lt hlt]
      · by_cases hcopy : mem.toNat < 0x10000000
        · have hn := copy_toNat (by omega) hcopy
          have hge : ¬(mem &&& 0xf7ffffff).toNat < MEMSIZE := by omega
          refine ⟨.outOfRange access (mem &&& 0xf7ffffff) (s.cpu.pc - 4), ?_⟩
          rw [translate_of_unmap (unmap_copy ⟨by omega, hcopy⟩), inRange_of_not_lt hge]
        · refine ⟨.unknownMapping access (mem &&& 0xf8000000) mem, ?_⟩
          unfold translate
          rw [unmap_other (by omega), fatal_bind]

/-- **Translation** returns exactly for the addresses that denote a byte. -/
theorem translate_eq_ok {access : Access} {m : Fin MEMSIZE} :
    translate report access mem s = .ok m s' ↔ foldAddr mem = some m ∧ s' = s := by
  -- The other addresses take the fatal path, which does not return.
  constructor
  · intro h
    cases hf : foldAddr mem with
    | none =>
      obtain ⟨msg, hmsg⟩ := @translate_of_none report s mem access hf
      rw [hmsg] at h
      exact absurd h (fatal_ne_ok msg m)
    | some m' =>
      rw [translate_of_fold access hf] at h
      cases h
      exact ⟨rfl, rfl⟩
  · rintro ⟨hf, rfl⟩
    exact translate_of_fold access hf

/-! ### Bytes -/

/-- A read returns the byte the address denotes and tags it as read. -/
theorem memRead8_eq_ok {b : U8} :
    memRead8 report mem s = .ok b s' ↔
      ∃ m, foldAddr mem = some m ∧ b = s.memory m ∧ s' = s.tag 1 m := by
  unfold memRead8
  rw [Prog.bind_eq_ok]
  constructor
  · rintro ⟨m, s₁, h₁, h₂⟩
    obtain ⟨hf, rfl⟩ := translate_eq_ok.mp h₁
    cases h₂
    exact ⟨m, hf, rfl, rfl⟩
  · rintro ⟨m, hf, rfl, rfl⟩
    exact ⟨m, s, translate_of_fold _ hf, rfl⟩

/-- A read of an address that denotes no byte takes the fatal path. -/
theorem memRead8_of_none (h : foldAddr mem = none) :
    ∃ msg, memRead8 report mem s = fatal report msg s := by
  obtain ⟨msg, hmsg⟩ := @translate_of_none report s mem .reading h
  exact ⟨msg, bind_of_fatal hmsg⟩

/-- The state after a store of `value` to the byte `m` that `mem` denotes. -/
def Machine.storeByte (mem : U32) (m : Fin MEMSIZE) (value : U8) (s : Machine) : Machine :=
  { s with
    memory := fun j => if j = m then value else s.memory j
    tags := fun j => if j = m then s.tags m ||| 2 else s.tags j
    log := .store mem value :: s.log }

/-- A write replaces the byte the address denotes, tags it as written and enters the history. -/
theorem memWrite8_eq_ok {value : U8} {u : Unit} :
    memWrite8 report mem value s = .ok u s' ↔
      ∃ m, foldAddr mem = some m ∧ s' = s.storeByte mem m value := by
  unfold memWrite8
  rw [Prog.bind_eq_ok]
  constructor
  · rintro ⟨m, s₁, h₁, h₂⟩
    obtain ⟨hf, rfl⟩ := translate_eq_ok.mp h₁
    cases h₂
    exact ⟨m, hf, rfl⟩
  · rintro ⟨m, hf, rfl⟩
    exact ⟨m, s, translate_of_fold _ hf, rfl⟩

/-! ### Ranges -/

/-- The address denotes a byte. -/
def Accepted (mem : U32) : Prop := (foldAddr mem).isSome

instance (mem : U32) : Decidable (Accepted mem) := inferInstanceAs (Decidable (_ = true))

/-- The two windows in numbers. -/
theorem accepted_iff {mem : U32} : Accepted mem ↔
    mem.toNat < 0x02000000 ∨ 0x08000000 ≤ mem.toNat ∧ mem.toNat < 0x0a000000 := by
  have hsize := MEMSIZE_eq
  unfold Accepted foldAddr
  -- The first window, the copy, and whatever lies in neither.
  by_cases hlow : mem.toNat < MEMSIZE
  · rw [dif_pos hlow]
    exact ⟨fun _ => .inl hlow, fun _ => rfl⟩
  · rw [dif_neg hlow]
    by_cases hcopy : 0x08000000 ≤ mem.toNat ∧ mem.toNat < 0x08000000 + MEMSIZE
    · rw [dif_pos hcopy]
      exact ⟨fun _ => .inr hcopy, fun _ => rfl⟩
    · rw [dif_neg hcopy]
      constructor
      · intro h
        cases h
      · rintro (h | h)
        · exact absurd h hlow
        · exact absurd h hcopy

/-- An address outside of the windows denotes no byte. -/
theorem not_accepted_iff {mem : U32} : ¬Accepted mem ↔ foldAddr mem = none := by
  unfold Accepted
  rw [Bool.not_eq_true, Option.isSome_eq_false_iff, Option.isNone_iff_eq_none]

/-! ### Words -/

/-- Bytes `k, k + 1, …` of the value at `mem`, `n` of them, if every address denotes a byte. -/
def loadFrom {w : Nat} (memory : Fin MEMSIZE → U8) (mem : U32) :
    Nat → Nat → BitVec w → Option (BitVec w)
  | _, 0, value => some value
  | k, n + 1, value => do
    let m ← foldAddr (mem + BitVec.ofNat 32 k)
    loadFrom memory mem (k + 1) n (setLane k (memory m) value)

/-- The word at `mem`. -/
def fetchWord (memory : Fin MEMSIZE → U8) (mem : U32) : Option U32 := loadFrom memory mem 0 4 0

/-- In memory, an address denotes the byte it counts. -/
theorem foldAddr_of_lt (h : mem.toNat < MEMSIZE) : foldAddr mem = some ⟨mem.toNat, h⟩ := by
  unfold foldAddr
  rw [dif_pos h]

/-- Every address that denotes a byte is below the end of the copy window. -/
theorem foldAddr_lt {m : Fin MEMSIZE} (h : foldAddr mem = some m) : mem.toNat < 0x0a000000 := by
  have hsize := MEMSIZE_eq
  unfold foldAddr at h
  split at h
  · omega
  · split at h
    · omega
    · cases h

/-- A word is fetched from inside the windows only. -/
theorem fetchWord_lt {memory : Fin MEMSIZE → U8} {code : U32}
    (h : fetchWord memory mem = some code) :
    mem.toNat < 0x0a000000 := by
  obtain ⟨m, hm, -⟩ := Option.bind_eq_some_iff.mp h
  rw [BitVec.add_zero] at hm
  exact foldAddr_lt hm

/-- What reading does to the machine: bit 0 of some tags is set, and nothing else changes. -/
structure ReadOnly (s s' : Machine) : Prop where
  only_tags : s' = { s with tags := s'.tags }
  tags : ∀ m, s'.tags m = s.tags m ∨ s'.tags m = s.tags m ||| 1

theorem ReadOnly.refl (s : Machine) : ReadOnly s s := ⟨rfl, fun _ => .inl rfl⟩

/-- Two reads in turn are read-only. -/
theorem ReadOnly.trans {s₁ s₂ s₃ : Machine} (h : ReadOnly s₁ s₂) (h' : ReadOnly s₂ s₃) :
    ReadOnly s₁ s₃ where
  only_tags := by
    rw [h'.only_tags, h.only_tags]
  tags m := by
    -- Setting bit 0 twice is setting it once.
    rcases h.tags m with h | h <;> rcases h'.tags m with h' | h' <;> rw [h', h]
    · exact .inl rfl
    · exact .inr rfl
    · exact .inr rfl
    · exact .inr (by rw [BitVec.or_assoc, BitVec.or_self])

/-- Tagging a byte as read is read-only. -/
theorem readOnly_tag (s : Machine) (m : Fin MEMSIZE) : ReadOnly s (s.tag 1 m) where
  only_tags := rfl
  tags j := by
    unfold Machine.tag
    by_cases h : j = m
    · subst h
      exact .inr (by simp)
    · exact .inl (by simp [h])

theorem ReadOnly.memory {s s' : Machine} (h : ReadOnly s s') : s'.memory = s.memory := by
  rw [h.only_tags]

theorem ReadOnly.cpu {s s' : Machine} (h : ReadOnly s s') : s'.cpu = s.cpu := by
  rw [h.only_tags]

theorem ReadOnly.log {s s' : Machine} (h : ReadOnly s s') : s'.log = s.log := by
  rw [h.only_tags]

/-- A returning read of consecutive bytes delivers what memory holds there. -/
theorem readFrom_ensures {w : Nat} (mem : U32) (n : Nat) :
    ∀ (k : Nat) (value : BitVec w), (readFrom report mem k n value).Ensures fun s v s' =>
      loadFrom s.memory mem k n value = some v ∧ ReadOnly s s' := by
  -- On the bytes that are left.
  induction n with
  | zero =>
    intro k value s v s' h
    obtain ⟨rfl, rfl⟩ := Prog.pure_eq_ok.mp h
    exact ⟨rfl, .refl s⟩
  | succ n ih =>
    intro k value s v s' h
    obtain ⟨b, s₁, h₁, h₂⟩ := Prog.bind_eq_ok.mp h
    obtain ⟨m, hm, rfl, rfl⟩ := memRead8_eq_ok.mp h₁
    obtain ⟨hload, hro⟩ := ih (k + 1) _ h₂
    -- The remaining bytes are read after byte `k` was tagged, from the same memory.
    have hread := readOnly_tag s m
    refine ⟨?_, hread.trans hro⟩
    unfold loadFrom
    rw [hm]
    rw [hread.memory] at hload
    exact hload

/-- A returning `memRead32` delivers the word in memory. -/
theorem memRead32_ensures (mem : U32) :
    (memRead32 report mem).Ensures fun s v s' => fetchWord s.memory mem = some v ∧ ReadOnly s s' :=
  readFrom_ensures mem 4 0 0

theorem readFrom_readOnly {w : Nat} (mem : U32) (k n : Nat) (value : BitVec w) :
    (readFrom report mem k n value).Within ReadOnly :=
  Prog.ensures_mono (readFrom_ensures mem n k value) fun _ _ _ h => h.2

theorem memRead8_readOnly (mem : U32) : (memRead8 report mem).Within ReadOnly := by
  intro s _ _ h
  obtain ⟨m, -, -, rfl⟩ := memRead8_eq_ok.mp h
  exact readOnly_tag s m

/-- Bytes that are all accepted are read. -/
theorem readFrom_of_accepted (report : U32 → M Unit) {w : Nat} (mem : U32) (n : Nat) :
    ∀ (k : Nat) (value : BitVec w) (s : Machine),
      (∀ j, k ≤ j → j < k + n → Accepted (mem + BitVec.ofNat 32 j)) →
      ∃ v s', readFrom report mem k n value s = .ok v s' := by
  induction n with
  | zero => exact fun k value s _ => ⟨value, s, rfl⟩
  | succ n ih =>
    intro k value s h
    -- The next byte is accepted, so its read returns and the others follow it.
    obtain ⟨m, hm⟩ := Option.isSome_iff_exists.mp (h k (Nat.le_refl k) (by omega))
    have hread : memRead8 report (mem + BitVec.ofNat 32 k) s = .ok (s.memory m) (s.tag 1 m) :=
      memRead8_eq_ok.mpr ⟨m, hm, rfl, rfl⟩
    obtain ⟨v, s', hrest⟩ := ih (k + 1) (setLane k (s.memory m) value) (s.tag 1 m)
      (fun j hlo hhi => h j (by omega) (by omega))
    exact ⟨v, s', (Prog.bind_ok_of hread).trans hrest⟩

/-- A write leaves the registers alone. -/
theorem writeFrom_cpu {w : Nat} (mem : U32) (value : BitVec w) (n : Nat) :
    ∀ k, (writeFrom report mem value k n).Within fun s s' => s'.cpu = s.cpu := by
  have htrans : ∀ ⦃a b c : Machine⦄, b.cpu = a.cpu → c.cpu = b.cpu → c.cpu = a.cpu :=
    fun _ _ _ hab hbc => hbc.trans hab
  induction n with
  | zero =>
    intro k s _ s' h
    cases h
    rfl
  | succ n ih =>
    refine fun k => Prog.within_bind htrans ?_ fun _ => ih (k + 1)
    intro s _ s' h
    -- A byte and its tag, nothing else.
    obtain ⟨m, -, rfl⟩ := memWrite8_eq_ok.mp h
    rfl

/-- A returning write found all its bytes accepted. -/
theorem writeFrom_accepted {w : Nat} (mem : U32) (value : BitVec w) (n : Nat) :
    ∀ k, (writeFrom report mem value k n).Ensures fun _ _ _ =>
      ∀ j, k ≤ j → j < k + n → Accepted (mem + BitVec.ofNat 32 j) := by
  induction n with
  | zero =>
    intro k s _ s' _ j hlo hhi
    omega
  | succ n ih =>
    intro k s _ s' h j hlo hhi
    obtain ⟨_, s₁, h₁, h₂⟩ := Prog.bind_eq_ok.mp h
    -- Byte `k` was written first, the others by the rest of the loop.
    by_cases hj : j = k
    · obtain ⟨m, hm, -⟩ := memWrite8_eq_ok.mp h₁
      rw [hj]
      exact Option.isSome_iff_exists.mpr ⟨m, hm⟩
    · exact ih (k + 1) h₂ j (by omega) (by omega)

end Ps2Unpacker
