import Ps2Unpacker.Framework.LittleEndian
import Ps2Unpacker.Framework.Store
import Ps2Unpacker.Semantics.Access

/-!
# Memory as a byte store

The accessors of several bytes, in terms of the cells of `memory` their addresses denote. `Denotes
mem n cell` names the cells of a range of addresses; neither the window nor the alignment appears
after that.

* `Denotes.distinct`: the addresses of a range denote different bytes.
* `readFrom_denotes`: a read returns the little-endian combination of the bytes and changes nothing
  but tags of bytes read.
* `writeFrom_denotes`: a write assigns the bytes of the value, lowest address first.
-/

namespace Ps2Unpacker

open CProg Lanes

variable {report : U32 → M Unit} {mem : U32} {n : Nat} {cell : Nat → Fin MEMSIZE}

/-- The address `mem + j` denotes the byte `cell j`, for the first `n` of them. -/
def Denotes (mem : U32) (n : Nat) (cell : Nat → Fin MEMSIZE) : Prop :=
  ∀ j, j < n → foldAddr (mem + BitVec.ofNat 32 j) = some (cell j)

/-- Accepted addresses denote bytes. -/
theorem exists_denotes (h : ∀ j, j < n → Accepted (mem + BitVec.ofNat 32 j)) :
    ∃ cell, Denotes mem n cell := by
  refine ⟨fun j => (foldAddr (mem + BitVec.ofNat 32 j)).getD ⟨0, by decide⟩, fun j hj => ?_⟩
  obtain ⟨m, hm⟩ := Option.isSome_iff_exists.mp (h j hj)
  simp only [hm, Option.getD_some]

/-- And the other way round. -/
theorem Denotes.accepted (h : Denotes mem n cell) {j : Nat} (hj : j < n) :
    Accepted (mem + BitVec.ofNat 32 j) := by
  unfold Accepted
  rw [h j hj]
  rfl

/-- The two addresses of a byte. -/
theorem foldAddr_eq_some_iff {m : Fin MEMSIZE} :
    foldAddr mem = some m ↔ mem.toNat = m.val ∨ mem.toNat = m.val + 0x08000000 := by
  have hsize := MEMSIZE_eq
  have hm := m.isLt
  constructor
  · intro h
    unfold foldAddr at h
    split at h
    · obtain rfl := Option.some.inj h
      exact .inl rfl
    · split at h
      · rename_i hwin
        obtain rfl := Option.some.inj h
        exact .inr (Nat.sub_add_cancel hwin.1).symm
      · cases h
  · unfold foldAddr
    -- An index is an address of the first window; the copy is not, so its test is the second one.
    rintro (h | h)
    · rw [dif_pos (by omega)]
      exact congrArg some (Fin.ext h)
    · rw [dif_neg (by omega), dif_pos (by omega)]
      exact congrArg some (Fin.ext (Nat.sub_eq_of_eq_add h))

/-- The addresses of a range denote different bytes. -/
theorem Denotes.distinct (h : Denotes mem n cell) (hn : n ≤ MEMSIZE) : Distinct cell 0 n := by
  intro i j _ hi _ hj heq
  have hsize := MEMSIZE_eq
  have hmem := mem.isLt
  -- Two addresses of one byte are a window apart, further than the range is long.
  have hi' := foldAddr_eq_some_iff.mp (h i (by omega))
  have hj' := foldAddr_eq_some_iff.mp (h j (by omega))
  rw [BitVec.toNat_add, BitVec.toNat_ofNat] at hi' hj'
  rw [heq] at hi'
  omega

/-! ### Reads -/

/-- The bytes a load has placed. -/
theorem loadFrom_denotes {w : Nat} (memory : Fin MEMSIZE → U8) (h : Denotes mem n cell) (m : Nat) :
    ∀ (k : Nat) (value : BitVec w), k + m ≤ n → 8 * n ≤ w →
      ∃ v, loadFrom memory mem k m value = some v ∧
        ∀ j, j < k + m → lane 8 j v = if j < k then lane 8 j value else memory (cell j) := by
  -- On the number of bytes that are left; those below `k` are in place.
  induction m with
  | zero =>
    intro k value _ _
    exact ⟨value, rfl, fun j hj => (if_pos (by omega)).symm⟩
  | succ m ih =>
    intro k value hk hw
    obtain ⟨v, hload, hv⟩ := ih (k + 1) (setLane k (memory (cell k)) value) (by omega) hw
    refine ⟨v, ?_, fun j hj => ?_⟩
    · unfold loadFrom
      rw [h k (by omega)]
      exact hload
    · rw [hv j (by omega)]
      -- The first byte of the rest is placed now, the others by the induction hypothesis.
      by_cases hjk : j < k
      · rw [if_pos hjk, if_pos (by omega), lane_setLane_of_ne _ _ (by omega)]
      · rw [if_neg hjk]
        by_cases heq : j = k
        · subst heq
          rw [if_pos (by omega), lane_setLane_self _ _ _ (by omega)]
        · rw [if_neg (by omega)]

/-- **A read** returns the little-endian combination of the bytes. -/
theorem readFrom_denotes (report : U32 → M Unit) {w : Nat} (h : Denotes mem n cell) (hw : w = 8 * n)
    (s : Machine) :
    ∃ s', readFrom report mem 0 n (0 : BitVec w) s =
        .ok (ofBytes w ((List.range n).map fun j => s.memory (cell j))) s' ∧ ReadOnly s s' := by
  obtain ⟨v, s', hrun⟩ := readFrom_of_accepted report mem n 0 (0 : BitVec w) s
    fun j _ hj => h.accepted (by omega)
  obtain ⟨hload, hro⟩ := readFrom_ensures mem n 0 (0 : BitVec w) hrun
  obtain ⟨v', hload', hv⟩ := loadFrom_denotes s.memory h n 0 (0 : BitVec w) (by omega) (by omega)
  obtain rfl : v = v' := Option.some.inj (hload.symm.trans hload')
  refine ⟨s', ?_, hro⟩
  rw [hrun, eq_ofBytes hw fun j hj => (hv j (by omega)).trans (if_neg (by omega))]

/-! ### Writes -/

/-- Bytes that are all accepted are written. -/
theorem writeFrom_of_accepted (report : U32 → M Unit) {w : Nat} (value : BitVec w) (n : Nat) :
    ∀ (k : Nat) (s : Machine),
      (∀ j, k ≤ j → j < k + n → Accepted (mem + BitVec.ofNat 32 j)) →
      ∃ s', writeFrom report mem value k n s = .ok () s' := by
  induction n with
  | zero => exact fun k s _ => ⟨s, rfl⟩
  | succ n ih =>
    intro k s h
    obtain ⟨m, hm⟩ := Option.isSome_iff_exists.mp (h k (Nat.le_refl k) (by omega))
    have hwrite : memWrite8 report (mem + BitVec.ofNat 32 k) (lane 8 k value) s = .ok () _ :=
      memWrite8_eq_ok.mpr ⟨m, hm, rfl⟩
    obtain ⟨s', hrest⟩ := ih (k + 1) _ fun j hlo hhi => h j (by omega) (by omega)
    exact ⟨s', (Prog.bind_ok_of hwrite).trans hrest⟩

/-- A returning write assigns byte `j` of the value to the cell of `mem + j`. -/
theorem writeFrom_memory {w : Nat} (value : BitVec w) (h : Denotes mem n cell) (m : Nat) :
    ∀ k, k + m ≤ n → (writeFrom report mem value k m).Within fun s s' =>
      s'.memory = assign cell (fun j => lane 8 j value) k m s.memory := by
  induction m with
  | zero =>
    intro k _ s u s' hrun
    obtain ⟨-, rfl⟩ := Prog.pure_eq_ok.mp hrun
    rfl
  | succ m ih =>
    intro k hk s u s' hrun
    obtain ⟨_, s₁, h₁, h₂⟩ := Prog.bind_eq_ok.mp hrun
    obtain ⟨i, hi, rfl⟩ := memWrite8_eq_ok.mp h₁
    obtain rfl := Option.some.inj ((h k (by omega)).symm.trans hi)
    exact ih (k + 1) (by omega) h₂

/-- **A write** puts the bytes of the value into the cells and leaves the other cells alone. -/
theorem writeFrom_denotes (report : U32 → M Unit) {w : Nat} (value : BitVec w)
    (h : Denotes mem n cell) (hn : n ≤ MEMSIZE) (s : Machine) :
    ∃ s', writeFrom report mem value 0 n s = .ok () s' ∧
      (∀ j, j < n → s'.memory (cell j) = lane 8 j value) ∧
      ∀ m, (∀ j, j < n → cell j ≠ m) → s'.memory m = s.memory m := by
  obtain ⟨s', hrun⟩ := writeFrom_of_accepted report value n 0 s
    fun j _ hj => h.accepted (by omega)
  have hmemory := writeFrom_memory value h n 0 (by omega) hrun
  refine ⟨s', hrun, fun j hj => ?_, fun m hm => ?_⟩
  · rw [hmemory]
    exact assign_cell _ n (h.distinct hn) (Nat.zero_le j) (by omega)
  · rw [hmemory]
    exact assign_of_ne _ n fun j _ hj => hm j (by omega)

end Ps2Unpacker
