import Ps2Unpacker.Semantics.Accesses

/-!
# What an instruction marks

`tags` has two bits for each byte of memory, one for reads and one for writes. `CpuRegisters.reads`
lists the addresses an instruction reads, its own word among them, as `CpuRegisters.footprint` lists
those it stores to; together they say what the instruction makes of the array, bit by bit.

* `Marks`: the tags after some reads and writes.
* `marks_account`: the marks are an account of the accesses, so every instruction has them.
* `fetch_marks`: the fetch marks the word of the instruction.
-/

namespace Ps2Unpacker

open CProg Lanes

/-! ### Marks -/

/-- One of the addresses denotes the byte `m`, through either window. -/
def Covers (A : List U32) (m : Fin MEMSIZE) : Prop := ∃ mem ∈ A, foldAddr mem = some m

instance (A : List U32) (m : Fin MEMSIZE) : Decidable (Covers A m) :=
  inferInstanceAs (Decidable (∃ mem ∈ A, foldAddr mem = some m))

/-- Addresses in two lists cover what those of one of them cover. -/
theorem covers_append {A B : List U32} {m : Fin MEMSIZE} :
    Covers (A ++ B) m ↔ Covers A m ∨ Covers B m := by
  unfold Covers
  simp only [List.mem_append, or_and_right, exists_or]

/-- The bits of a byte that was read through the addresses `R` and written through `W`. -/
def marks (R W : List U32) (m : Fin MEMSIZE) : U8 :=
  (if Covers R m then 1 else 0) ||| (if Covers W m then 2 else 0)

/-- No access marks nothing. -/
theorem marks_nil (m : Fin MEMSIZE) : marks [] [] m = 0 := by
  unfold marks
  rw [if_neg (by simp [Covers]), if_neg (by simp [Covers])]
  rfl

/-- The marks of accesses in turn. -/
theorem marks_append (R W R' W' : List U32) (m : Fin MEMSIZE) :
    marks (R ++ R') (W ++ W') m = marks R W m ||| marks R' W' m := by
  -- Each of the two bits is set where one of its lists covers the byte.
  have hbits : ∀ a b c d : Prop, [Decidable a] → [Decidable b] → [Decidable c] → [Decidable d] →
      ((if a ∨ b then (1 : U8) else 0) ||| if c ∨ d then 2 else 0) =
        ((if a then 1 else 0) ||| if c then 2 else 0) |||
          ((if b then 1 else 0) ||| if d then 2 else 0) := by
    intro a b c d _ _ _ _
    by_cases ha : a <;> by_cases hb : b <;> by_cases hc : c <;> by_cases hd : d <;>
      simp only [ha, hb, hc, hd, or_true, or_false, if_true, if_false] <;> decide
  unfold marks
  rw [← hbits]
  simp only [covers_append]

/-- From `s` to `s'` the bytes at the addresses `R` were read and those at `W` were written. -/
structure Marks (R W : List U32) (s s' : Machine) : Prop where
  read : ∀ mem ∈ R, Accepted mem
  written : ∀ mem ∈ W, Accepted mem
  tags : ∀ m, s'.tags m = s.tags m ||| marks R W m

/-- Without an access the tags stay. -/
theorem Marks.of_tags {s s' : Machine} (h : s'.tags = s.tags) : Marks [] [] s s' where
  read := nofun
  written := nofun
  tags := by
    intro m
    rw [h, marks_nil]
    exact BitVec.or_zero.symm

/-- The accesses of two steps in turn. -/
theorem Marks.trans {R W R' W' : List U32} {s₁ s₂ s₃ : Machine} (h : Marks R W s₁ s₂)
    (h' : Marks R' W' s₂ s₃) : Marks (R ++ R') (W ++ W') s₁ s₃ where
  read mem hmem := (List.mem_append.mp hmem).elim (h.read mem) (h'.read mem)
  written mem hmem := (List.mem_append.mp hmem).elim (h.written mem) (h'.written mem)
  tags := by
    intro m
    rw [h'.tags m, h.tags m, BitVec.or_assoc, marks_append]

/-- Only the tags of the two states matter. -/
theorem Marks.congr {R W : List U32} {s s' t t' : Machine} (h : Marks R W s s')
    (hs : t.tags = s.tags) (hs' : t'.tags = s'.tags) : Marks R W t t' where
  read := h.read
  written := h.written
  tags := by
    intro m
    rw [hs, hs', h.tags m]

/-- An address that denotes a byte is accepted. -/
theorem accepted_of_fold {mem : U32} {m : Fin MEMSIZE} (h : foldAddr mem = some m) :
    ∀ mem' ∈ [mem], Accepted mem' := by
  intro mem' hmem
  rw [List.mem_singleton.mp hmem]
  exact Option.isSome_iff_exists.mpr ⟨m, h⟩

/-- What sets a bit of one byte. -/
theorem marks_tag {mem : U32} {m : Fin MEMSIZE} (hm : foldAddr mem = some m) (s : Machine) :
    Marks [mem] [] s (s.tag 1 m) := by
  refine ⟨accepted_of_fold hm, nofun, fun j => ?_⟩
  unfold Machine.tag marks Covers
  by_cases hj : j = m
  · simp [hj, hm]
  · simp [hj, hm, Ne.symm hj]

/-- A stored byte is marked as written. -/
theorem marks_storeByte {mem : U32} {m : Fin MEMSIZE} (hm : foldAddr mem = some m) (value : U8)
    (s : Machine) : Marks [] [mem] s (s.storeByte mem m value) := by
  refine ⟨nofun, accepted_of_fold hm, fun j => ?_⟩
  unfold Machine.storeByte marks Covers
  by_cases hj : j = m
  · simp [hj, hm]
  · simp [hj, hm, Ne.symm hj]

/-! ### Instructions -/

/-- The marks are an account. -/
theorem marks_account : Account Marks where
  trans _ _ _ _ _ _ _ h h' := h.trans h'
  read _ _ s hm := marks_tag hm s
  store _ _ value s hm := marks_storeByte hm value s
  mute _ _ h := .of_tags h.tags

/-- The fetch marks the word of the instruction. -/
theorem fetch_marks (report : U32 → M Unit) :
    (fetch report).Ensures fun s _ s₀ => Marks (span (s₀.cpu.pc - 4) 0 4) [] s s₀ := by
  intro s u s₀ h
  obtain ⟨s₁, -, -, htags, hmarks⟩ := fetch_account marks_account report h
  exact hmarks.congr rfl htags

end Ps2Unpacker
