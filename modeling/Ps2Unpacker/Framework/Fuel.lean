import Mathlib.Data.BitVec
import Ps2Unpacker.Framework.Stops

/-!
# More fuel

A program is *below* another one if each of its runs that ends is the same run of the other one, so
that the two differ only where the first runs out of fuel. The programs a recursion unrolls to at
growing depths form a chain in this order; along a chain all runs from a state that end are the same
(`chain_unique`), and the outcome of the recursion is the one that some depth has.

* `below_bind`, `below_scan`: sequencing, and a search with more turns.
* `below_of_le`: a chain by its steps.
* `Prog.Ends`: no run of a program runs out; `ends_scanUp`, `ends_scanDown`: a search by a machine
  word, with as many turns as there are words.
-/

namespace CProg.Prog

variable {σ α β : Type}

/-- Where `m` ends, `m'` does the same. -/
def Below (m m' : Prog σ α) : Prop := ∀ ⦃s⦄, m s ≠ .outOfFuel → m' s = m s

/-- A program is below itself. -/
theorem below_refl (m : Prog σ α) : m.Below m := fun _ _ => rfl

/-- More fuel twice is more fuel. -/
theorem Below.trans {m₁ m₂ m₃ : Prog σ α} (h : m₁.Below m₂) (h' : m₂.Below m₃) : m₁.Below m₃ := by
  intro s hs
  have heq := h hs
  exact (h' (heq.trans_ne hs)).trans heq

/-- A run without end is below every other. -/
theorem below_diverge (m : Prog σ α) : (diverge : Prog σ α).Below m := fun _ h => absurd rfl h

/-- **Sequencing.** -/
theorem below_bind {m m' : Prog σ α} {f f' : α → Prog σ β} (hm : m.Below m')
    (hf : ∀ a, (f a).Below (f' a)) : (m >>= f).Below (m' >>= f') := by
  intro s h
  rw [bind_apply] at h
  -- The first half ends, since the whole does.
  have hfirst : m s ≠ .outOfFuel := by
    intro hout
    rw [hout] at h
    exact h rfl
  rw [bind_apply, bind_apply, hm hfirst]
  cases hrun : m s with
  | ok a s₁ =>
    rw [hrun] at h
    exact hf a h
  | exit | undefined | outOfFuel => rfl

/-- A search with more turns. -/
theorem below_scan (test : σ → α → Option Bool) (next : α → α) {fuel fuel' : Nat}
    (h : fuel ≤ fuel') : ∀ a, (scan test next fuel a).Below (scan test next fuel' a) := by
  -- On the smaller number of turns; the larger one has a turn wherever the smaller has.
  induction fuel generalizing fuel' with
  | zero => exact fun a => below_diverge _
  | succ fuel ih =>
    intro a
    obtain ⟨fuel', rfl⟩ : ∃ n, fuel' = n + 1 := ⟨fuel' - 1, by omega⟩
    rw [scan_succ, scan_succ]
    refine below_bind (below_refl _) fun b => ?_
    split
    · exact ih (Nat.le_of_succ_le_succ h) (next a)
    · exact below_refl _

/-! ### Chains -/

variable {p : Nat → Prog σ α}

/-- One more unit of fuel at a time reaches every larger amount. -/
theorem below_of_le (hp : ∀ n, (p n).Below (p (n + 1))) {n n' : Nat} (h : n ≤ n') :
    (p n).Below (p n') := by
  induction h with
  | refl => exact below_refl _
  | step _ ih => exact ih.trans (hp _)

/-- All runs along a chain that end are the same. -/
theorem chain_unique (hp : ∀ n, (p n).Below (p (n + 1))) {n n' : Nat} {s : σ}
    (h : p n s ≠ .outOfFuel) (h' : p n' s ≠ .outOfFuel) : p n s = p n' s := by
  rcases Nat.le_total n n' with hle | hle
  · exact (below_of_le hp hle h).symm
  · exact below_of_le hp hle h'

/-! ### Programs that end -/

/-- No run of `m` runs out of fuel. -/
def Ends (m : Prog σ α) : Prop := ∀ s, m s ≠ .outOfFuel

theorem ends_pure (a : α) : (pure a : Prog σ α).Ends := fun _ => nofun

theorem ends_get : (get : Prog σ σ).Ends := fun _ => nofun

theorem ends_modify (f : σ → σ) : (modify f).Ends := fun _ => nofun

/-- A sequence of programs that end ends. -/
theorem ends_bind {m : Prog σ α} {f : α → Prog σ β} (hm : m.Ends) (hf : ∀ a, (f a).Ends) :
    (m >>= f).Ends := by
  intro s
  rw [bind_apply]
  cases hrun : m s with
  | ok a s₁ => exact hf a s₁
  | outOfFuel => exact absurd hrun (hm s)
  | exit | undefined => nofun

/-- What always stops in a way other than running out ends. -/
theorem ends_of_leaves {m : Prog σ α} {Q : σ → Outcome σ Empty → Prop} (hm : m.Leaves Q)
    (hQ : ∀ s, ¬Q s .outOfFuel) : m.Ends := by
  intro s h
  refine hQ s (hm ?_)
  rw [h]
  rfl

/-- If the second half ends, the sequence runs out in the first. -/
theorem bind_outOfFuel_iff {m : Prog σ α} {f : α → Prog σ β} (hf : ∀ a, (f a).Ends) {s : σ} :
    (m >>= f) s = .outOfFuel ↔ m s = .outOfFuel := by
  refine ⟨fun h => ?_, bind_outOfFuel_of⟩
  rw [bind_apply] at h
  -- Only the first half can run out.
  cases hrun : m s with
  | ok a s₁ =>
    rw [hrun] at h
    exact absurd h (hf a s₁)
  | outOfFuel => rfl
  | exit | undefined =>
    rw [hrun] at h
    cases h

/-- A search ends if its test fails somewhere on the way. -/
theorem ends_scan {test : σ → α → Option Bool} {next : α → α} {fuel : Nat} {a : α}
    (h : ∀ s, ∃ n, n < fuel ∧ test s (next^[n] a) ≠ some true) : (scan test next fuel a).Ends := by
  intro s hout
  obtain ⟨k, hbefore, hend⟩ := scan_stop (x := .outOfFuel) (by rw [hout]; rfl)
  obtain ⟨n, hn, hfails⟩ := h s
  rcases hend with ⟨hx, -⟩ | ⟨-, rfl⟩
  · cases hx
  · exact hfails (hbefore n hn)

section Words

variable {w : Nat} {test : σ → BitVec w → Option Bool} {fuel : Nat}

/-- Counting up `n` times adds `n`, modulo the width. -/
theorem iterate_add_one (a : BitVec w) (n : Nat) :
    (fun a : BitVec w => a + 1)^[n] a = a + BitVec.ofNat w n := by
  induction n with
  | zero => exact (BitVec.add_zero a).symm
  | succ n ih =>
    rw [Function.iterate_succ_apply', ih, BitVec.ofNat_add n 1, ← BitVec.add_assoc]
    rfl

/-- Counting down `n` times subtracts `n`, modulo the width. -/
theorem iterate_sub_one (a : BitVec w) (n : Nat) :
    (fun a : BitVec w => a - 1)^[n] a = a - BitVec.ofNat w n := by
  induction n with
  | zero => exact (BitVec.sub_zero a).symm
  | succ n ih =>
    rw [Function.iterate_succ_apply', ih, BitVec.ofNat_add n 1, ← BitVec.sub_sub]
    rfl

/-- **Counting up** with as many turns as there are words comes past each of them. -/
theorem ends_scanUp (h : ∀ s, ∃ b, test s b ≠ some true) (hfuel : 2 ^ w ≤ fuel) (a : BitVec w) :
    (scan test (fun a => a + 1) fuel a).Ends := by
  refine ends_scan fun s => ?_
  obtain ⟨b, hb⟩ := h s
  refine ⟨(b - a).toNat, Nat.lt_of_lt_of_le (b - a).isLt hfuel, ?_⟩
  rw [iterate_add_one, BitVec.ofNat_toNat, BitVec.setWidth_eq, add_sub_cancel]
  exact hb

/-- **Counting down** does so too. -/
theorem ends_scanDown (h : ∀ s, ∃ b, test s b ≠ some true) (hfuel : 2 ^ w ≤ fuel) (a : BitVec w) :
    (scan test (fun a => a - 1) fuel a).Ends := by
  refine ends_scan fun s => ?_
  obtain ⟨b, hb⟩ := h s
  refine ⟨(a - b).toNat, Nat.lt_of_lt_of_le (a - b).isLt hfuel, ?_⟩
  rw [iterate_sub_one, BitVec.ofNat_toNat, BitVec.setWidth_eq, sub_sub_cancel]
  exact hb

end Words

end CProg.Prog
