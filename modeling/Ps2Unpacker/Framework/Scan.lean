import Mathlib.Algebra.Group.Nat.Defs
import Mathlib.Data.Nat.Find
import Mathlib.Logic.Function.Iterate
import Ps2Unpacker.Framework.Outcome

/-!
# Loops that look for the first hit

`scan test next fuel x` is the loop `for (; test(x); x = next(x));` with at most `fuel` evaluations
of the test. The test only observes the state, and may be undefined for some `x`.

* `scan_eq_ok`: the loop returns exactly the first point of the orbit of `x` at which the test
  fails; it leaves the state alone (`scan_state`, and `scan_scan_state` for a loop that starts where
  another one stopped).
* `scanUp_eq_ok`, `scanDown_eq_ok`: the same for a machine word that counts up or down, in terms of
  the numbers between start and result. The word must not wrap, which a test that does not succeed
  somewhere ahead ensures.
* `IsRun.unique`: the maximal run of numbers with a property around a given one is unique;
  `exists_isRun`: it exists if the property fails somewhere above.
-/

namespace CProg

namespace Prog

variable {σ α β : Type}

/-- A value read off the state; where there is none the run goes wrong. -/
def observe (f : σ → Option β) : Prog σ β := get >>= fun s => require (f s)

/-- `for (; test(x); x = next(x));`. -/
def scan (test : σ → α → Option Bool) (next : α → α) : Nat → α → Prog σ α
  | 0, _ => diverge
  | fuel + 1, x => do
    if ← observe fun s => test s x then scan test next fuel (next x) else pure x

/-- A reading returns where there is a value, and keeps the state. -/
theorem observe_eq_ok {f : σ → Option β} {b : β} {s s' : σ} :
    observe f s = .ok b s' ↔ f s = some b ∧ s' = s := by
  unfold observe
  rw [get_bind, require_eq_ok]

/-- One turn: the test, then the rest of the loop or the position reached. -/
theorem scan_succ (test : σ → α → Option Bool) (next : α → α) (fuel : Nat) (x : α) :
    scan test next (fuel + 1) x =
      observe (fun s => test s x) >>= fun b => if b then scan test next fuel (next x) else pure x :=
  rfl

/-- One turn of the loop. -/
theorem scan_succ_eq_ok {test : σ → α → Option Bool} {next : α → α} {fuel : Nat} {x y : α}
    {s s' : σ} :
    scan test next (fuel + 1) x s = .ok y s' ↔
      test s x = some false ∧ y = x ∧ s' = s ∨
        test s x = some true ∧ scan test next fuel (next x) s = .ok y s' := by
  rw [scan_succ, bind_eq_ok]
  constructor
  · -- The test succeeds and the loop goes on, or it fails and `x` is returned.
    rintro ⟨b, s₁, h₁, h₂⟩
    obtain ⟨hb, rfl⟩ := observe_eq_ok.mp h₁
    cases b with
    | true => exact .inr ⟨hb, h₂⟩
    | false =>
      obtain ⟨rfl, rfl⟩ := pure_eq_ok.mp h₂
      exact .inl ⟨hb, rfl, rfl⟩
  · rintro (⟨hb, rfl, rfl⟩ | ⟨hb, h⟩)
    · exact ⟨false, s', observe_eq_ok.mpr ⟨hb, rfl⟩, rfl⟩
    · exact ⟨true, s, observe_eq_ok.mpr ⟨hb, rfl⟩, h⟩

/-- **The loop** returns the first point of the orbit at which the test fails. -/
theorem scan_eq_ok {test : σ → α → Option Bool} {next : α → α} {fuel : Nat} {x y : α} {s s' : σ} :
    scan test next fuel x s = .ok y s' ↔
      s' = s ∧ ∃ n, n < fuel ∧ y = next^[n] x ∧
        (∀ k, k < n → test s (next^[k] x) = some true) ∧ test s y = some false := by
  induction fuel generalizing x with
  | zero =>
    -- No turn is left, and no number of turns is below zero.
    constructor
    · intro h
      cases h
    · rintro ⟨-, n, hn, -⟩
      exact absurd hn (Nat.not_lt_zero n)
  | succ fuel ih =>
    rw [scan_succ_eq_ok, ih]
    constructor
    · rintro (⟨hstop, rfl, rfl⟩ | ⟨hgo, rfl, n, hn, rfl, hbefore, hstop⟩)
      · exact ⟨rfl, 0, Nat.succ_pos fuel, rfl, by simp, hstop⟩
      · -- One turn more than the loop from `next x`; the first test is the one just made.
        refine ⟨rfl, n + 1, Nat.succ_lt_succ hn, rfl, ?_, hstop⟩
        intro k hk
        cases k with
        | zero => exact hgo
        | succ k => exact hbefore k (Nat.lt_of_succ_lt_succ hk)
    · rintro ⟨rfl, n, hn, rfl, hbefore, hstop⟩
      cases n with
      | zero => exact .inl ⟨hstop, rfl, rfl⟩
      | succ n =>
        exact .inr ⟨hbefore 0 (Nat.succ_pos n), rfl, n, Nat.lt_of_succ_lt_succ hn, rfl,
          fun k hk => hbefore (k + 1) (Nat.succ_lt_succ hk), hstop⟩

/-- A search keeps the state. -/
theorem scan_state {test : σ → α → Option Bool} {next : α → α} {fuel : Nat} {x y : α} {s s' : σ}
    (h : scan test next fuel x s = .ok y s') : s' = s :=
  (scan_eq_ok.mp h).1

/-- So do two searches one after the other. -/
theorem scan_scan_state {test test' : σ → α → Option Bool} {next next' : α → α} {fuel fuel' : Nat}
    {x y : α} {s s' : σ}
    (h : (scan test next fuel x >>= scan test' next' fuel') s = .ok y s') : s' = s := by
  obtain ⟨x₁, s₁, h₁, h₂⟩ := bind_eq_ok.mp h
  rw [scan_state h₂, scan_state h₁]

/-- A loop that tests `g x` for its counter `x` is the loop whose counter is `g x`. -/
theorem scan_semiconj {test : σ → β → Option Bool} {next : α → α} {next' : β → β} {g : α → β}
    (hg : Function.Semiconj g next next') (hinj : Function.Injective g) {fuel : Nat} {x y : α}
    {s s' : σ} :
    scan (fun s x => test s (g x)) next fuel x s = .ok y s' ↔
      scan test next' fuel (g x) s = .ok (g y) s' := by
  have horbit : ∀ n, next'^[n] (g x) = g (next^[n] x) := fun n => (hg.iterate_right n x).symm
  simp only [scan_eq_ok, horbit, hinj.eq_iff]

/-! ### Counting words -/

section Words

variable {w : Nat} {test : σ → BitVec w → Option Bool} {f : Nat → Option Bool} {fuel : Nat}
  {x y : BitVec w} {s s' : σ}

/-- A word with room for another value is not of width zero. -/
theorem toNat_one_of_lt {m : Nat} (hm : 0 < m) (h : m < 2 ^ w) : (1 : BitVec w).toNat = 1 :=
  Nat.mod_eq_of_lt (Nat.lt_of_le_of_lt hm h)

/-- Counting up without wrapping. -/
theorem iterate_succ_toNat (x : BitVec w) (n : Nat) (h : x.toNat + n < 2 ^ w) :
    ((fun x : BitVec w => x + 1)^[n] x).toNat = x.toNat + n := by
  induction n with
  | zero => rfl
  | succ n ih =>
    have hone := toNat_one_of_lt (Nat.succ_pos _) h
    rw [Function.iterate_succ_apply', BitVec.toNat_add, ih (by omega), hone,
      Nat.mod_eq_of_lt (by omega)]
    omega

/-- Counting down without wrapping. -/
theorem iterate_pred_toNat (x : BitVec w) (n : Nat) (h : n ≤ x.toNat) :
    ((fun x : BitVec w => x - 1)^[n] x).toNat = x.toNat - n := by
  induction n with
  | zero => rfl
  | succ n ih =>
    have hx := x.isLt
    have hone := toNat_one_of_lt (Nat.lt_of_lt_of_le (Nat.succ_pos n) h) hx
    rw [Function.iterate_succ_apply', BitVec.toNat_sub, ih (by omega), hone]
    have hsum : 2 ^ w - 1 + (x.toNat - n) = 2 ^ w + (x.toNat - (n + 1)) := by omega
    rw [hsum, Nat.add_mod_left, Nat.mod_eq_of_lt (by omega)]

/-- **Counting up.** -/
theorem scanUp_eq_ok (htest : ∀ x, test s x = f x.toNat)
    (hbar : ∃ b, x.toNat ≤ b ∧ b < 2 ^ w ∧ f b ≠ some true) :
    scan test (fun x => x + 1) fuel x s = .ok y s' ↔
      s' = s ∧ x.toNat ≤ y.toNat ∧ y.toNat - x.toNat < fuel ∧
        (∀ i, x.toNat ≤ i → i < y.toNat → f i = some true) ∧ f y.toNat = some false := by
  obtain ⟨b, hxb, hbw, hb⟩ := hbar
  rw [scan_eq_ok]
  refine and_congr_right fun _ => ?_
  constructor
  · rintro ⟨n, hn, rfl, hbefore, hstop⟩
    -- The loop stops no later than at the barrier, so the word does not wrap.
    have hnb : x.toNat + n ≤ b := by
      by_contra hlt
      have hk := hbefore (b - x.toNat) (by omega)
      rw [htest, iterate_succ_toNat x _ (by omega), Nat.add_sub_cancel' hxb] at hk
      exact hb hk
    have hy := iterate_succ_toNat x n (by omega)
    rw [htest, hy] at hstop
    rw [hy]
    refine ⟨by omega, by omega, fun i hlo hhi => ?_, hstop⟩
    have hi := hbefore (i - x.toNat) (by omega)
    rwa [htest, iterate_succ_toNat x _ (by omega), Nat.add_sub_cancel' hlo] at hi
  · rintro ⟨hle, hfuel, hbefore, hstop⟩
    have hy := y.isLt
    -- Up to `y` the word has not wrapped either.
    have hreach : ∀ k, k ≤ y.toNat - x.toNat →
        ((fun x : BitVec w => x + 1)^[k] x).toNat = x.toNat + k :=
      fun k hk => iterate_succ_toNat x k (by omega)
    refine ⟨y.toNat - x.toNat, hfuel, ?_, fun k hk => ?_, by rw [htest]; exact hstop⟩
    · apply BitVec.eq_of_toNat_eq
      rw [hreach _ (Nat.le_refl _)]
      omega
    · rw [htest, hreach k (by omega)]
      exact hbefore _ (by omega) (by omega)

/-- **Counting down.** -/
theorem scanDown_eq_ok (htest : ∀ x, test s x = f x.toNat) (hzero : f 0 ≠ some true) :
    scan test (fun x => x - 1) fuel x s = .ok y s' ↔
      s' = s ∧ y.toNat ≤ x.toNat ∧ x.toNat - y.toNat < fuel ∧
        (∀ i, y.toNat < i → i ≤ x.toNat → f i = some true) ∧ f y.toNat = some false := by
  rw [scan_eq_ok]
  refine and_congr_right fun _ => ?_
  constructor
  · rintro ⟨n, hn, rfl, hbefore, hstop⟩
    -- The loop stops no later than at zero, where the test does not succeed.
    have hnx : n ≤ x.toNat := by
      by_contra hlt
      have hk := hbefore x.toNat (by omega)
      rw [htest, iterate_pred_toNat x _ (Nat.le_refl _), Nat.sub_self] at hk
      exact hzero hk
    have hy := iterate_pred_toNat x n hnx
    rw [htest, hy] at hstop
    rw [hy]
    refine ⟨by omega, by omega, fun i hlo hhi => ?_, hstop⟩
    have hi := hbefore (x.toNat - i) (by omega)
    have hsub : x.toNat - (x.toNat - i) = i := by omega
    rwa [htest, iterate_pred_toNat x _ (by omega), hsub] at hi
  · rintro ⟨hle, hfuel, hbefore, hstop⟩
    -- Down to `y` the word has not wrapped either.
    have hreach : ∀ k, k ≤ x.toNat - y.toNat →
        ((fun x : BitVec w => x - 1)^[k] x).toNat = x.toNat - k :=
      fun k hk => iterate_pred_toNat x k (by omega)
    refine ⟨x.toNat - y.toNat, hfuel, ?_, fun k hk => ?_, by rw [htest]; exact hstop⟩
    · apply BitVec.eq_of_toNat_eq
      rw [hreach _ (Nat.le_refl _)]
      omega
    · rw [htest, hreach k (by omega)]
      exact hbefore _ (by omega) (by omega)

end Words

end Prog

/-! ### Maximal runs of numbers -/

/-- `[lo, hi]` is the maximal run of numbers with the property `P` that contains `x`. -/
structure IsRun (P : Nat → Prop) (lo x hi : Nat) : Prop where
  lo_le : lo ≤ x
  le_hi : x ≤ hi
  all : ∀ i, lo ≤ i → i ≤ hi → P i
  /-- The run cannot be extended downwards. -/
  below : 0 < lo → ¬P (lo - 1)
  /-- The run cannot be extended upwards. -/
  above : ¬P (hi + 1)

namespace IsRun

variable {P : Nat → Prop} {lo x hi lo' hi' : Nat}

/-- A number lies in one maximal run at most. -/
theorem unique (h : IsRun P lo x hi) (h' : IsRun P lo' x hi') : lo = lo' ∧ hi = hi' := by
  -- Both runs contain `x`, so one that reached further would contain the other's barrier.
  have hlo : ∀ {lo hi lo' hi'}, IsRun P lo x hi → IsRun P lo' x hi' → lo ≤ lo' := by
    intro lo hi lo' hi' h h'
    by_contra hlt
    have := h.lo_le
    have := h'.le_hi
    exact h.below (by omega) (h'.all _ (by omega) (by omega))
  -- At the upper end, the barrier is the one behind the run.
  have hhi : ∀ {lo hi lo' hi'}, IsRun P lo x hi → IsRun P lo' x hi' → hi ≤ hi' := by
    intro lo hi lo' hi' h h'
    by_contra hlt
    have := h.lo_le
    have := h'.le_hi
    exact h'.above (h.all _ (by omega) (by omega))
  exact ⟨Nat.le_antisymm (hlo h h') (hlo h' h), Nat.le_antisymm (hhi h h') (hhi h' h)⟩

end IsRun

/-- The points where `P` first fails below and above `x` bound a run. -/
theorem exists_isRun {P : Nat → Prop} {x b : Nat} (hx : P x) (hb : ∀ i, b ≤ i → ¬P i) :
    ∃ lo hi, IsRun P lo x hi := by
  classical
  -- The lower end is the least start of a stretch of `P` up to `x`, the upper end lies just below
  -- the first failure above `x`.
  have hlo : ∃ lo, lo ≤ x ∧ ∀ i, lo ≤ i → i ≤ x → P i :=
    ⟨x, Nat.le_refl x, fun i h₁ h₂ => by rwa [Nat.le_antisymm h₂ h₁]⟩
  have hhi : ∃ d, ¬P (x + d + 1) := ⟨b, hb _ (by omega)⟩
  have hfound := (Nat.find_spec hlo).1
  refine ⟨Nat.find hlo, x + Nat.find hhi, hfound, by omega, ?_, ?_, Nat.find_spec hhi⟩
  · intro i h₁ h₂
    rcases Nat.lt_trichotomy i x with hlt | rfl | hlt
    · exact (Nat.find_spec hlo).2 i h₁ (Nat.le_of_lt hlt)
    · exact hx
    · have hP := Nat.find_min hhi (m := i - x - 1) (by omega)
      rw [not_not] at hP
      rwa [show x + (i - x - 1) + 1 = i by omega] at hP
  · intro hpos hP
    -- With `P` just below it, the lower end would not be the least.
    refine Nat.find_min hlo (m := Nat.find hlo - 1) (by omega) ⟨?_, ?_⟩
    · omega
    · intro i h₁ h₂
      rcases Nat.eq_or_lt_of_le h₁ with rfl | hlt
      · exact hP
      · exact (Nat.find_spec hlo).2 i (by omega) h₂

/-- The first number from `lo` on with a property. -/
theorem exists_first {P : Nat → Prop} {lo a : Nat} (hlo : lo ≤ a) (ha : P a) :
    ∃ z, lo ≤ z ∧ z ≤ a ∧ (∀ i, lo ≤ i → i < z → ¬P i) ∧ P z := by
  classical
  have h : ∃ z, lo ≤ z ∧ P z := ⟨a, hlo, ha⟩
  refine ⟨Nat.find h, (Nat.find_spec h).1, Nat.find_min' h ⟨hlo, ha⟩, fun i hi hlt hP => ?_,
    (Nat.find_spec h).2⟩
  exact Nat.find_min h hlt ⟨hi, hP⟩

/-- One more than the last number below `hi` with a property. -/
theorem exists_last {P : Nat → Prop} {hi a : Nat} (hhi : a < hi) (ha : P a) :
    ∃ y, a < y ∧ y ≤ hi ∧ (∀ i, y ≤ i → i < hi → ¬P i) ∧ P (y - 1) := by
  -- The distance to `hi` is the first one with the property.
  obtain ⟨d, -, hda, hbefore, hd⟩ := @exists_first (fun d => P (hi - 1 - d)) 0 (hi - 1 - a)
    (Nat.zero_le _) (by rwa [show hi - 1 - (hi - 1 - a) = a by omega])
  refine ⟨hi - d, by omega, by omega, fun i hlo hlt hP => ?_, ?_⟩
  · refine hbefore (hi - 1 - i) (Nat.zero_le _) (by omega) ?_
    rwa [show hi - 1 - (hi - 1 - i) = i by omega]
  · rwa [show hi - d - 1 = hi - 1 - d by omega]

end CProg
