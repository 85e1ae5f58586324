import Ps2Unpacker.Framework.Scan

/-!
# Runs that do not return

A run *stops* if it calls `exit`, does something the language leaves undefined, or runs out of fuel.
How it stops is an outcome that has no value (`Outcome.stop`). `Prog.Leaves Q` says of the runs that
stop what `Prog.Ensures` says of those that return: the start state and the way it stops satisfy
`Q`. A sequence stops in its first half, or in the second after the first has returned
(`bind_stop`), and `Prog.NeverStops` says that every run returns.

* `leaves_bind`, `leaves_bind_left`: `Leaves` along `bind`, for a `Q` that may be moved back over
  what the first half does.
* `scan_stop`: a search that stops has come to a point where its test is undefined, or has used up
  its turns.
* `Prog.Observes`: what only looks at the state, such as a search, leaves it alone however it ends.
-/

namespace CProg

variable {σ α β : Type}

/-- How the run stops, if it does. -/
def Outcome.stop : Outcome σ α → Option (Outcome σ Empty)
  | ok _ _ => none
  | exit status s => some (.exit status s)
  | undefined s => some (.undefined s)
  | outOfFuel => some .outOfFuel

namespace Prog

/-- Every run of `m` that stops relates its start state and the way it stops by `Q`. -/
def Leaves (m : Prog σ α) (Q : σ → Outcome σ Empty → Prop) : Prop :=
  ∀ ⦃s x⦄, (m s).stop = some x → Q s x

/-- Every run of `m` returns. -/
def NeverStops (m : Prog σ α) : Prop := ∀ s, (m s).stop = none

variable {m : Prog σ α} {f : α → Prog σ β} {P : σ → α → σ → Prop}
  {Q : σ → Outcome σ Empty → Prop} {s : σ} {x : Outcome σ Empty}

/-- A sequence stops in one of its halves. -/
theorem bind_stop :
    ((m >>= f) s).stop = some x ↔
      (m s).stop = some x ∨ ∃ a s₁, m s = .ok a s₁ ∧ (f a s₁).stop = some x := by
  rw [bind_apply]
  cases m s with
  | ok a s₁ =>
    constructor
    · exact fun h => .inr ⟨a, s₁, rfl, h⟩
    · rintro (h | ⟨_, _, heq, h⟩)
      · cases h
      · cases heq
        exact h
  -- The continuation does not run, so the first half stops and the whole with it.
  | exit status s₁ => simp [Outcome.stop]
  | undefined s₁ => simp [Outcome.stop]
  | outOfFuel => simp [Outcome.stop]

theorem leaves_pure (a : α) : (pure a : Prog σ α).Leaves Q := nofun

/-- The first half stops, or it returns and the second half stops. -/
theorem leaves_bind (hm : m.Leaves Q) (hreturns : m.Ensures P)
    (hf : ∀ a, (f a).Leaves fun s₁ x => ∀ s, P s a s₁ → Q s x) : (m >>= f).Leaves Q := by
  intro s x h
  rcases bind_stop.mp h with h | ⟨a, s₁, hok, h⟩
  · exact hm h
  · exact hf a h s (hreturns hok)

/-! ### Programs that return -/

/-- A program that never stops has no way to. -/
theorem NeverStops.ne (h : m.NeverStops) : (m s).stop ≠ some x := by
  rw [h s]
  exact nofun

/-- If the second half returns, the sequence stops in the first. -/
theorem leaves_bind_left (hm : m.Leaves Q) (hf : ∀ a, (f a).NeverStops) : (m >>= f).Leaves Q := by
  intro s x h
  rcases bind_stop.mp h with h | ⟨a, s₁, -, h⟩
  · exact hm h
  · exact absurd h (hf a).ne

theorem neverStops_pure (a : α) : (pure a : Prog σ α).NeverStops := fun _ => rfl

theorem neverStops_get : (get : Prog σ σ).NeverStops := fun _ => rfl

theorem neverStops_modify (g : σ → σ) : (modify g).NeverStops := fun _ => rfl

/-- A sequence of programs that never stop never stops. -/
theorem neverStops_bind (hm : m.NeverStops) (hf : ∀ a, (f a).NeverStops) :
    (m >>= f).NeverStops := by
  refine fun s => Option.eq_none_iff_forall_ne_some.mpr fun x h => ?_
  rcases bind_stop.mp h with h | ⟨a, s₁, -, h⟩
  · exact hm.ne h
  · exact (hf a).ne h

/-! ### Partial steps -/

/-- A value that is required stops the run where there is none. -/
theorem require_stop {o : Option α} :
    ((require o : Prog σ α) s).stop = some x ↔ o = none ∧ x = .undefined s := by
  unfold require
  cases o with
  | none => simp [Outcome.stop, eq_comm]
  | some a => simp [Outcome.stop]

/-- A reading stops where there is no value, and goes wrong there. -/
theorem observe_stop {g : σ → Option α} :
    (observe g s).stop = some x ↔ g s = none ∧ x = .undefined s := by
  unfold observe
  rw [get_bind, require_stop]

/-- A partial update stops where it is undefined. -/
theorem modify?_stop {g : σ → Option σ} :
    (modify? g s).stop = some x ↔ g s = none ∧ x = .undefined s := by
  unfold modify?
  cases g s with
  | none => simp [Outcome.stop, eq_comm]
  | some t => simp [Outcome.stop]

/-- **A search** that stops has come to a point where its test is undefined, or it has made all its
turns, and each test succeeded. -/
theorem scan_stop {test : σ → α → Option Bool} {next : α → α} {fuel : Nat} :
    ∀ {a : α}, (scan test next fuel a s).stop = some x → ∃ n,
      (∀ k, k < n → test s (next^[k] a) = some true) ∧
        (x = .undefined s ∧ test s (next^[n] a) = none ∨ x = .outOfFuel ∧ n = fuel) := by
  -- On the turns: each test is undefined, or ends the loop, or leads to the next point.
  induction fuel with
  | zero =>
    intro a h
    cases h
    exact ⟨0, nofun, .inr ⟨rfl, rfl⟩⟩
  | succ fuel ih =>
    intro a h
    rw [scan_succ] at h
    rcases bind_stop.mp h with h | ⟨b, s₁, hb, h⟩
    · obtain ⟨hnone, rfl⟩ := observe_stop.mp h
      exact ⟨0, nofun, .inl ⟨rfl, hnone⟩⟩
    · obtain ⟨hb, rfl⟩ := observe_eq_ok.mp hb
      cases b with
      -- A test that fails ends the loop with a return.
      | false => cases h
      | true =>
        obtain ⟨n, hbefore, hend⟩ := ih h
        -- The first test is the one just made, and the others are those of the rest.
        refine ⟨n + 1, fun k hk => ?_, ?_⟩
        · cases k with
          | zero => exact hb
          | succ k => exact hbefore k (Nat.lt_of_succ_lt_succ hk)
        · exact hend.imp id fun ⟨hx, hn⟩ => ⟨hx, congrArg (· + 1) hn⟩

/-! ### Observations -/

/-- `m` leaves the state alone, and does not exit. -/
structure Observes (m : Prog σ α) : Prop where
  state : m.Ensures fun s _ s' => s' = s
  stops : m.Leaves fun s x => x = .undefined s ∨ x = .outOfFuel

theorem observes_pure (a : α) : (pure a : Prog σ α).Observes where
  state := fun _ _ _ h => (pure_eq_ok.mp h).2.symm
  stops := leaves_pure a

theorem observes_get : (get : Prog σ σ).Observes where
  state := by
    intro s t s' h
    cases h
    rfl
  stops := fun _ _ h => absurd h neverStops_get.ne

/-- A sequence of observations is one: the second half starts in the first one's state. -/
theorem observes_bind (hm : m.Observes) (hf : ∀ a, (f a).Observes) : (m >>= f).Observes where
  state := by
    intro s b s' h
    obtain ⟨a, s₁, hfirst, hrest⟩ := bind_eq_ok.mp h
    exact ((hf a).state hrest).trans (hm.state hfirst)
  stops := leaves_bind hm.stops hm.state fun a s₁ x h s hs => by
    subst hs
    exact (hf a).stops h

theorem observes_scan (test : σ → α → Option Bool) (next : α → α) (fuel : Nat) (a : α) :
    (scan test next fuel a).Observes where
  state := fun _ _ _ h => scan_state h
  stops := fun _ _ h => by
    obtain ⟨n, -, hend⟩ := scan_stop h
    exact hend.imp And.left And.left

end Prog

end CProg
