import Mathlib.Logic.Relation

/-!
# Programs that return, exit, go wrong or run out of fuel

A C program with global state is a function from the state to an `Outcome`: it returns a value and
a new state, it leaves through `exit`, it does something C gives no meaning to, or the recursion
depth the model grants it is used up. `Prog` is the state monad over `Outcome`.

The file develops the two notions the proofs about such programs use.

* `Prog.Ensures Q` says what a *returning* run establishes: its start state, value and end state
  satisfy `Q`. Nothing is said about a run that exits, goes wrong or runs out of fuel.
* `Prog.Within R` is the special case of a relation between start and end state. For a preorder `R`
  it composes along `bind` with no intermediate assertion (`within_bind`), which is how a frame
  condition is carried through a large interpreter, and along any number of calls
  (`within_reflTransGen`).
* `Prog.NeverExits` says that no run leaves through `exit`; it composes along `bind` too.

Recursion is bounded: a recursive function takes the depth as a natural number and is `outOfFuel` at
zero. "It returns" is then an existential over the depth, and "it diverges" says that every depth
runs out.
-/

namespace CProg

/-- How a run ends. -/
inductive Outcome (σ α : Type) where
  /-- The run returns `a` and leaves the state `s`. -/
  | ok (a : α) (s : σ)
  /-- The run calls `exit` with a status, in the state `s`. -/
  | exit (status : Int) (s : σ)
  /-- The run does something the language leaves undefined, in the state `s`. -/
  | undefined (s : σ)
  /-- The recursion depth is used up. -/
  | outOfFuel

/-- The run returns, and what it leaves passes the check. -/
def Outcome.returnsWith {σ α : Type} (check : α → σ → Bool) : Outcome σ α → Bool
  | .ok a s => check a s
  | _ => false

/-- A checked return is a return. -/
theorem Outcome.returnsWith_iff {σ α : Type} {check : α → σ → Bool} {o : Outcome σ α} :
    o.returnsWith check = true ↔ ∃ a s, o = .ok a s ∧ check a s = true := by
  cases o with
  | ok a s =>
    constructor
    · exact fun h => ⟨a, s, rfl, h⟩
    · rintro ⟨_, _, heq, h⟩
      cases heq
      exact h
  -- No other outcome passes a check of returns.
  | exit | undefined | outOfFuel =>
    constructor
    · exact nofun
    · rintro ⟨_, _, heq, -⟩
      cases heq

/-- The run exits, and what it leaves passes the check. -/
def Outcome.exitsWith {σ α : Type} (check : Int → σ → Bool) : Outcome σ α → Bool
  | .exit status s => check status s
  | _ => false

/-- A checked exit is an exit. -/
theorem Outcome.exitsWith_iff {σ α : Type} {check : Int → σ → Bool} {o : Outcome σ α} :
    o.exitsWith check = true ↔ ∃ status s, o = .exit status s ∧ check status s = true := by
  cases o with
  | exit status s =>
    constructor
    · exact fun h => ⟨status, s, rfl, h⟩
    · rintro ⟨_, _, heq, h⟩
      cases heq
      exact h
  | ok | undefined | outOfFuel =>
    constructor
    · exact nofun
    · rintro ⟨_, _, heq, -⟩
      cases heq

/-- A program over the global state `σ`. -/
def Prog (σ α : Type) : Type := σ → Outcome σ α

namespace Prog

variable {σ α β : Type}

/-- Sequencing: the continuation runs only after a return. -/
def bind (m : Prog σ α) (f : α → Prog σ β) : Prog σ β := fun s =>
  match m s with
  | .ok a s' => f a s'
  | .exit status s' => .exit status s'
  | .undefined s' => .undefined s'
  | .outOfFuel => .outOfFuel

instance : Monad (Prog σ) where
  pure a := fun s => .ok a s
  bind := bind

/-- The current state. -/
def get : Prog σ σ := fun s => .ok s s

/-- Replace the state by `f` of it. -/
def modify (f : σ → σ) : Prog σ Unit := fun s => .ok () (f s)

/-- Replace the state by `f` of it where `f` is defined; elsewhere the run goes wrong. -/
def modify? (f : σ → Option σ) : Prog σ Unit := fun s =>
  match f s with
  | some s' => .ok () s'
  | none => .undefined s

/-- The value, where there is one; elsewhere the run goes wrong. -/
def require (o : Option α) : Prog σ α := fun s =>
  match o with
  | some a => .ok a s
  | none => .undefined s

/-- The library function `exit`. -/
def exit (status : Int) : Prog σ α := fun s => .exit status s

/-- The call that no recursion depth is left for. -/
def diverge : Prog σ α := fun _ => .outOfFuel

/-! ### Evaluation -/

@[simp] theorem pure_apply (a : α) (s : σ) : (pure a : Prog σ α) s = .ok a s := rfl

/-- The outcomes of a sequence. -/
theorem bind_apply (m : Prog σ α) (f : α → Prog σ β) (s : σ) :
    (m >>= f) s = match m s with
      | .ok a s' => f a s'
      | .exit status s' => .exit status s'
      | .undefined s' => .undefined s'
      | .outOfFuel => .outOfFuel := rfl

@[simp] theorem get_bind (f : σ → Prog σ β) (s : σ) : (get >>= f) s = f s s := rfl

@[simp] theorem modify_apply (g : σ → σ) (s : σ) : modify g s = .ok () (g s) := rfl

@[simp] theorem modify_bind (g : σ → σ) (f : Unit → Prog σ β) (s : σ) :
    (modify g >>= f) s = f () (g s) := rfl

@[simp] theorem exit_apply (status : Int) (s : σ) :
    (exit status : Prog σ α) s = .exit status s := rfl

@[simp] theorem diverge_apply (s : σ) : (diverge : Prog σ α) s = .outOfFuel := rfl

@[simp] theorem require_some_bind (a : α) (f : α → Prog σ β) (s : σ) :
    (require (some a) >>= f) s = f a s := rfl

/-- After a return, the continuation runs. -/
theorem bind_ok_of {m : Prog σ α} {f : α → Prog σ β} {s s' : σ} {a : α} (h : m s = .ok a s') :
    (m >>= f) s = f a s' := by
  rw [bind_apply, h]

/-- An exit ends the sequence. -/
theorem bind_exit_of {m : Prog σ α} {f : α → Prog σ β} {s s' : σ} {status : Int}
    (h : m s = .exit status s') : (m >>= f) s = .exit status s' := by
  rw [bind_apply, h]

/-- So does running out of fuel. -/
theorem bind_outOfFuel_of {m : Prog σ α} {f : α → Prog σ β} {s : σ} (h : m s = .outOfFuel) :
    (m >>= f) s = .outOfFuel := by
  rw [bind_apply, h]

/-- A sequence returns exactly when both halves do. -/
theorem bind_eq_ok {m : Prog σ α} {f : α → Prog σ β} {s s'' : σ} {b : β} :
    (m >>= f) s = .ok b s'' ↔ ∃ a s', m s = .ok a s' ∧ f a s' = .ok b s'' := by
  rw [bind_apply]
  -- The continuation runs only after the first outcome; the others are those of the whole.
  cases h : m s with
  | ok a s' =>
    constructor
    · intro h'
      exact ⟨a, s', rfl, h'⟩
    · rintro ⟨a', s₁, heq, h'⟩
      obtain ⟨rfl, rfl⟩ : a = a' ∧ s' = s₁ := by simpa using heq
      exact h'
  | exit status s' => simp
  | undefined s' => simp
  | outOfFuel => simp

@[simp] theorem pure_eq_ok {a b : α} {s s' : σ} :
    (pure a : Prog σ α) s = .ok b s' ↔ a = b ∧ s = s' := by
  rw [pure_apply]
  simp

/-- A partial update returns where it is defined. -/
theorem modify?_eq_ok {g : σ → Option σ} {s s' : σ} {u : Unit} :
    modify? g s = .ok u s' ↔ g s = some s' := by
  unfold modify?
  cases g s with
  | none => simp
  | some t => simp

@[simp] theorem require_eq_ok {o : Option α} {s s' : σ} {a : α} :
    (require o : Prog σ α) s = .ok a s' ↔ o = some a ∧ s' = s := by
  unfold require
  cases o with
  | none => simp
  | some b => simp [eq_comm]

/-! ### What a returning run establishes -/

/-- Every returning run of `m` relates start state, value and end state by `Q`. -/
def Ensures (m : Prog σ α) (Q : σ → α → σ → Prop) : Prop :=
  ∀ ⦃s a s'⦄, m s = .ok a s' → Q s a s'

/-- What follows from the postcondition is a postcondition. -/
theorem ensures_mono {m : Prog σ α} {P Q : σ → α → σ → Prop} (h : m.Ensures P)
    (hPQ : ∀ s a s', P s a s' → Q s a s') : m.Ensures Q :=
  fun s a s' hm => hPQ s a s' (h hm)

/-- **Sequencing**: the second half may use what the first one established. -/
theorem ensures_bind {m : Prog σ α} {f : α → Prog σ β} {P : σ → α → σ → Prop}
    {Q : σ → β → σ → Prop} (hm : m.Ensures P)
    (hf : ∀ a, (f a).Ensures fun s' b s'' => ∀ s, P s a s' → Q s b s'') :
    (m >>= f).Ensures Q := by
  intro s b s'' h
  obtain ⟨a, s', h₁, h₂⟩ := bind_eq_ok.mp h
  exact hf a h₂ s (hm h₁)

/-! ### Frame conditions -/

/-- Every returning run of `m` relates its start and end state by `R`. -/
def Within (m : Prog σ α) (R : σ → σ → Prop) : Prop :=
  m.Ensures fun s _ s' => R s s'

variable {R : σ → σ → Prop}

theorem within_pure (hR : ∀ s, R s s) (a : α) : (pure a : Prog σ α).Within R := by
  intro s b s' h
  obtain ⟨-, rfl⟩ := pure_eq_ok.mp h
  exact hR s

theorem within_get (hR : ∀ s, R s s) : (get : Prog σ σ).Within R := by
  intro s b s' h
  obtain ⟨-, rfl⟩ : s = b ∧ s = s' := by simpa [get] using h
  exact hR s

theorem within_bind (hR : ∀ ⦃a b c⦄, R a b → R b c → R a c) {m : Prog σ α} {f : α → Prog σ β}
    (hm : m.Within R) (hf : ∀ a, (f a).Within R) : (m >>= f).Within R :=
  ensures_bind hm fun a _ _ _ h₂ _ h₁ => hR h₁ (hf a h₂)

/-- An update stays within any relation that it satisfies. -/
theorem within_modify {g : σ → σ} (hg : ∀ s, R s (g s)) : (modify g).Within R := by
  intro s u s' h
  obtain rfl : g s = s' := by simpa using h
  exact hg s

theorem within_diverge : (diverge : Prog σ α).Within R := by
  intro s a s' h
  simp at h

/-- What one call keeps, any number of calls keeps. -/
theorem within_reflTransGen {step : σ → σ → Prop} (hr : ∀ s, R s s)
    (ht : ∀ ⦃a b c⦄, R a b → R b c → R a c)
    (hstep : ∀ s s', step s s' → R s s') {s s' : σ} (h : Relation.ReflTransGen step s s') :
    R s s' := by
  -- On the number of calls: the relation of the earlier ones composes with that of the last.
  induction h with
  | refl => exact hr s
  | tail _ hlast ih => exact ht ih (hstep _ _ hlast)

/-- An invariant of the single call is an invariant of every reachable state. -/
theorem invariant_reflTransGen {step : σ → σ → Prop} {I : σ → Prop}
    (hstep : ∀ s s', step s s' → I s → I s') {s s' : σ} (h : Relation.ReflTransGen step s s')
    (hs : I s) : I s' := by
  induction h with
  | refl => exact hs
  | tail _ hlast ih => exact hstep _ _ hlast ih

/-! ### Programs without `exit` -/

/-- No run of `m` calls `exit`. -/
def NeverExits (m : Prog σ α) : Prop := ∀ s status s', m s ≠ .exit status s'

theorem neverExits_pure (a : α) : (pure a : Prog σ α).NeverExits := by
  intro s status s' h
  cases h

/-- A sequence exits only where one of its halves does. -/
theorem neverExits_bind {m : Prog σ α} {f : α → Prog σ β} (hm : m.NeverExits)
    (hf : ∀ a, (f a).NeverExits) : (m >>= f).NeverExits := by
  intro s status s' h
  rw [bind_apply] at h
  split at h
  -- The exit comes from the continuation or from the first half.
  · exact hf _ _ _ _ h
  · rename_i status' s₁ hrun
    exact hm _ _ _ hrun
  -- The other two outcomes of the first half are outcomes of the whole.
  · cases h
  · cases h

theorem neverExits_modify? (g : σ → Option σ) : (modify? g).NeverExits := by
  intro s status s' h
  unfold modify? at h
  split at h <;> cases h

theorem neverExits_require (o : Option α) : (require o : Prog σ α).NeverExits := by
  intro s status s' h
  unfold require at h
  split at h <;> cases h

end Prog

end CProg
