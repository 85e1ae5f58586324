import Ps2Unpacker.Framework.Scan

/-!
# Two programs side by side

Two programs *agree* up to a relation `R` between states if, started in related states, they end in
the same way: with the same value or status, and in related states. `Prog.Agrees C R` asks this only
of the runs of the first program that end in a state with the property `C`. For a property that
holds of a state whenever it holds of a later one (`Prog.Reflects`), such as one of everything a
history has recorded, agreement composes along `bind` (`agrees_bind`).

`Built Atom` are the programs composed of given atoms by sequencing. What the atoms of a program
have, and `bind` keeps, the program has: by induction on `Built`.

* `Prog.Steady`: the programs that agree with themselves; a search loop does if its test sees no
  difference (`steady_scan`).
* `Built.reflects`, `Built.steady`: the inductions for composed programs.
-/

namespace CProg

variable {σ α β : Type}

namespace Outcome

/-- The two runs end in the same way, in related states. -/
def Rel (R : σ → σ → Prop) : Outcome σ α → Outcome σ α → Prop
  | ok a s, ok b t => a = b ∧ R s t
  | exit i s, exit j t => i = j ∧ R s t
  | undefined s, undefined t => R s t
  | outOfFuel, outOfFuel => True
  | _, _ => False

/-- The run ends, in a state with the property `C`. -/
def EndsIn (C : σ → Prop) : Outcome σ α → Prop
  | ok _ s => C s
  | exit _ s => C s
  | undefined s => C s
  | outOfFuel => False

instance {C : σ → Prop} [DecidablePred C] (o : Outcome σ α) : Decidable (o.EndsIn C) :=
  match o with
  | ok _ s => inferInstanceAs (Decidable (C s))
  | exit _ s => inferInstanceAs (Decidable (C s))
  | undefined s => inferInstanceAs (Decidable (C s))
  | outOfFuel => inferInstanceAs (Decidable False)

variable {R : σ → σ → Prop}

/-- A return is matched by a return. -/
theorem rel_ok_iff {a : α} {s : σ} {o : Outcome σ α} :
    (ok a s).Rel R o ↔ ∃ t, o = ok a t ∧ R s t := by
  cases o with
  | ok b t =>
    constructor
    · rintro ⟨rfl, h⟩
      exact ⟨t, rfl, h⟩
    · rintro ⟨_, heq, h⟩
      cases heq
      exact ⟨rfl, h⟩
  -- No other outcome is related to a return, and none is one.
  | exit | undefined | outOfFuel => exact iff_of_false id (by simp)

/-- So is an exit by an exit. -/
theorem rel_exit_iff {i : Int} {s : σ} {o : Outcome σ α} :
    (exit i s).Rel R o ↔ ∃ t, o = exit i t ∧ R s t := by
  cases o with
  | exit j t =>
    constructor
    · rintro ⟨rfl, h⟩
      exact ⟨t, rfl, h⟩
    · rintro ⟨_, heq, h⟩
      cases heq
      exact ⟨rfl, h⟩
  | ok | undefined | outOfFuel => exact iff_of_false id (by simp)

/-- An undefined run is matched by an undefined one. -/
theorem rel_undefined_iff {s : σ} {o : Outcome σ α} :
    (undefined s : Outcome σ α).Rel R o ↔ ∃ t, o = undefined t ∧ R s t := by
  cases o with
  | undefined t =>
    constructor
    · exact fun h => ⟨t, rfl, h⟩
    · rintro ⟨_, heq, h⟩
      cases heq
      exact h
  | ok | exit | outOfFuel => exact iff_of_false id (by simp)

end Outcome

namespace Prog

variable {C : σ → Prop} {R : σ → σ → Prop}

/-- Whatever ends with `C` started with `C`. -/
def Reflects (C : σ → Prop) (m : Prog σ α) : Prop := ∀ ⦃s⦄, (m s).EndsIn C → C s

/-- From related states, a run of `m` that ends with `C` is matched by `m'`. -/
def Agrees (C : σ → Prop) (R : σ → σ → Prop) (m m' : Prog σ α) : Prop :=
  ∀ ⦃s t⦄, R s t → (m s).EndsIn C → (m s).Rel R (m' t)

/-! ### Properties of earlier states -/

/-- A program that does nothing ends where it started. -/
theorem reflects_pure (a : α) : (pure a : Prog σ α).Reflects C := fun _ h => h

/-- **Sequencing**: the second half hands `C` back to its start, and the first half to its own. -/
theorem reflects_bind {m : Prog σ α} {f : α → Prog σ β} (hm : m.Reflects C)
    (hf : ∀ a, (f a).Reflects C) : (m >>= f).Reflects C := by
  intro s h
  apply hm
  rw [bind_apply] at h
  cases hrun : m s with
  | ok a s' =>
    rw [hrun] at h
    exact hf a h
  -- Here and below the first half is where the run ends, so `h` speaks of it.
  | exit status s' =>
    rw [hrun] at h
    exact h
  | undefined s' =>
    rw [hrun] at h
    exact h
  | outOfFuel =>
    rw [hrun] at h
    exact h

/-- An update reflects `C` if no state gains `C` by it. -/
theorem reflects_modify {f : σ → σ} (hf : ∀ s, C (f s) → C s) : (modify f).Reflects C :=
  fun s h => hf s h

/-- For a partial update, only the states in which it is defined count. -/
theorem reflects_modify? {f : σ → Option σ} (hf : ∀ s s', f s = some s' → C s' → C s) :
    (modify? f).Reflects C := by
  intro s h
  unfold modify? at h
  split at h
  · rename_i s' hs
    exact hf s s' hs h
  · -- Where the update is undefined, the state stays.
    exact h

theorem reflects_get : (get : Prog σ σ).Reflects C := fun _ h => h

/-- A required value changes nothing, whether or not it is there. -/
theorem reflects_require (o : Option α) : (require o : Prog σ α).Reflects C := by
  intro s h
  unfold require at h
  split at h
  · exact h
  · exact h

theorem reflects_observe (f : σ → Option β) : (observe f).Reflects C :=
  reflects_bind reflects_get fun s => reflects_require (f s)

theorem reflects_exit (status : Int) : (exit status : Prog σ α).Reflects C := fun _ h => h

theorem reflects_diverge : (diverge : Prog σ α).Reflects C := fun _ h => False.elim h

/-! ### Agreement -/

/-- Equal values are returned in related states. -/
theorem agrees_pure (a : α) : (pure a : Prog σ α).Agrees C R (pure a) := fun _ _ h _ => ⟨rfl, h⟩

/-- Sequencing, where more is known of the states between the halves. The first half ends with `C`
where the whole does. -/
theorem rel_bind {m m' : Prog σ α} {f f' : α → Prog σ β} (hm : m.Agrees C R m')
    (hback : ∀ a, (f a).Reflects C) {s t : σ} (hst : R s t)
    (hf : ∀ a s' t', m s = .ok a s' → R s' t' → (f a s').EndsIn C → (f a s').Rel R (f' a t'))
    (h : ((m >>= f) s).EndsIn C) : ((m >>= f) s).Rel R ((m' >>= f') t) := by
  rw [bind_apply] at h
  cases hrun : m s with
  | ok a s' =>
    rw [hrun] at h
    -- `m'` is asked to match `m` only where `m` ends with `C`; the second half reflects it.
    have hrel := hm hst (by rw [hrun]; exact hback a h)
    rw [hrun, Outcome.rel_ok_iff] at hrel
    obtain ⟨t', hrun', hst'⟩ := hrel
    rw [bind_ok_of hrun, bind_ok_of hrun']
    exact hf a s' t' hrun hst' h
  | exit status s' =>
    -- An exit, or undefined behaviour, of the first half is that of the whole.
    rw [hrun] at h
    have hrel := hm hst (by rw [hrun]; exact h)
    rw [hrun, Outcome.rel_exit_iff] at hrel
    obtain ⟨t', hrun', hst'⟩ := hrel
    rw [bind_exit_of hrun, bind_exit_of hrun']
    exact ⟨rfl, hst'⟩
  | undefined s' =>
    rw [hrun] at h
    have hrel := hm hst (by rw [hrun]; exact h)
    rw [hrun, Outcome.rel_undefined_iff] at hrel
    obtain ⟨t', hrun', hst'⟩ := hrel
    rw [bind_apply, bind_apply, hrun, hrun']
    exact hst'
  | outOfFuel =>
    -- A run out of fuel does not end, so nothing has to be matched.
    rw [hrun] at h
    exact False.elim h

/-- **Sequencing.** -/
theorem agrees_bind {m m' : Prog σ α} {f f' : α → Prog σ β} (hm : m.Agrees C R m')
    (hf : ∀ a, (f a).Agrees C R (f' a)) (hback : ∀ a, (f a).Reflects C) :
    (m >>= f).Agrees C R (m' >>= f') :=
  fun _ _ hst h => rel_bind hm hback hst (fun a _ _ _ hst' h' => hf a hst' h') h

theorem agrees_modify {f f' : σ → σ} (hf : ∀ s t, R s t → R (f s) (f' t)) :
    (modify f).Agrees C R (modify f') :=
  fun s t hst _ => ⟨rfl, hf s t hst⟩

/-- Partial updates agree if they are defined in the same states and keep the relation. -/
theorem agrees_modify? {f f' : σ → Option σ}
    (hf : ∀ s t, R s t → Option.Rel R (f s) (f' t)) : (modify? f).Agrees C R (modify? f') := by
  intro s t hst _
  have hrel := hf s t hst
  unfold modify?
  cases hs : f s with
  | none =>
    rw [hs] at hrel
    cases ht : f' t with
    | none => exact hst
    | some t' =>
      rw [ht] at hrel
      cases hrel
  | some s' =>
    rw [hs] at hrel
    cases ht : f' t with
    | none =>
      rw [ht] at hrel
      cases hrel
    | some t' =>
      rw [ht] at hrel
      cases hrel with
      | some h => exact ⟨rfl, h⟩

/-- A reading agrees if it cannot tell related states apart. -/
theorem agrees_observe {f f' : σ → Option β} (hf : ∀ s t, R s t → f s = f' t) :
    (observe f).Agrees C R (observe f') := by
  intro s t hst _
  unfold observe
  rw [get_bind, get_bind, hf s t hst]
  cases f' t with
  | none => exact hst
  | some b => exact ⟨rfl, hst⟩

theorem agrees_exit (status : Int) : (exit status : Prog σ α).Agrees C R (exit status) :=
  fun _ _ hst _ => ⟨rfl, hst⟩

/-- Runs without end agree, as nothing is asked of them. -/
theorem agrees_diverge : (diverge : Prog σ α).Agrees C R diverge := fun _ _ _ _ => trivial

/-- The program agrees with itself, and reflects `C`. -/
structure Steady (C : σ → Prop) (R : σ → σ → Prop) (m : Prog σ α) : Prop where
  reflects : m.Reflects C
  agrees : m.Agrees C R m

theorem steady_pure (a : α) : (pure a : Prog σ α).Steady C R := ⟨reflects_pure a, agrees_pure a⟩

theorem steady_bind {m : Prog σ α} {f : α → Prog σ β} (hm : m.Steady C R)
    (hf : ∀ a, (f a).Steady C R) : (m >>= f).Steady C R where
  reflects := reflects_bind hm.reflects fun a => (hf a).reflects
  agrees := agrees_bind hm.agrees (fun a => (hf a).agrees) fun a => (hf a).reflects

/-- A reading is steady if it cannot tell related states apart. -/
theorem steady_observe {f : σ → Option β} (hf : ∀ s t, R s t → f s = f t) :
    (observe f).Steady C R :=
  ⟨reflects_observe f, agrees_observe hf⟩

theorem steady_exit (status : Int) : (exit status : Prog σ α).Steady C R :=
  ⟨reflects_exit status, agrees_exit status⟩

theorem steady_diverge : (diverge : Prog σ α).Steady C R := ⟨reflects_diverge, agrees_diverge⟩

/-- **A search loop**, if its test sees no difference. -/
theorem steady_scan {test : σ → α → Option Bool} (htest : ∀ s t x, R s t → test s x = test t x)
    (next : α → α) (fuel : Nat) : ∀ x, (scan test next fuel x).Steady C R := by
  -- On the turns left: each is one reading, then the rest or the position reached.
  induction fuel with
  | zero => exact fun _ => steady_diverge
  | succ fuel ih =>
    intro x
    refine steady_bind (steady_observe fun s t hst => htest s t x hst) fun b => ?_
    split
    · exact ih (next x)
    · exact steady_pure x

/-! ### Composed programs -/

/-- The programs composed of atoms. -/
inductive Built (Atom : ∀ α : Type, Prog σ α → Prop) : ∀ α : Type, Prog σ α → Prop where
  | atom {α : Type} {m : Prog σ α} (h : Atom α m) : Built Atom α m
  | pure {α : Type} (a : α) : Built Atom α (pure a)
  | bind {α β : Type} {m : Prog σ α} {f : α → Prog σ β} (first : Built Atom α m)
      (next : ∀ a, Built Atom β (f a)) : Built Atom β (m >>= f)

section Built

variable {Atom : ∀ α : Type, Prog σ α → Prop}

/-- A composed program reflects `C` if its atoms do. -/
theorem Built.reflects (hatom : ∀ α m, Atom α m → Prog.Reflects C m) {m : Prog σ α}
    (h : Built Atom α m) : m.Reflects C := by
  induction h with
  | atom h => exact hatom _ _ h
  | pure a => exact reflects_pure a
  | bind first next ihFirst ihNext => exact reflects_bind ihFirst ihNext

/-- **A composed program** is steady if its atoms are. -/
theorem Built.steady (hatom : ∀ α m, Atom α m → Prog.Steady C R m) {m : Prog σ α}
    (h : Built Atom α m) : m.Steady C R := by
  induction h with
  | atom h => exact hatom _ _ h
  | pure a => exact steady_pure a
  | bind first next ihFirst ihNext => exact steady_bind ihFirst ihNext

end Built

end Prog

end CProg
