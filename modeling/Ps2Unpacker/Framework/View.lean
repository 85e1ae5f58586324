import Ps2Unpacker.Framework.Outcome

/-!
# A program seen through a view

A program over a large state often computes on a small part of it: seen through a projection `view`
of the state, it is a partial function of what is seen. `Prog.SeenAs view m f` says so in both
directions: `m` returns exactly where `f` is defined, with the value and the view that `f` gives.
What `m` does besides is not seen, and neither is the way in which it fails to return.

The partial functions are programs of the monad `StateT τ Option`, and `SeenAs` goes along `pure`
and `bind` (`seenAs_bind`): a program is seen as the composition of what its parts are seen as.
Steps of a system that are seen as steps of a smaller one make runs of the one runs of the other
(`reaches_view_iff`).
-/

namespace CProg

namespace Prog

variable {σ τ α β : Type} {view : σ → τ}

/-- Seen through `view`, the program `m` is the partial function `f`. -/
def SeenAs (view : σ → τ) (m : Prog σ α) (f : StateT τ Option α) : Prop :=
  ∀ s a t, f (view s) = some (a, t) ↔ ∃ s', m s = .ok a s' ∧ view s' = t

/-- A return is seen. -/
theorem SeenAs.of_ok {m : Prog σ α} {f : StateT τ Option α} (h : SeenAs view m f) {s s' : σ} {a : α}
    (hm : m s = .ok a s') : f (view s) = some (a, view s') :=
  (h s a (view s')).mpr ⟨s', hm, rfl⟩

/-- What is seen is a return. -/
theorem SeenAs.returns {m : Prog σ α} {f : StateT τ Option α} (h : SeenAs view m f) {s : σ} {a : α}
    {t : τ} (hf : f (view s) = some (a, t)) : ∃ s', m s = .ok a s' ∧ view s' = t :=
  (h s a t).mp hf

/-- A sequence of partial functions. -/
theorem bind_view (f : StateT τ Option α) (g : α → StateT τ Option β) (t : τ) :
    (f >>= g) t = (f t).bind fun p => g p.1 p.2 := rfl

/-- The empty program is seen as the empty one. -/
theorem seenAs_pure (a : α) : SeenAs view (pure a) (pure a) := by
  intro s b t
  change some (a, view s) = some (b, t) ↔ _
  constructor
  · intro h
    cases h
    exact ⟨s, rfl, rfl⟩
  · rintro ⟨s', h, rfl⟩
    cases h
    rfl

/-- **Sequencing.** -/
theorem seenAs_bind {m : Prog σ α} {f : StateT τ Option α} {k : α → Prog σ β}
    {g : α → StateT τ Option β} (hm : SeenAs view m f) (hk : ∀ a, SeenAs view (k a) (g a)) :
    SeenAs view (m >>= k) (f >>= g) := by
  intro s b t
  rw [bind_view, Option.bind_eq_some_iff]
  constructor
  · rintro ⟨⟨a, t₁⟩, hf, hg⟩
    obtain ⟨s₁, hm₁, rfl⟩ := hm.returns hf
    obtain ⟨s', hk₁, ht⟩ := (hk a).returns hg
    exact ⟨s', (bind_ok_of hm₁).trans hk₁, ht⟩
  · rintro ⟨s', h, rfl⟩
    obtain ⟨a, s₁, hm₁, hk₁⟩ := bind_eq_ok.mp h
    exact ⟨(a, view s₁), hm.of_ok hm₁, (hk a).of_ok hk₁⟩

/-- An assignment, in part to what is seen. -/
theorem seenAs_modify? {g : σ → Option σ} {f : τ → Option τ}
    (h : ∀ s, f (view s) = (g s).map view) :
    SeenAs view (modify? g) fun t => (f t).map fun t' => ((), t') := by
  intro s u t
  change (f (view s)).map _ = _ ↔ _
  rw [h, Option.map_map, Option.map_eq_some_iff]
  constructor
  · rintro ⟨s', hs, heq⟩
    cases heq
    exact ⟨s', modify?_eq_ok.mpr hs, rfl⟩
  · rintro ⟨s', hs, rfl⟩
    exact ⟨s', modify?_eq_ok.mp hs, rfl⟩

/-- An update is seen as one. -/
theorem seenAs_modify {g : σ → σ} {f : τ → τ} (h : ∀ s, f (view s) = view (g s)) :
    SeenAs view (modify g) fun t => some ((), f t) := by
  intro s u t
  change some ((), f (view s)) = _ ↔ _
  rw [h]
  constructor
  · intro heq
    cases heq
    exact ⟨g s, rfl, rfl⟩
  · rintro ⟨s', hs, rfl⟩
    cases hs
    rfl

/-- A step that is not seen. -/
theorem seenAs_unseen {g : σ → σ} (h : ∀ s, view (g s) = view s) :
    SeenAs view (modify g) (pure ()) :=
  seenAs_modify (f := id) fun s => (h s).symm

/-- What goes before, if it is not seen. -/
theorem seenAs_after {m : Prog σ Unit} {k : Unit → Prog σ α} {f : StateT τ Option α}
    (hm : SeenAs view m (pure ())) (hk : SeenAs view (k ()) f) : SeenAs view (m >>= k) f :=
  seenAs_bind (g := fun _ => f) hm fun _ => hk

/-- What comes after, if it is not seen. -/
theorem seenAs_before {m : Prog σ Unit} {k : Unit → Prog σ Unit} {f : StateT τ Option Unit}
    (hm : SeenAs view m f) (hk : SeenAs view (k ()) (pure ())) : SeenAs view (m >>= k) f := by
  have hf : (f >>= fun _ => pure ()) = f := by
    funext t
    rw [bind_view]
    cases f t with
    | none => rfl
    | some p => rfl
  rw [← hf]
  exact seenAs_bind hm fun _ => hk

/-- A program that never returns. -/
theorem seenAs_none {m : Prog σ α} (h : ∀ s a s', m s ≠ .ok a s') :
    SeenAs view m fun _ => none := by
  intro s a t
  constructor
  · exact nofun
  · rintro ⟨s', hm, -⟩
    exact absurd hm (h s a s')

/-- A decision both sides make. -/
theorem seenAs_ite {m m' : Prog σ α} {f f' : StateT τ Option α} {c : Prop} [Decidable c]
    (h : c → SeenAs view m f) (h' : ¬c → SeenAs view m' f') :
    SeenAs view (if c then m else m') (if c then f else f') := by
  split
  · rename_i hc
    exact h hc
  · rename_i hc
    exact h' hc

end Prog

/-! ### Steps seen through a view -/

open Relation in
/-- **Runs.** If the steps of a system are, seen through `view`, the steps of another one, then so
are its runs, from every state with an invariant under which this holds. -/
theorem reaches_view_iff {σ τ : Type} {view : σ → τ} {R : σ → σ → Prop} {R' : τ → τ → Prop}
    {I : σ → Prop} (hI : ∀ s s', R s s' → I s → I s')
    (hstep : ∀ s, I s → ∀ t, R' (view s) t ↔ ∃ s', R s s' ∧ view s' = t) {s : σ} (hs : I s)
    (t : τ) : ReflTransGen R' (view s) t ↔ ∃ s', ReflTransGen R s s' ∧ view s' = t := by
  constructor
  · intro h
    induction h with
    -- Each step of the seen run is the view of a step from the state reached, where the invariant
    -- holds.
    | refl => exact ⟨s, .refl, rfl⟩
    | tail _ hlast ih =>
      obtain ⟨s₁, hrun, rfl⟩ := ih
      have hs₁ : I s₁ := Prog.invariant_reflTransGen hI hrun hs
      obtain ⟨s', hlast', ht⟩ := (hstep s₁ hs₁ _).mp hlast
      exact ⟨s', .tail hrun hlast', ht⟩
  · rintro ⟨s', hrun, rfl⟩
    induction hrun with
    | refl => exact .refl
    | tail hrun hlast ih =>
      have hs₁ := Prog.invariant_reflTransGen hI hrun hs
      exact .tail ih ((hstep _ hs₁ _).mpr ⟨_, hlast, rfl⟩)

end CProg
