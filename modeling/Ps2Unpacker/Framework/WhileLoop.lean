import Mathlib.Tactic.Choose
import Ps2Unpacker.Framework.Fuel

/-!
# Loops that never end

`whileDo cond body turns` is the loop `while (cond) body;` with at most `turns` turns. Where `body`
itself takes a depth, the loop is run with ever more of both, and it has no end if it runs out at
every depth.

* `WhileStep`: one turn that returns; `Forever`: a relation can be followed without end;
  `Forever.step`: a function can then be followed from wherever it leads.
* `whileDo_endless_iff`: a loop has no end exactly if its turns go on forever, or they lead to a
  turn that has no end itself.
-/

namespace CProg

variable {σ : Type}

/-- There is an infinite run of `R` from `s` on. -/
def Forever (R : σ → σ → Prop) (s : σ) : Prop :=
  ∃ f : Nat → σ, f 0 = s ∧ ∀ n, R (f n) (f (n + 1))

/-- An invariant that lets every state go on. -/
theorem forever_of_step {R : σ → σ → Prop} (P : σ → Prop)
    (hstep : ∀ s, P s → ∃ s', R s s' ∧ P s') {s : σ} (hs : P s) : Forever R s := by
  choose! next hnext using hstep
  -- The invariant goes with every state of the run that `next` describes.
  have hall : ∀ n, P (next^[n] s) := by
    intro n
    induction n with
    | zero => exact hs
    | succ n ih =>
      rw [Function.iterate_succ_apply']
      exact (hnext _ ih).2
  refine ⟨fun n => next^[n] s, rfl, fun n => ?_⟩
  dsimp only
  rw [Function.iterate_succ_apply']
  exact (hnext _ (hall n)).1

/-- Where every state has one successor at most, an infinite run comes past all states that can be
reached. -/
theorem Forever.step {R : σ → σ → Prop} (hR : ∀ s a b, R s a → R s b → a = b) {s t : σ}
    (h : Forever R s) (hreach : Relation.ReflTransGen R s t) : ∃ t', R t t' := by
  obtain ⟨f, hstart, hf⟩ := h
  obtain ⟨n, rfl⟩ : ∃ n, f n = t := by
    induction hreach with
    | refl => exact ⟨0, hstart⟩
    | tail _ hlast ih =>
      obtain ⟨n, rfl⟩ := ih
      exact ⟨n + 1, hR _ _ _ (hf n) hlast⟩
  exact ⟨f (n + 1), hf n⟩

namespace Prog

/-- `while (cond) body;`, at most `turns` times. -/
def whileDo (cond : σ → Bool) (body : Prog σ Unit) : Nat → Prog σ Unit
  | 0 => diverge
  | turns + 1 => do
    if cond (← get) then
      body
      whileDo cond body turns
    else pure ()

/-- One turn of the loop, at some depth. -/
def WhileStep (cond : σ → Bool) (body : Nat → Prog σ Unit) (s s' : σ) : Prop :=
  cond s = true ∧ ∃ n, body n s = .ok () s'

variable {cond : σ → Bool} {s s' : σ}

/-- One turn: the condition, then the body and the rest of the loop. -/
theorem whileDo_succ (body : Prog σ Unit) (turns : Nat) :
    whileDo cond body (turns + 1) = get >>= fun s =>
      if cond s then body >>= fun _ => whileDo cond body turns else pure () :=
  rfl

/-- Where the condition holds, the body runs. -/
theorem whileDo_of_true {body : Prog σ Unit} {turns : Nat} (h : cond s = true) :
    whileDo cond body (turns + 1) s = (body >>= fun _ => whileDo cond body turns) s := by
  rw [whileDo_succ, get_bind, if_pos h]

/-- Where it does not, the loop returns. -/
theorem whileDo_of_false {body : Prog σ Unit} {turns : Nat} (h : cond s = false) :
    whileDo cond body (turns + 1) s = .ok () s := by
  rw [whileDo_succ, get_bind, h]
  rfl

/-- More turns, and a body with more fuel, change no run that ends. -/
theorem below_whileDo {body body' : Prog σ Unit} (hbody : body.Below body') {turns turns' : Nat}
    (h : turns ≤ turns') : (whileDo cond body turns).Below (whileDo cond body' turns') := by
  induction turns generalizing turns' with
  | zero => exact below_diverge _
  | succ turns ih =>
    obtain ⟨turns', rfl⟩ : ∃ n, turns' = n + 1 := ⟨turns' - 1, by omega⟩
    rw [whileDo_succ, whileDo_succ]
    refine below_bind (below_refl _) fun s => ?_
    split
    · exact below_bind hbody fun _ => ih (Nat.le_of_succ_le_succ h)
    · exact below_refl _

section Depth

variable {body : Nat → Prog σ Unit} (hbody : ∀ n, (body n).Below (body (n + 1)))
include hbody

/-- A turn returns in one way. -/
theorem WhileStep.unique {a b : σ} (h : WhileStep cond body s a) (h' : WhileStep cond body s b) :
    a = b := by
  obtain ⟨-, n, hn⟩ := h
  obtain ⟨-, n', hn'⟩ := h'
  have hsame := chain_unique hbody (hn.trans_ne nofun) (hn'.trans_ne nofun)
  rw [hn, hn'] at hsame
  cases hsame
  rfl

/-- Before a loop that runs out, a turn makes no difference. -/
theorem whileDo_of_step (h : WhileStep cond body s s') {n turns : Nat}
    (hrest : whileDo cond (body n) turns s' = .outOfFuel) :
    whileDo cond (body n) (turns + 1) s = .outOfFuel := by
  obtain ⟨hcond, m, hm⟩ := h
  rw [whileDo_of_true hcond]
  by_cases hout : body n s = .outOfFuel
  · exact bind_outOfFuel_of hout
  · rw [bind_ok_of ((chain_unique hbody hout (hm.trans_ne nofun)).trans hm)]
    exact hrest

/-- After a turn, a loop without end has none either. -/
theorem endless_of_step (h : WhileStep cond body s s')
    (hloop : ∀ n, whileDo cond (body n) n s = .outOfFuel) (n : Nat) :
    whileDo cond (body n) n s' = .outOfFuel := by
  obtain ⟨hcond, m, hm⟩ := h
  by_contra hends
  -- The rest ends at depth `n`, so at any depth above `n` and `m` the whole loop does.
  have hturn : body (n + m) s = .ok () s' :=
    (below_of_le hbody (Nat.le_add_left m n) (hm.trans_ne nofun)).trans hm
  have hrest : whileDo cond (body (n + m)) (n + m) s' = whileDo cond (body n) n s' :=
    below_whileDo (below_of_le hbody (Nat.le_add_right n m)) (Nat.le_add_right n m) hends
  have hmore : whileDo cond (body (n + m)) (n + m + 1) s = whileDo cond (body n) n s' := by
    rw [whileDo_of_true hcond, bind_ok_of hturn, hrest]
  have hwhole := below_whileDo (hbody (n + m)) (Nat.le_refl _) (hmore.trans_ne hends)
  exact hends (hmore.symm.trans (hwhole.symm.trans (hloop _)))

/-- **A loop has no end** exactly if its turns go on forever, or they lead to a turn that has none.
-/
theorem whileDo_endless_iff : (∀ n, whileDo cond (body n) n s = .outOfFuel) ↔
    Forever (WhileStep cond body) s ∨
      ∃ t, Relation.ReflTransGen (WhileStep cond body) s t ∧ cond t = true ∧
        ∀ n, body n t = .outOfFuel := by
  constructor
  · intro hloop
    refine or_iff_not_imp_right.mpr fun hends => ?_
    refine forever_of_step (fun t => Relation.ReflTransGen (WhileStep cond body) s t ∧
      ∀ n, whileDo cond (body n) n t = .outOfFuel) ?_ ⟨.refl, hloop⟩
    rintro t ⟨hreach, hloop⟩
    -- The condition holds and the turn ends, or the loop would not run out.
    have hcond : cond t = true := by
      by_contra hfalse
      have hone := hloop 1
      rw [whileDo_of_false (Bool.not_eq_true _ ▸ hfalse)] at hone
      cases hone
    obtain ⟨n, hn⟩ : ∃ n, body n t ≠ .outOfFuel := by
      by_contra hall
      push Not at hall
      exact hends ⟨t, hreach, hcond, hall⟩
    -- So the rest of the loop runs out behind every turn that ends.
    have hloops : (body (n + 1) >>= fun _ => whileDo cond (body (n + 1)) n) t = .outOfFuel := by
      rw [← whileDo_of_true hcond]
      exact hloop (n + 1)
    rw [bind_apply, hbody n hn] at hloops
    cases hturn : body n t with
    | ok u t' =>
      have hstep : WhileStep cond body t t' := ⟨hcond, n, hturn⟩
      exact ⟨t', hstep, hreach.tail hstep, endless_of_step hbody hstep hloop⟩
    | outOfFuel => exact absurd hturn hn
    -- An exit or an undefined turn ends the loop.
    | exit | undefined =>
      rw [hturn] at hloops
      cases hloops
  · rintro (⟨f, rfl, hf⟩ | ⟨t, hreach, hcond, hstuck⟩)
    · -- On the turns granted, from any state of the run.
      have hall : ∀ n turns k, whileDo cond (body n) turns (f k) = .outOfFuel := by
        intro n turns
        induction turns with
        | zero => exact fun _ => rfl
        | succ turns ih => exact fun k => whileDo_of_step hbody (hf k) (ih (k + 1))
      exact fun n => hall n n 0
    · -- On the turns that lead there.
      have hall : ∀ n turns, whileDo cond (body n) turns s = .outOfFuel := by
        induction hreach using Relation.ReflTransGen.head_induction_on with
        | refl =>
          intro n turns
          cases turns with
          | zero => rfl
          | succ turns =>
            rw [whileDo_of_true hcond]
            exact bind_outOfFuel_of (hstuck n)
        | head hstep _ ih =>
          intro n turns
          cases turns with
          | zero => rfl
          | succ turns => exact whileDo_of_step hbody hstep (ih n turns)
      exact fun n => hall n n

end Depth

end Prog

end CProg
