import Ps2Unpacker.Framework.Outcome

/-!
# Programs that end

A run *halts* if it returns or exits: it neither goes wrong nor runs out of fuel. `Prog.Halts` says
so of all runs of a program.

A recursive procedure that calls itself at most once, in a state that is a function of the state it
was called in, is described by that function `next`. `Calls next s ts` lists the calls `ts` nested
in a call from `s`, outermost first. There is such a list exactly where `next` cannot be followed
forever (`exists_calls`), and then more depth makes no difference (`Calls.stable`).
-/

namespace CProg

variable {σ α β : Type}

/-- The run returns or exits. -/
def Outcome.Halted : Outcome σ α → Prop
  | ok _ _ => True
  | exit _ _ => True
  | _ => False

namespace Prog

/-- Every run of `m` returns or exits. -/
def Halts (m : Prog σ α) : Prop := ∀ s, (m s).Halted

/-- An exit halts. -/
theorem halts_exit (status : Int) : (exit status : Prog σ α).Halts := fun _ => trivial

end Prog

/-! ### Nested calls -/

/-- The calls nested in a call from `s` are those from the states `ts`, outermost first. -/
inductive Calls (next : σ → Option σ) : σ → List σ → Prop where
  | leaf {s : σ} (stop : next s = none) : Calls next s []
  | call {s t : σ} {ts : List σ} (step : next s = some t) (rest : Calls next t ts) :
      Calls next s (t :: ts)

section Calls

variable {next : σ → Option σ} {s : σ} {ts : List σ}

/-- Where every chain of calls is finite, the nested calls can be listed. -/
theorem exists_calls (h : Acc (fun t s => next s = some t) s) : ∃ ts, Calls next s ts := by
  induction h with
  | intro s _ ih =>
    cases hs : next s with
    | none => exact ⟨[], .leaf hs⟩
    | some t =>
      obtain ⟨ts, hts⟩ := ih t hs
      exact ⟨t :: ts, .call hs hts⟩

variable {run : Nat → Prog σ α}

/-- **More depth** than the nested calls need makes no difference. -/
theorem Calls.stable (h : Calls next s ts)
    (hleaf : ∀ m n s, next s = none → run (m + 1) s = run (n + 1) s)
    (hcall : ∀ m n s t, next s = some t → run m t = run n t → run (m + 1) s = run (n + 1) s) :
    ∀ m n, ts.length < m → ts.length < n → run m s = run n s := by
  -- On the nested calls: each level needs one unit of depth more than those inside it.
  induction h with
  | leaf stop =>
    intro m n hm hn
    obtain ⟨m, rfl⟩ := Nat.exists_eq_succ_of_ne_zero (Nat.ne_of_gt hm)
    obtain ⟨n, rfl⟩ := Nat.exists_eq_succ_of_ne_zero (Nat.ne_of_gt hn)
    exact hleaf m n _ stop
  | @call s t ts step rest ih =>
    intro m n hm hn
    rw [List.length_cons] at hm hn
    obtain ⟨m, rfl⟩ := Nat.exists_eq_succ_of_ne_zero (show m ≠ 0 by omega)
    obtain ⟨n, rfl⟩ := Nat.exists_eq_succ_of_ne_zero (show n ≠ 0 by omega)
    exact hcall m n s t step (ih m n (by omega) (by omega))

end Calls

end CProg
