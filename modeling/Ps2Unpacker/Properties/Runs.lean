import Ps2Unpacker.Semantics.DelayChain

/-!
# Invariants of runs

A run is any number of calls of the interpreter that return. Two properties of every run on every
memory image, each from one lemma about a call (an induction on `Exec`, so delay slots are covered)
carried along the run.

* `write_tags_sound`: a byte that is not tagged as written has the value the loader gave it, and no
  tag bit is ever cleared.
* `register_zero`: all 128 bits of `r0` stay zero.
-/

namespace Ps2Unpacker

open CProg

/-- Any number of returning calls of the interpreter. -/
abbrev Run (host : Host) : Machine → Machine → Prop := Relation.ReflTransGen (Returns host)

/-! ### The history of a run -/

/-- A call changes memory and tags by its stores alone. -/
theorem Exec.history {host : Host} {s s' : Machine} (h : Exec host s s') :
    ∃ new, Extends new s s' := by
  -- Each call is a fetch and one more stretch of history; a delay slot brings its own.
  induction h with
  | straight fetched hop run =>
    obtain ⟨report, execI, hrun⟩ := run
    obtain ⟨new, -, hfetch⟩ := fetched.history
    obtain ⟨new', -, hbody⟩ := (Op.run_straight hop hrun).history
    exact ⟨_, hfetch.trans hbody⟩
  | skipped fetched hop skip =>
    obtain ⟨new, -, hfetch⟩ := fetched.history
    exact ⟨_, hfetch.congr ⟨rfl, rfl, rfl⟩ ⟨rfl, rfl, rfl⟩⟩
  | @jumped s s₀ s₁ o fetched hop take slot inside ih =>
    obtain ⟨new, -, hfetch⟩ := fetched.history
    obtain ⟨newSlot, hslot⟩ := ih
    obtain ⟨newLeave, -, hleave⟩ := leaveSlot_log s₁
    -- Entering the slot writes registers and branch state only.
    have henter : Extends newSlot s₀ s₁ := hslot.congr ⟨rfl, rfl, rfl⟩ ⟨rfl, rfl, rfl⟩
    exact ⟨_, (hfetch.trans henter).trans hleave⟩

/-- A run only adds to the history, and the additions account for what changed. -/
theorem Run.history {host : Host} {s s' : Machine} (h : Run host s s') :
    ∃ new, Extends new s s' := by
  refine Prog.within_reflTransGen (R := fun s s' => ∃ new, Extends new s s') ?_ ?_ ?_ h
  · exact fun s => ⟨[], .refl s⟩
  · rintro s₁ s₂ s₃ ⟨new, hext⟩ ⟨new', hext'⟩
    exact ⟨_, hext.trans hext'⟩
  · exact fun s s' hstep => hstep.exec.history

/-- A byte that did not become written over a history kept its value. -/
theorem Extends.memory_of_not_written {new : List Event} {s s' : Machine} (h : Extends new s s')
    {m : Fin MEMSIZE} (hm : ¬s'.Written m) : s'.memory m = s.memory m := by
  rw [h.memory]
  apply replay_of_not_hits
  intro hhit
  exact hm ((h.written m).mpr (.inr hhit))

/-- In memory the lookup says whether the byte was written. -/
theorem hasWrite_of_lt (s : Machine) {mem : U32} (h : mem.toNat < MEMSIZE) :
    hasWrite s mem = some (decide (s.Written ⟨mem.toNat, h⟩)) := by
  unfold hasWrite
  rw [dif_pos h]
  rfl

/-- By the byte itself. -/
theorem hasWrite_eq (s : Machine) (m : Fin MEMSIZE) :
    hasWrite s (BitVec.ofNat 32 m.val) = some (decide (s.Written m)) := by
  have hsize := MEMSIZE_eq
  have hn : (BitVec.ofNat 32 m.val).toNat = m.val := by
    rw [BitVec.toNat_ofNat]
    omega
  have hlt : (BitVec.ofNat 32 m.val).toNat < MEMSIZE := by
    rw [hn]
    exact m.isLt
  have hm : (⟨(BitVec.ofNat 32 m.val).toNat, hlt⟩ : Fin MEMSIZE) = m := Fin.ext hn
  rw [hasWrite_of_lt s hlt, hm]

/-- **Write-tag soundness.** In every state a run reaches from a loaded image, a byte for which
`has_write` is false has the value it had when loading finished; and no further run clears a tag
bit. -/
theorem write_tags_sound {host : Host} {memory : Fin MEMSIZE → U8} {pc : U32} {trace : Bool}
    {s : Machine} (h : Run host (Machine.start memory pc trace) s) :
    (∀ m : Fin MEMSIZE, hasWrite s (BitVec.ofNat 32 m.val) = some false →
      s.memory m = memory m) ∧
    ∀ s', Run host s s' → ∀ m, s.tags m ||| s'.tags m = s'.tags m := by
  constructor
  · intro m hm
    rw [hasWrite_eq] at hm
    obtain ⟨new, hext⟩ := h.history
    -- What the run stored is in its history, so a byte no store hit is as it was.
    exact hext.memory_of_not_written (by simpa using hm)
  · intro s' h' m
    obtain ⟨new, hext⟩ := h'.history
    exact hext.tags m

/-- The program `li v0, 5; sb v0, 0x200` after two calls. -/
theorem write_tags_sound_store : ∃ s,
    Run .flat (Machine.start (program 0x100 [0x24020005, 0xa0020200]) 0x100 false) s ∧
    s.memory ⟨0x200, by decide⟩ = 5 ∧
    ∀ m : Fin MEMSIZE, hasWrite s (BitVec.ofNat 32 m.val) = some false →
      s.memory m = program 0x100 [0x24020005, 0xa0020200] m := by
  have hrun := Relation.ReflTransGen.tail (Relation.ReflTransGen.single
    (show Returns .flat (Machine.start (program 0x100 [0x24020005, 0xa0020200]) 0x100 false) _ from
      ⟨0, 1, rfl⟩)) (show Returns .flat _ _ from ⟨0, 1, rfl⟩)
  exact ⟨_, hrun, by decide, (write_tags_sound hrun).1⟩

/-! ### Register zero -/

/-- A call keeps `r0`. -/
theorem Exec.zero {host : Host} {s s' : Machine} (h : Exec host s s') :
    s'.cpu.GPR 0 = s.cpu.GPR 0 := by
  induction h with
  | straight fetched hop run =>
    -- The handlers are quiet: each guards its destination.
    obtain ⟨report, execI, hrun⟩ := run
    rw [(Op.run_straight hop hrun).quiet.zero, fetched.cpu]
    rfl
  | @skipped s s₀ o fetched hop skip =>
    -- A branch that is not taken still sets its link, which is `r31` or a `rd` other than `r0`.
    have hskip : (o.skip s₀.cpu).GPR = (o.link s₀.cpu).GPR := by
      unfold BranchOp.skip
      split <;> rfl
    change (o.skip s₀.cpu).GPR 0 = _
    rw [hskip, (o.link_quiet s₀.cpu).zero, fetched.cpu]
    rfl
  | @jumped s s₀ s₁ o fetched hop take slot inside ih =>
    rw [leaveSlot_cpu]
    change s₁.cpu.GPR 0 = _
    rw [ih]
    change (o.link s₀.cpu).GPR 0 = _
    rw [(o.link_quiet s₀.cpu).zero, fetched.cpu]
    rfl

/-- Every instruction of a chain is dispatched with the `r0` of the start. -/
theorem DelayChain.zero {memory : Fin MEMSIZE → U8} {r last : CpuRegisters}
    {branches : List CpuRegisters} (h : DelayChain memory r branches last) :
    ∀ x ∈ branches ++ [last], x.GPR 0 = r.GPR 0 := by
  -- Between two instructions of a chain only the link of the first one is written.
  induction h with
  -- The chain ends at once, or starts with a branch that was taken.
  | last word stop =>
    intro x hx
    obtain rfl := List.mem_singleton.mp hx
    rfl
  | @branch r last code o branches word take rest ih =>
    intro x hx
    rcases List.mem_cons.mp hx with rfl | hx
    · rfl
    · rw [ih x hx]
      exact (o.link_quiet (r.dispatch code)).zero

/-- **Register zero.** In every state a run reaches from zeroed registers, on any memory contents,
all bits of `r0` are zero, and so they are at the dispatch of every instruction of the next call,
delay slots included. -/
theorem register_zero {host : Host} {memory : Fin MEMSIZE → U8} {pc : U32} {trace : Bool}
    {s : Machine} (h : Run host (Machine.start memory pc trace) s) :
    s.cpu.GPR 0 = 0 ∧
    ∀ branches last, DelayChain s.memory s.cpu branches last →
      ∀ x ∈ branches ++ [last], x.GPR 0 = 0 := by
  have hzero : s.cpu.GPR 0 = 0 :=
    Prog.invariant_reflTransGen (I := fun s => s.cpu.GPR 0 = 0)
      (fun s s' hstep hs => hstep.exec.zero.trans hs) h rfl
  refine ⟨hzero, fun branches last hchain x hx => ?_⟩
  rw [hchain.zero x hx, hzero]

/-- `addiu r0, r0, 5` leaves `r0` alone. -/
theorem register_zero_addiu : ∃ s,
    Run .flat (Machine.start (program 0x100 [0x24000005]) 0x100 false) s ∧
    s.cpu.code = 0x24000005 ∧ s.cpu.GPR 0 = 0 := by
  have hrun := Relation.ReflTransGen.single
    (show Returns .flat (Machine.start (program 0x100 [0x24000005]) 0x100 false) _ from ⟨0, 1, rfl⟩)
  exact ⟨_, hrun, by decide, (register_zero hrun).1⟩

end Ps2Unpacker
