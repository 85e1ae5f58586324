import Mathlib.Logic.Relation

/-!
# Delay slots

On a processor with delay slots a branch takes effect after the instruction that follows it. There
are two ways to say this.

* One instruction a step: the processor remembers a `pending` target while it executes the next
  instruction (`Sequencer.step`).
* One call a branch: the branch executes the next instruction itself, and then jumps
  (`Sequencer.leap`).

In both, a transfer of control in a delay slot is undefined, as it is for the processors. The two
agree: outside of delay slots the same states are reached (`reaches_iff`), and a run of steps that
ends inside a delay slot is a run of leaps and a branch (`steps_cases`).
-/

namespace Delayed

open Relation

/-- What an instruction asks of the sequencer. -/
inductive Control (Addr : Type) where
  /-- The following instruction is next. -/
  | next
  /-- The following instruction is passed over. -/
  | annul
  /-- The following instruction is next, and then the one at `target`. -/
  | goto (target : Addr)

/-- A processor, up to the order of its instructions. -/
structure Sequencer (σ Addr : Type) where
  /-- Execute the instruction at the program counter, which moves past it. -/
  exec : σ → Option (σ × Control Addr)
  /-- Move the program counter past an instruction. -/
  skip : σ → σ
  /-- Leave the delay slot of a branch. -/
  jump : Addr → σ → σ

/-- A state between two instructions. -/
structure Pipeline (σ Addr : Type) where
  state : σ
  /-- In a delay slot, the target of the branch. -/
  pending : Option Addr

variable {σ Addr : Type}

/-- A state outside of delay slots. -/
def Pipeline.settled (x : σ) : Pipeline σ Addr := ⟨x, none⟩

namespace Sequencer

variable (q : Sequencer σ Addr)

/-- What follows an instruction, given the pending target. -/
def follow (x : σ) : Option Addr → Control Addr → Option (Pipeline σ Addr)
  | none, .next => some ⟨x, none⟩
  | none, .annul => some ⟨q.skip x, none⟩
  | none, .goto target => some ⟨x, some target⟩
  | some target, .next => some ⟨q.jump target x, none⟩
  | some _, _ => none

/-- One instruction. -/
def step (a : Pipeline σ Addr) : Option (Pipeline σ Addr) := do
  let (x, c) ← q.exec a.state
  q.follow x a.pending c

/-- The instruction in a delay slot, and the jump after it. -/
def slot (target : Addr) (x : σ) : Option σ := do
  match ← q.exec x with
  | (y, .next) => some (q.jump target y)
  | _ => none

/-- One instruction and its delay slot. -/
def leap (x : σ) : Option σ := do
  match ← q.exec x with
  | (y, .next) => some y
  | (y, .annul) => some (q.skip y)
  | (y, .goto target) => q.slot target y

def Step (a b : Pipeline σ Addr) : Prop := q.step a = some b

def Leap (x y : σ) : Prop := q.leap x = some y

variable {q} {x y z : σ} {target : Addr}

/-- An instruction that goes on to the next one is a leap of its own. -/
theorem leap_of_next (h : q.exec x = some (y, .next)) : q.leap x = some y := by
  unfold leap
  rw [h]
  rfl

/-- An instruction that annuls its delay slot skips it. -/
theorem leap_of_annul (h : q.exec x = some (y, .annul)) : q.leap x = some (q.skip y) := by
  unfold leap
  rw [h]
  rfl

/-- A jump leaps through its delay slot. -/
theorem leap_of_goto (h : q.exec x = some (y, .goto target)) : q.leap x = q.slot target y := by
  unfold leap
  rw [h]
  rfl

/-- A delay slot is left by an instruction that goes on; any other one makes the jump undefined. -/
theorem slot_eq_some : q.slot target x = some z ↔
    ∃ y, q.exec x = some (y, .next) ∧ z = q.jump target y := by
  unfold slot
  rw [Option.bind_eq_bind, Option.bind_eq_some_iff]
  constructor
  · rintro ⟨⟨y, c⟩, hexec, h⟩
    cases c with
    | next => exact ⟨y, hexec, (Option.some.inj h).symm⟩
    | annul | goto => cases h
  · rintro ⟨y, hexec, rfl⟩
    exact ⟨_, hexec, rfl⟩

/-- Outside of delay slots, a step is a leap or the branch of one. -/
theorem leap_cases (h : q.leap x = some z) :
    q.Step (.settled x) (.settled z) ∨
      ∃ y target, q.exec x = some (y, .goto target) ∧ q.slot target y = some z := by
  unfold leap at h
  rw [Option.bind_eq_bind, Option.bind_eq_some_iff] at h
  obtain ⟨⟨y, c⟩, hexec, h⟩ := h
  -- Only a jump takes a second step.
  cases c with
  | next =>
    cases h
    exact .inl (by unfold Step step Pipeline.settled; rw [hexec]; rfl)
  | annul =>
    cases h
    exact .inl (by unfold Step step Pipeline.settled; rw [hexec]; rfl)
  | goto target => exact .inr ⟨y, target, hexec, h⟩

/-- The branch enters its delay slot. -/
theorem step_goto (h : q.exec x = some (y, .goto target)) :
    q.Step (.settled x) ⟨y, some target⟩ := by
  unfold Step step Pipeline.settled
  rw [h]
  rfl

/-- The instruction in the delay slot leaves it. -/
theorem step_slot : q.Step ⟨y, some target⟩ ⟨z, none⟩ ↔ q.slot target y = some z := by
  unfold Step step slot
  rw [Option.bind_eq_bind, Option.bind_eq_bind, Option.bind_eq_some_iff, Option.bind_eq_some_iff]
  refine exists_congr fun p => and_congr_right fun _ => ?_
  obtain ⟨x, c⟩ := p
  cases c with
  | next => simp [follow]
  | annul | goto => simp [follow]

/-- A leap is one step or two. -/
theorem leap_steps (h : q.Leap x z) : ReflTransGen q.Step (.settled x) (.settled z) := by
  rcases leap_cases h with h | ⟨y, target, hbranch, hslot⟩
  · exact .single h
  · exact .tail (.single (step_goto hbranch)) (step_slot.mpr hslot)

/-- A step from outside of delay slots is a leap, or enters a delay slot. -/
theorem step_settled {b : Pipeline σ Addr} (h : q.Step (.settled x) b) :
    (∃ z, q.Leap x z ∧ b = .settled z) ∨
      ∃ y target, q.exec x = some (y, .goto target) ∧ b = ⟨y, some target⟩ := by
  unfold Step step Pipeline.settled at h
  rw [Option.bind_eq_bind, Option.bind_eq_some_iff] at h
  obtain ⟨⟨y, c⟩, hexec, h⟩ := h
  -- The instruction is the leap, unless it jumps and has its delay slot to come.
  cases c with
  | next =>
    cases h
    exact .inl ⟨y, leap_of_next hexec, rfl⟩
  | annul =>
    cases h
    exact .inl ⟨_, leap_of_annul hexec, rfl⟩
  | goto target =>
    cases h
    exact .inr ⟨y, target, hexec, rfl⟩

/-- A step from a delay slot leaves it. -/
theorem step_pending {b : Pipeline σ Addr} (h : q.Step ⟨y, some target⟩ b) :
    ∃ z, q.slot target y = some z ∧ b = .settled z := by
  -- The instruction in the slot goes on, or the step would not be defined.
  have hb : b.pending = none := by
    unfold Step step at h
    rw [Option.bind_eq_bind, Option.bind_eq_some_iff] at h
    obtain ⟨⟨y, c⟩, -, h⟩ := h
    cases c with
    | next =>
      cases h
      rfl
    | annul | goto => cases h
  obtain ⟨z, pending⟩ := b
  obtain rfl : pending = none := hb
  exact ⟨z, step_slot.mp h, rfl⟩

/-- **A run of steps** from outside of delay slots is a run of leaps, and at its end possibly a
branch whose delay slot is still to come. -/
theorem steps_cases {b : Pipeline σ Addr} (h : ReflTransGen q.Step (.settled x) b) :
    ∃ y, ReflTransGen q.Leap x y ∧
      (b = .settled y ∨ ∃ z target, q.exec y = some (z, .goto target) ∧ b = ⟨z, some target⟩) := by
  -- On the number of steps: the last one starts outside of delay slots or in one.
  induction h with
  | refl => exact ⟨x, .refl, .inl rfl⟩
  | tail _ hlast ih =>
    obtain ⟨y, hy, rfl | ⟨z, target, hbranch, rfl⟩⟩ := ih
    · rcases step_settled hlast with ⟨z, hz, rfl⟩ | ⟨z, target, hbranch, rfl⟩
      · exact ⟨z, .tail hy hz, .inl rfl⟩
      · exact ⟨y, hy, .inr ⟨z, target, hbranch, rfl⟩⟩
    · obtain ⟨w, hslot, rfl⟩ := step_pending hlast
      exact ⟨w, .tail hy ((leap_of_goto hbranch).trans hslot), .inl rfl⟩

/-- **The two agree** outside of delay slots. -/
theorem reaches_iff :
    ReflTransGen q.Step (.settled x) (.settled z) ↔ ReflTransGen q.Leap x z := by
  constructor
  · intro h
    -- At the end no branch is pending, so the last leap is complete.
    obtain ⟨y, hy, hz | ⟨_, _, -, hz⟩⟩ := steps_cases h
    · cases hz
      exact hy
    · cases hz
  · intro h
    induction h with
    | refl => exact .refl
    | tail _ hlast ih => exact ih.trans (leap_steps hlast)

end Sequencer

end Delayed
