import Ps2Unpacker.Semantics.Exec

/-!
# The fatal-error path

An access to an address no window accepts, and an unknown opcode, are reported by `dumpasm`, which
reads the seventeen words around the instruction through the same accessors, and then by `exit(-1)`.
If one of these words cannot be read either, the report is itself an error that is reported, from
the same program counter.

* `fatal_of_legible`: where all sixty-eight bytes can be read, the report is printed and the program
  exits.
* `fatal_of_not_legible`: elsewhere no depth of the recursion is enough.
* `legible_iff`: the two cases in terms of the program counter.
* `fatal_reaches_exit_iff`: the fatal path reaches `exit(-1)` exactly from a legible program
  counter.
* `not_fatal_reaches_exit`: without the condition this fails.
-/

namespace Ps2Unpacker

open CProg Lanes

/-! ### What the report reads -/

/-- All bytes `dumpasm(pc - 4)` reads can be read. -/
def Legible (pc : U32) : Prop :=
  ∀ i ∈ dumpOffsets, ∀ j, j < 4 → Accepted (pc - 4 + i + BitVec.ofNat 32 j)

/-- The bytes the report reads are those from 36 below the program counter to 31 above it. -/
theorem legible_iff_bytes {pc : U32} :
    Legible pc ↔ ∀ t, t < 68 → Accepted (pc - 36 + BitVec.ofNat 32 t) := by
  -- Byte `j` of word `k` is byte `4 * k + j` of the report.
  have haddr : ∀ k j, pc - 4 + (BitVec.ofNat 32 (4 * k) - 32) + BitVec.ofNat 32 j =
      pc - 36 + BitVec.ofNat 32 (4 * k + j) := by
    intro k j
    rw [BitVec.ofNat_add]
    generalize BitVec.ofNat 32 (4 * k) = x
    generalize BitVec.ofNat 32 j = y
    bv_omega
  unfold Legible dumpOffsets
  simp only [List.mem_map, List.mem_range, forall_exists_index, and_imp, forall_apply_eq_imp_iff₂,
    haddr]
  constructor
  · intro h t ht
    have hdiv : 4 * (t / 4) + t % 4 = t := Nat.div_add_mod t 4
    rw [← hdiv]
    exact h (t / 4) (by omega) (t % 4) (by omega)
  · intro h k hk j hj
    exact h (4 * k + j) (by omega)

/-- **The legible program counters.** The report stays inside one of the two windows. -/
theorem legible_iff {pc : U32} : Legible pc ↔
    36 ≤ pc.toNat ∧ pc.toNat ≤ 0x01ffffe0 ∨ 0x08000024 ≤ pc.toNat ∧ pc.toNat ≤ 0x09ffffe0 := by
  have hpc := pc.isLt
  -- The addresses wrap, which matters below the first 36 bytes.
  have hbyte : ∀ t, t < 68 →
      (pc - 36 + BitVec.ofNat 32 t).toNat = (pc.toNat + (2 ^ 32 - 36) + t) % 2 ^ 32 := by
    intro t ht
    have h36 : (36 : U32).toNat = 36 := rfl
    rw [BitVec.toNat_add, BitVec.toNat_sub, BitVec.toNat_ofNat, h36]
    omega
  rw [legible_iff_bytes]
  constructor
  · intro h
    -- The first and the last byte lie in the same window, since the gaps are wider than the report.
    have hfirst := accepted_iff.mp (h 0 (by decide))
    have hlast := accepted_iff.mp (h 67 (by decide))
    rw [hbyte 0 (by decide)] at hfirst
    rw [hbyte 67 (by decide)] at hlast
    omega
  · intro h t ht
    rw [accepted_iff, hbyte t ht]
    omega

/-! ### Reading for the report -/

section Report

variable {report : U32 → M Unit}

/-- The first byte that is not accepted is reported. -/
theorem readFrom_of_not_accepted {w : Nat} (mem : U32) (n : Nat) :
    ∀ (k : Nat) (value : BitVec w) (s : Machine),
      (∃ j, k ≤ j ∧ j < k + n ∧ ¬Accepted (mem + BitVec.ofNat 32 j)) →
      ∃ msg s', s'.cpu = s.cpu ∧ readFrom report mem k n value s = fatal report msg s' := by
  -- On the bytes that are left.
  induction n with
  | zero =>
    rintro k value s ⟨j, hlo, hhi, -⟩
    omega
  | succ n ih =>
    rintro k value s ⟨j, hlo, hhi, hj⟩
    cases hk : foldAddr (mem + BitVec.ofNat 32 k) with
    | none =>
      -- This is the first one, and its read is the fatal path.
      obtain ⟨msg, hread⟩ := @memRead8_of_none report s _ hk
      exact ⟨msg, s, rfl, bind_of_fatal hread⟩
    | some m =>
      -- This one is read, which keeps the registers; the bad one comes later.
      have hread : memRead8 report (mem + BitVec.ofNat 32 k) s = .ok (s.memory m) (s.tag 1 m) :=
        memRead8_eq_ok.mpr ⟨m, hk, rfl, rfl⟩
      have hne : j ≠ k := by
        rintro rfl
        rw [not_accepted_iff, hk] at hj
        cases hj
      obtain ⟨msg, s', hcpu, hrest⟩ := ih (k + 1) (setLane k (s.memory m) value) (s.tag 1 m)
        ⟨j, by omega, by omega, hj⟩
      exact ⟨msg, s', hcpu, (Prog.bind_ok_of hread).trans hrest⟩

/-- A list of words that are all accepted is printed. -/
theorem dumpWords_of_accepted (pc : U32) (is : List U32) :
    ∀ s, (∀ i ∈ is, ∀ j, j < 4 → Accepted (pc + i + BitVec.ofNat 32 j)) →
      ∃ s', dumpWords report pc is s = .ok () s' := by
  induction is with
  | nil => exact fun s _ => ⟨s, rfl⟩
  | cons i is ih =>
    intro s h
    -- The word is printed, and the others are as accepted as before.
    obtain ⟨code, s₁, hread⟩ := readFrom_of_accepted report (pc + i) 4 0 (0 : U32) s
      (fun j _ hj => h i List.mem_cons_self j (by omega))
    obtain ⟨s', hrest⟩ := ih { s₁ with log := .printed (.disassembly code (pc + i)) :: s₁.log }
      (fun i' hi' => h i' (List.mem_cons_of_mem i hi'))
    exact ⟨s', (Prog.bind_ok_of hread).trans hrest⟩

/-- The first word that is not accepted is reported, from the same program counter. -/
theorem dumpWords_of_not_accepted (pc : U32) (is : List U32) :
    ∀ s, (∃ i ∈ is, ∃ j, j < 4 ∧ ¬Accepted (pc + i + BitVec.ofNat 32 j)) →
      ∃ msg s', s'.cpu = s.cpu ∧ dumpWords report pc is s = fatal report msg s' := by
  induction is with
  | nil =>
    rintro s ⟨i, hi, -⟩
    cases hi
  | cons i is ih =>
    rintro s ⟨i', hi', j, hj, hbad⟩
    -- The bad byte is in this word, or this word is read.
    by_cases hword : ∃ j, 0 ≤ j ∧ j < 0 + 4 ∧ ¬Accepted (pc + i + BitVec.ofNat 32 j)
    · obtain ⟨msg, s', hcpu, hread⟩ :=
        @readFrom_of_not_accepted report 32 (pc + i) 4 0 0 s hword
      exact ⟨msg, s', hcpu, bind_of_fatal hread⟩
    · -- This word is read and printed, so the bad byte is in one of the others.
      push Not at hword
      obtain ⟨code, s₁, hread⟩ := readFrom_of_accepted report (pc + i) 4 0 (0 : U32) s hword
      have hro : ReadOnly s s₁ := readFrom_readOnly _ _ _ _ hread
      have hrest : i' ∈ is := by
        rcases List.mem_cons.mp hi' with rfl | hrest
        · exact absurd (hword j (Nat.zero_le j) (by omega)) hbad
        · exact hrest
      obtain ⟨msg, s', hcpu, hdump⟩ :=
        ih { s₁ with log := .printed (.disassembly code (pc + i)) :: s₁.log }
          ⟨i', hrest, j, hj, hbad⟩
      exact ⟨msg, s', hcpu.trans hro.cpu, (Prog.bind_ok_of hread).trans hdump⟩

end Report

/-! ### The recursion -/

/-- The fatal path is the report, then `exit(-1)`. -/
theorem fatal_apply (report : U32 → M Unit) (msg : Message) (s : Machine) :
    (fatal report msg : M Unit) s =
      (report (s.cpu.pc - 4) >>= fun _ => Prog.exit (-1)) { s with log := .printed msg :: s.log } :=
  rfl

/-- Where the report can be read, the fatal path exits after one level. -/
theorem fatal_of_legible {s : Machine} (h : Legible s.cpu.pc) (depth : Nat) (msg : Message) :
    ∃ s', (fatal (dumpasm (depth + 1)) msg : M Unit) s = .exit (-1) s' := by
  obtain ⟨s', hdump⟩ := @dumpWords_of_accepted (dumpasm depth) (s.cpu.pc - 4) dumpOffsets
    { s with log := .printed msg :: s.log } h
  refine ⟨s', ?_⟩
  rw [fatal_apply]
  exact Prog.bind_ok_of hdump

/-- Elsewhere every report ends in the next one, from the same program counter. -/
theorem fatal_of_not_legible (depth : Nat) :
    ∀ (s : Machine) (msg : Message), ¬Legible s.cpu.pc →
      (fatal (dumpasm depth) msg : M Unit) s = .outOfFuel := by
  -- On the depth: the report fails on its way, and its failure is a fatal path one level down.
  induction depth with
  | zero =>
    intro s msg _
    rw [fatal_apply]
    exact Prog.bind_outOfFuel_of rfl
  | succ depth ih =>
    intro s msg h
    have hbad : ∃ i ∈ dumpOffsets, ∃ j, j < 4 ∧
        ¬Accepted (s.cpu.pc - 4 + i + BitVec.ofNat 32 j) := by
      unfold Legible at h
      push Not at h
      exact h
    -- The failing read reports another message, from the same program counter.
    obtain ⟨msg', s', hcpu, hdump⟩ := @dumpWords_of_not_accepted (dumpasm depth) (s.cpu.pc - 4)
      dumpOffsets { s with log := .printed msg :: s.log } hbad
    have hfuel : dumpasm (depth + 1) (s.cpu.pc - 4) { s with log := .printed msg :: s.log } =
        .outOfFuel := by
      change dumpWords (dumpasm depth) (s.cpu.pc - 4) dumpOffsets _ = _
      rw [hdump]
      exact ih s' msg' (by rw [hcpu]; exact h)
    rw [fatal_apply]
    exact Prog.bind_outOfFuel_of hfuel

/-! ### The four ways in -/

/-- What is reported: an access to an address that denotes no byte, or an unknown opcode. -/
inductive FatalHit where
  | memRead8 (mem : U32) (rejected : foldAddr mem = none)
  | memWrite8 (mem : U32) (value : U8) (rejected : foldAddr mem = none)
  | UnknownOpcode
  | MMI_Unknown

/-- The function that makes the report. -/
def FatalHit.run (report : U32 → M Unit) : FatalHit → M Unit
  | memRead8 mem _ => do let _ ← Ps2Unpacker.memRead8 report mem
  | memWrite8 mem value _ => Ps2Unpacker.memWrite8 report mem value
  | UnknownOpcode => Handler.UnknownOpcode report
  | MMI_Unknown => Handler.MMI_Unknown report

/-- The program calls `exit(-1)` after finitely many calls of the reporter. -/
def ReachesExit (hit : FatalHit) (s : Machine) : Prop :=
  ∃ depth s', hit.run (dumpasm depth) s = .exit (-1) s'

/-- Each of them takes the fatal path. -/
theorem FatalHit.run_eq (hit : FatalHit) (report : U32 → M Unit) (s : Machine) :
    ∃ msg, hit.run report s = fatal report msg s := by
  cases hit with
  | memRead8 mem rejected =>
    obtain ⟨msg, hread⟩ := @memRead8_of_none report s mem rejected
    exact ⟨msg, bind_of_fatal hread⟩
  | memWrite8 mem value rejected =>
    obtain ⟨msg, hmsg⟩ := @translate_of_none report s mem .writing rejected
    exact ⟨msg, bind_of_fatal hmsg⟩
  | UnknownOpcode => exact ⟨.unknownOpcode s.cpu.code (s.cpu.pc - 4), rfl⟩
  | MMI_Unknown => exact ⟨.unknownMMI, rfl⟩

/-- **The fatal path** reaches `exit(-1)` exactly if the report around the program counter stays
inside one of the two windows; otherwise the recursion through the reporter does not end. -/
theorem fatal_reaches_exit_iff (hit : FatalHit) (s : Machine) :
    (ReachesExit hit s ↔
      36 ≤ s.cpu.pc.toNat ∧ s.cpu.pc.toNat ≤ 0x01ffffe0 ∨
        0x08000024 ≤ s.cpu.pc.toNat ∧ s.cpu.pc.toNat ≤ 0x09ffffe0) ∧
    (¬ReachesExit hit s → ∀ depth, hit.run (dumpasm depth) s = .outOfFuel) := by
  rw [← legible_iff]
  -- The way in does not matter: all four take the fatal path from the same program counter.
  have hfuel : ¬Legible s.cpu.pc → ∀ depth, hit.run (dumpasm depth) s = .outOfFuel := by
    intro hbad depth
    obtain ⟨msg, hmsg⟩ := hit.run_eq (dumpasm depth) s
    rw [hmsg]
    exact fatal_of_not_legible depth s msg hbad
  have hexit : ReachesExit hit s ↔ Legible s.cpu.pc := by
    constructor
    · rintro ⟨depth, s', hrun⟩
      by_contra hbad
      rw [hfuel hbad depth] at hrun
      cases hrun
    · -- With a legible report one level is enough.
      intro hlegible
      obtain ⟨msg, hmsg⟩ := hit.run_eq (dumpasm 1) s
      obtain ⟨s', hrun⟩ := fatal_of_legible hlegible 0 msg
      exact ⟨1, s', hmsg.trans hrun⟩
  exact ⟨hexit, fun hnot => hfuel fun hlegible => hnot (hexit.mpr hlegible)⟩

/-- Without the condition: an unmapped read by the instruction at address 0 is never reported to the
end. -/
theorem not_fatal_reaches_exit : ¬∀ (hit : FatalHit) (s : Machine), ReachesExit hit s := by
  intro hall
  obtain ⟨depth, s', hrun⟩ :=
    hall (.memRead8 0x10000000 (by decide)) (Machine.start (program 0 [0x8c020000]) 4 false)
  obtain ⟨msg, hmsg⟩ := FatalHit.run_eq (.memRead8 0x10000000 (by decide)) (dumpasm depth)
    (Machine.start (program 0 [0x8c020000]) 4 false)
  rw [hmsg, fatal_of_not_legible depth _ msg (by rw [legible_iff]; decide)] at hrun
  cases hrun

end Ps2Unpacker
