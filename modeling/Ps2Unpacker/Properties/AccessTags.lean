import Ps2Unpacker.Properties.Ledger
import Ps2Unpacker.Semantics.AccessTags

/-!
# The access tags

In the state a run reaches, the array `tags` is a record of the run: bit 0 of a byte says that an
instruction was fetched from it or loaded it, bit 1 that an instruction stored to it, and no other
bit is ever set.

* `marks_ledger`: every step marks what its instruction reads and stores to.
* `tags_exact`: the tags as a function of the instructions executed.
-/

namespace Ps2Unpacker

open CProg

/-- What a list of instructions covers, one of them covers. -/
theorem covers_flatMap {xs : List CpuRegisters} {f : CpuRegisters → List U32} {m : Fin MEMSIZE} :
    Covers (xs.flatMap f) m ↔ ∃ r ∈ xs, Covers (f r) m := by
  unfold Covers
  simp only [List.mem_flatMap]
  constructor
  · rintro ⟨mem, ⟨r, hr, hmem⟩, hm⟩
    exact ⟨r, hr, mem, hmem, hm⟩
  · rintro ⟨r, hr, mem, hmem, hm⟩
    exact ⟨mem, ⟨r, hr, hmem⟩, hm⟩

/-- The instructions `xs` marked what they read and stored to. -/
def MarkedBy (xs : List CpuRegisters) : Machine → Machine → Prop :=
  Marks (xs.flatMap CpuRegisters.reads) (xs.flatMap CpuRegisters.footprint)

/-- A branch marks its own word. -/
theorem fetch_markedBy {report : U32 → M Unit} {s s₀ : Machine} {o : BranchOp}
    (hfetch : fetch report s = .ok () s₀) (hop : decode s₀.cpu.code = .branch o) :
    MarkedBy [s₀.cpu] s s₀ := by
  have hne : ∀ o, decode s₀.cpu.code ≠ .memory o := by
    intro o' ho'
    cases hop.symm.trans ho'
  unfold MarkedBy
  rw [List.flatMap_singleton, List.flatMap_singleton, CpuRegisters.reads, loads_of_ne hne,
    footprint_of_ne hne, List.append_nil]
  exact fetch_marks report hfetch

/-- **Every step** marks what its instruction reads and stores to. -/
theorem marks_ledger (host : Host) (report : U32 → M Unit) : Ledger host report MarkedBy where
  trans := by
    intro xs ys s₁ s₂ s₃ h h'
    -- The list is newest first, and the order does not matter to the tags.
    have hall := h.trans h'
    unfold MarkedBy
    rw [List.flatMap_append, List.flatMap_append]
    refine ⟨fun mem hmem => hall.read mem ?_, fun mem hmem => hall.written mem ?_, fun m => ?_⟩
    · exact List.mem_append.mpr (List.mem_append.mp hmem).symm
    · exact List.mem_append.mpr (List.mem_append.mp hmem).symm
    · rw [hall.tags m, marks_append, marks_append, BitVec.or_comm (marks _ _ m)]
  straight := by
    intro s s₀ s' execI hfetch hop hrun
    unfold MarkedBy
    rw [List.flatMap_singleton, List.flatMap_singleton]
    -- The fetch reads its word first, then the instruction makes its own accesses.
    exact (fetch_marks report hfetch).trans (Op.run_account marks_account hop hrun)
  skip _ _ _ hfetch hop := (fetch_markedBy hfetch hop).congr rfl rfl
  enter _ _ _ hfetch hop := (fetch_markedBy hfetch hop).congr rfl rfl
  leave := by
    intro s
    refine .of_tags ?_
    -- The jump writes no tag.
    unfold Machine.leaveSlot
    split <;> rfl

/-- **The tags** in every state a run reaches: a byte is tagged as read exactly if an executed
instruction was fetched from it or loaded it, as written exactly if one stored to it, through either
window, and no other bit of a tag is set. -/
theorem tags_exact {host : Host} {memory : Fin MEMSIZE → U8} {pc : U32} {trace : Bool}
    {s : Machine} (h : Run host (Machine.start memory pc trace) s) (m : Fin MEMSIZE) :
    s.tags m = (if ∃ r ∈ s.executedSoFar, Covers r.reads m then 1 else 0) |||
      (if ∃ r ∈ s.executedSoFar, r.Stores m then 2 else 0) := by
  have hmarks : MarkedBy s.executedSoFar (Machine.start memory pc trace) s :=
    Ledger.run (fun depth => marks_ledger host (dumpasm depth)) (.of_tags rfl) h
  have hzero : (Machine.start memory pc trace).tags m = 0#8 := rfl
  rw [hmarks.tags m, hzero, BitVec.zero_or]
  unfold marks
  simp only [covers_flatMap]
  rfl

/-- The program `li v0, 5; sb v0, 0x200` after two calls: its words are tagged as read, and the byte
at `0x200` as written. -/
theorem tags_exact_store : ∃ s,
    Run .flat (Machine.start (program 0x100 [0x24020005, 0xa0020200]) 0x100 false) s ∧
    s.tags ⟨0x104, by decide⟩ = 1 ∧
    s.tags ⟨0x200, by decide⟩ = (if ∃ r ∈ s.executedSoFar, Covers r.reads ⟨0x200, by decide⟩
      then 1 else 0) ||| (if ∃ r ∈ s.executedSoFar, r.Stores ⟨0x200, by decide⟩ then 2 else 0) := by
  have hrun := Relation.ReflTransGen.tail (Relation.ReflTransGen.single
    (show Returns .flat (Machine.start (program 0x100 [0x24020005, 0xa0020200]) 0x100 false) _ from
      ⟨0, 1, rfl⟩)) (show Returns .flat _ _ from ⟨0, 1, rfl⟩)
  exact ⟨_, hrun, by decide, tags_exact hrun _⟩

end Ps2Unpacker
