import Ps2Unpacker.Semantics.ByteStore
import Ps2Unpacker.Semantics.Footprint

/-!
# Which bytes a store tags

The aligned stores tag the bytes they store. `SWL`, `SWR`, `SDL` and `SDR` store a part of an
aligned word or doubleword; they read all of it, merge, and write all of it back, so the bytes they
only preserve are tagged too.

* `MemOp.extent`: the block of memory a store writes and the part of it that is stored to.
* `store_tags_iff`: a store tags exactly the bytes it stores if and only if those it preserves were
  tagged before.
-/

namespace Ps2Unpacker

open CProg Lanes

/-- The stores. -/
def MemOp.isStore : MemOp → Bool
  | SB | SH | SW | SWL | SWR | SD | SDL | SDR | SQ => true
  | _ => false

/-- A block of bytes, of which a part is stored to. -/
structure Extent where
  /-- The first address of the block. -/
  mem : U32
  /-- Its size. -/
  size : Nat
  /-- The offsets in the block that are stored to, from `lo` to below `hi`. -/
  lo : Nat
  hi : Nat

/-- The bytes a store is defined to store to: `SWL` and `SDL` from the start of the aligned block up
to the address, `SWR` and `SDR` from the address to the end of the block. -/
def MemOp.extent : MemOp → CpuRegisters → Extent
  | SB, r => ⟨Handler.address r, 1, 0, 1⟩
  | SH, r => ⟨Handler.address r, 2, 0, 2⟩
  | SW, r => ⟨Handler.addressOut r, 4, 0, 4⟩
  | SWL, r => ⟨Handler.addressOut r &&& ~~~3, 4, 0, Handler.low2 (Handler.addressOut r) + 1⟩
  | SWR, r => ⟨Handler.addressOut r &&& ~~~3, 4, Handler.low2 (Handler.addressOut r), 4⟩
  | SD, r => ⟨Handler.addressOut r, 8, 0, 8⟩
  | SDL, r => ⟨Handler.addressOut r &&& ~~~7, 8, 0, Handler.low3 (Handler.addressOut r) + 1⟩
  | SDR, r => ⟨Handler.addressOut r &&& ~~~7, 8, Handler.low3 (Handler.addressOut r), 8⟩
  | SQ, r => ⟨Handler.addressOut r &&& ~~~0xf, 16, 0, 16⟩
  | _, _ => ⟨0, 0, 0, 0⟩

namespace Extent

variable (e : Extent)

/-- All bytes of the block are accepted. -/
def InRange : Prop := ∀ j, j < e.size → Accepted (e.mem + BitVec.ofNat 32 j)

/-- The byte is stored to. -/
def Stored (m : Fin MEMSIZE) : Prop :=
  ∃ j, e.lo ≤ j ∧ j < e.hi ∧ foldAddr (e.mem + BitVec.ofNat 32 j) = some m

/-- The byte belongs to the block and is not stored to. -/
def Preserved (m : Fin MEMSIZE) : Prop :=
  ∃ j, j < e.size ∧ ¬(e.lo ≤ j ∧ j < e.hi) ∧ foldAddr (e.mem + BitVec.ofNat 32 j) = some m

end Extent

/-- From `s`, the store returns, and it tags no byte but those it stores to, and all of these. -/
def TagsExactly (host : Host) (report : U32 → M Unit) (o : MemOp) (s : Machine) : Prop :=
  ∃ s', o.run host report s = .ok () s' ∧
    (∀ m, s'.Written m → ¬s.Written m → (o.extent s.cpu).Stored m) ∧
    ∀ m, (o.extent s.cpu).Stored m → s'.Written m

section Stores

variable {host : Host} {report : U32 → M Unit} {o : MemOp} {s : Machine}

/-- What is stored is part of the block. -/
theorem extent_hi_le (o : MemOp) (r : CpuRegisters) : (o.extent r).hi ≤ (o.extent r).size := by
  have h2 := (Handler.low2 (Handler.addressOut r)).isLt
  have h3 := (Handler.low3 (Handler.addressOut r)).isLt
  cases o with
  | SWL => exact h2
  | SDL => exact h3
  | _ => exact Nat.le_refl _

/-- No block is larger than a quadword. -/
theorem extent_size_le (o : MemOp) (r : CpuRegisters) : (o.extent r).size ≤ 16 := by
  cases o <;> simp [MemOp.extent]

/-- The block is the footprint. -/
theorem footprint_eq_span (ho : o.isStore) (r : CpuRegisters) :
    o.footprint r = span (o.extent r).mem 0 (o.extent r).size := by
  cases o with
  | SB => exact congrArg (fun mem => [mem]) (BitVec.add_zero _).symm
  | SH | SW | SWL | SWR | SD | SDL | SDR | SQ => rfl
  | _ => cases ho

/-- A store that merges `rt` into the block returns if the block is in range. -/
theorem mergeStore_returns {w : Nat} {addr : CpuRegisters → U32}
    {merge : CpuRegisters → BitVec w → BitVec w} (n : Nat)
    (h : ∀ j, j < n → Accepted (addr s.cpu + BitVec.ofNat 32 j)) :
    ∃ s', (do let r ← cpu
              let mem ← readFrom report (addr r) 0 n (0 : BitVec w)
              writeFrom report (addr r) (merge r mem) 0 n) s = .ok () s' := by
  -- The read only adds tags, and the write finds the range as it was.
  obtain ⟨v, s₁, hread⟩ := readFrom_of_accepted report (addr s.cpu) n 0 (0 : BitVec w) s
    fun j _ hj => h j (by omega)
  obtain ⟨s', hwrite⟩ := writeFrom_of_accepted report (merge s.cpu v) n 0 s₁
    fun j _ hj => h j (by omega)
  refine ⟨s', ?_⟩
  rw [cpu_bind]
  exact (Prog.bind_ok_of hread).trans hwrite

/-- A store to a block that is in range returns. -/
theorem store_returns (host : Host) (report : U32 → M Unit) (ho : o.isStore)
    (h : (o.extent s.cpu).InRange) :
    ∃ s', o.run host report s = .ok () s' := by
  have hplain : ∀ {w : Nat} (value : BitVec w) (mem : U32) (n : Nat),
      (∀ j, j < n → Accepted (mem + BitVec.ofNat 32 j)) →
      ∃ s', writeFrom report mem value 0 n s = .ok () s' :=
    fun value mem n hacc => writeFrom_of_accepted report value n 0 s fun j _ hj => hacc j (by omega)
  -- By the store: a byte, the plain ones, and those that merge.
  cases o with
  | SB =>
    obtain ⟨m, hm⟩ := Option.isSome_iff_exists.mp (h 0 Nat.zero_lt_one)
    rw [BitVec.add_zero] at hm
    exact ⟨_, memWrite8_eq_ok.mpr ⟨m, hm, rfl⟩⟩
  | SH | SW | SD | SQ => exact hplain _ _ _ h
  | SWL | SWR | SDL | SDR => exact mergeStore_returns _ h
  | _ => cases ho

/-- **Which bytes a store tags**: exactly those it stores to, if and only if all bytes of the block
that it merely preserves were tagged as written before. -/
theorem store_tags_iff (ho : o.isStore) (h : (o.extent s.cpu).InRange) :
    TagsExactly host report o s ↔ ∀ m, (o.extent s.cpu).Preserved m → s.Written m := by
  obtain ⟨s', hrun⟩ := store_returns host report ho h
  have hhi := extent_hi_le o s.cpu
  have hsize := extent_size_le o s.cpu
  -- What becomes tagged is the whole block.
  have hwrites : ∀ m, s'.Written m ↔ s.Written m ∨
      ∃ j, j < (o.extent s.cpu).size ∧
        foldAddr ((o.extent s.cpu).mem + BitVec.ofNat 32 j) = some m := by
    intro m
    rw [o.run_writes hrun m, footprint_eq_span ho, exists_mem_span]
  constructor
  · rintro ⟨s₁, hrun', honly, -⟩ m ⟨j, hj, hout, hm⟩
    obtain rfl : s' = s₁ := by
      rw [hrun] at hrun'
      cases hrun'
      rfl
    by_contra hnot
    obtain ⟨i, hlo, hi, hm'⟩ := honly m ((hwrites m).mpr (.inr ⟨j, hj, hm⟩)) hnot
    -- A byte has one offset in the block.
    obtain ⟨cell, hcell⟩ := exists_denotes h
    have hij : i = j := hcell.distinct (by have := MEMSIZE_eq; omega) i j (by omega) (by omega)
      (by omega) (by omega) (Option.some.inj ((hcell i (by omega)).symm.trans
        ((hm'.trans hm.symm).trans (hcell j hj))))
    exact hout (hij ▸ ⟨hlo, hi⟩)
  · intro hpres
    -- With every preserved byte tagged before, only stored bytes are new.
    refine ⟨s', hrun, fun m hw hnot => ?_, fun m ⟨j, hlo, hj, hm⟩ => ?_⟩
    · obtain ⟨j, hj, hm⟩ := ((hwrites m).mp hw).resolve_left hnot
      by_contra hstored
      exact hnot (hpres m ⟨j, hj, fun hin => hstored ⟨j, hin.1, hin.2, hm⟩, hm⟩)
    · exact (hwrites m).mpr (.inr ⟨j, by omega, hm⟩)

end Stores

/-- `sw r0, 0x100(r0)` preserves nothing. -/
theorem store_tags_sw :
    TagsExactly ⟨0, fun _ => 0⟩ (dumpasm 0) .SW
      { Machine.start (fun _ => 0) 4 false with
        cpu := { CpuRegisters.zeroed 4 with code := 0xac000100 } } := by
  refine (store_tags_iff rfl ?_).mpr ?_
  · change ∀ j, j < 4 → Accepted (_ + BitVec.ofNat 32 j)
    decide
  · rintro m ⟨j, hj, hout, -⟩
    exact absurd ⟨Nat.zero_le j, hj⟩ hout

/-- `swl r0, 0x100(r0)` stores to the byte at `0x100` and tags that at `0x101`. -/
theorem not_store_tags :
    ¬∀ (host : Host) (report : U32 → M Unit) (o : MemOp) (s : Machine), o.isStore →
      (o.extent s.cpu).InRange → TagsExactly host report o s := by
  intro hall
  let s : Machine :=
    { Machine.start (fun _ => 0) 4 false with
      cpu := { CpuRegisters.zeroed 4 with code := 0xa8000100 } }
  have hrange : (MemOp.SWL.extent s.cpu).InRange := by
    change ∀ j, j < 4 → Accepted (_ + BitVec.ofNat 32 j)
    decide
  obtain ⟨s', hrun, honly, -⟩ := hall ⟨0, fun _ => 0⟩ (dumpasm 0) .SWL s rfl hrange
  have hbyte : foldAddr ((MemOp.SWL.extent s.cpu).mem + BitVec.ofNat 32 1) =
      some ⟨0x101, by decide⟩ := by
    decide
  have hwritten : s'.Written ⟨0x101, by decide⟩ := by
    -- The block of the word is written as a whole.
    rw [MemOp.SWL.run_writes hrun, footprint_eq_span rfl, exists_mem_span]
    exact .inr ⟨1, by decide, hbyte⟩
  -- Only the byte at offset 0 was stored.
  obtain ⟨j, -, hj, hm⟩ := honly _ hwritten (by unfold Machine.Written; decide)
  have hhi : (MemOp.SWL.extent s.cpu).hi = 1 := by decide
  have hzero : j = 0 := by omega
  subst hzero
  exact absurd hm (by decide)

end Ps2Unpacker
