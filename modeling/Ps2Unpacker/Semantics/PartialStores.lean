import Ps2Unpacker.Framework.Merge
import Ps2Unpacker.Semantics.Loads

/-!
# Partial stores

`SWL`, `SWR`, `SDL` and `SDR` store some bytes of `rt`: they read the aligned block around the
address, replace the bytes of one part of it and write all of it back. `store_run` and
`mergeStore_run` say what a store does to the cells of memory, in terms of the bytes it is meant
for.

* `SWR_run`, `SDR_run`: the bytes from the address to the end of the block.
* `SWL_run`, `SDL_run`: the bytes from the start of the block to the address.
-/

namespace Ps2Unpacker

open CProg Lanes

variable (report : U32 → M Unit) {s : Machine} {w n : Nat} {cell : Nat → Fin MEMSIZE}

/-- From `s` to `s'` the bytes `value i` are stored into the cells `cell i`, for the `i` below `n`
with `P i`; the rest of memory and the registers stay. -/
structure Stored (n : Nat) (P : Nat → Prop) (cell : Nat → Fin MEMSIZE) (value : Nat → U8)
    (s s' : Machine) : Prop where
  cpu : s'.cpu = s.cpu
  memory : Assigned n P cell value s.memory s'.memory

/-- A write stores all bytes of the value. -/
theorem writeFrom_stored {mem : U32} (hn : n ≤ MEMSIZE) (value : BitVec w)
    (h : Denotes mem n cell) :
    ∃ s', writeFrom report mem value 0 n s = .ok () s' ∧
      Stored n (fun _ => True) cell (fun i => lane 8 i value) s s' := by
  obtain ⟨s', hrun, hin, hout⟩ := writeFrom_denotes report value h hn s
  refine ⟨s', hrun, writeFrom_cpu _ _ n 0 hrun, fun i hi _ => hin i hi, fun m hm => ?_⟩
  exact hout m fun i hi => hm i hi trivial

/-- **A store** of a value computed from the registers. -/
theorem store_run (hn : n ≤ MEMSIZE) (addr : CpuRegisters → U32) (value : CpuRegisters → BitVec w)
    (h : Denotes (addr s.cpu) n cell) :
    ∃ s', (do let r ← cpu; writeFrom report (addr r) (value r) 0 n) s = .ok () s' ∧
      Stored n (fun _ => True) cell (fun i => lane 8 i (value s.cpu)) s s' :=
  writeFrom_stored report hn (value s.cpu) h

/-- **A store that merges** `rt` into the block it read. -/
theorem mergeStore_run (hw : w = 8 * n) (hn : n ≤ MEMSIZE) (block : CpuRegisters → U32)
    (merge : CpuRegisters → BitVec w → BitVec w) {c : Nat → Prop} {b : Nat → U8}
    (h : Denotes (block s.cpu) n cell) (hmerge : ∀ x, Patch n c b x (merge s.cpu x)) :
    ∃ s', (do let r ← cpu
              let mem ← readFrom report (block r) 0 n (0 : BitVec w)
              writeFrom report (block r) (merge r mem) 0 n) s = .ok () s' ∧
      Stored n c cell b s s' := by
  obtain ⟨s₁, hread, hro⟩ := readFrom_denotes report h hw s
  obtain ⟨s', hwrite, hin, hout⟩ := writeFrom_denotes report
    (merge s.cpu (ofBytes w ((List.range n).map fun j => s.memory (cell j)))) h hn s₁
  -- Among the bytes that were read, the merge replaces those with `c` and keeps the others.
  have hpatch := hmerge (ofBytes w ((List.range n).map fun j => s.memory (cell j)))
  refine ⟨s', (Prog.bind_ok_of hread).trans hwrite, ?_, fun i hi hc => ?_, fun m hm => ?_⟩
  · rw [writeFrom_cpu _ _ n 0 hwrite, hro.cpu]
  · rw [hin i hi]
    exact (hpatch i hi).1 hc
  · by_cases hcell : ∃ i, i < n ∧ cell i = m
    · -- A byte of the block that is written back.
      obtain ⟨i, hi, rfl⟩ := hcell
      rw [hin i hi, (hpatch i hi).2 fun hc => hm i hi hc rfl, lane_ofBytes hw hi]
    · rw [hout m fun i hi heq => hcell ⟨i, hi, heq⟩, hro.memory]

section Tables

variable (hw : w = 8 * n) (hn : n ≤ MEMSIZE) (low : U32 → Fin n) (round : U32 → U32)
  (mask : Fin n → BitVec w) (shift : Fin n → Nat)
  (h : Denotes (round (Handler.addressOut s.cpu)) n cell)
include hw hn h

/-- `SWR` and `SDR`, for the tables of masks and shifts. -/
theorem storeRight_run (hmask : ∀ k i, i < n → lane 8 i (mask k) = if k ≤ i then 0#8 else 255#8)
    (hshift : ∀ k : Fin n, shift k = 8 * k) :
    ∃ s', (do let r ← cpu
              let mem ← readFrom report (round (Handler.addressOut r)) 0 n (0 : BitVec w)
              writeFrom report (round (Handler.addressOut r))
                ((lane w 0 (r.GPR r.rt) <<< shift (low (Handler.addressOut r))) |||
                  (mem &&& mask (low (Handler.addressOut r)))) 0 n) s = .ok () s' ∧
      Stored n ((low (Handler.addressOut s.cpu) : Nat) ≤ ·) cell
        (fun i => lane 8 (i - low (Handler.addressOut s.cpu)) (lane w 0 (s.cpu.GPR s.cpu.rt)))
        s s' := by
  refine mergeStore_run report hw hn (fun r => round (Handler.addressOut r))
    (fun r mem => (lane w 0 (r.GPR r.rt) <<< shift (low (Handler.addressOut r))) |||
      (mem &&& mask (low (Handler.addressOut r)))) h fun x => ?_
  -- The shifted register under the mask of the bytes kept.
  rw [hshift, BitVec.or_comm]
  exact patch_left hw x _ (hmask _)

/-- `SWL` and `SDL`. -/
theorem storeLeft_run
    (hmask : ∀ k i, i < n → lane 8 i (mask k) = if i + (n - 1 - k) < n then 0#8 else 255#8)
    (hshift : ∀ k : Fin n, shift k = 8 * (n - 1 - k)) :
    ∃ s', (do let r ← cpu
              let mem ← readFrom report (round (Handler.addressOut r)) 0 n (0 : BitVec w)
              writeFrom report (round (Handler.addressOut r))
                ((lane w 0 (r.GPR r.rt) >>> shift (low (Handler.addressOut r))) |||
                  (mem &&& mask (low (Handler.addressOut r)))) 0 n) s = .ok () s' ∧
      Stored n (· + (n - 1 - (low (Handler.addressOut s.cpu) : Nat)) < n) cell
        (fun i => lane 8 (i + (n - 1 - (low (Handler.addressOut s.cpu) : Nat)))
          (lane w 0 (s.cpu.GPR s.cpu.rt))) s s' := by
  refine mergeStore_run report hw hn (fun r => round (Handler.addressOut r))
    (fun r mem => (lane w 0 (r.GPR r.rt) >>> shift (low (Handler.addressOut r))) |||
      (mem &&& mask (low (Handler.addressOut r)))) h fun x => ?_
  -- The same with the other table.
  rw [hshift, BitVec.or_comm]
  exact patch_right hw x _ (hmask _)

end Tables

/-! ### The four instructions -/

section Instructions

/-- `SWR` stores the low bytes of `rt` from the address to the end of its word. -/
theorem SWR_run (h : Denotes (Handler.addressOut s.cpu &&& ~~~3) 4 cell) :
    ∃ s', Handler.SWR report s = .ok () s' ∧
      Stored 4 ((Handler.low2 (Handler.addressOut s.cpu) : Nat) ≤ ·) cell
        (fun i => lane 8 (i - Handler.low2 (Handler.addressOut s.cpu)) (UL 0 (s.cpu.GPR s.cpu.rt)))
        s s' :=
  storeRight_run report rfl (by decide) Handler.low2 (· &&& ~~~3) (fun k => Handler.SWR_MASK[k])
    (fun k => Handler.SWR_SHIFT[k]) h (by decide) (by decide)

/-- `SWL` stores the high bytes of `rt` from the start of the word to the address. -/
theorem SWL_run (h : Denotes (Handler.addressOut s.cpu &&& ~~~3) 4 cell) :
    ∃ s', Handler.SWL report s = .ok () s' ∧
      Stored 4 (· + (3 - (Handler.low2 (Handler.addressOut s.cpu) : Nat)) < 4) cell
        (fun i => lane 8 (i + (3 - (Handler.low2 (Handler.addressOut s.cpu) : Nat)))
          (UL 0 (s.cpu.GPR s.cpu.rt))) s s' :=
  storeLeft_run report rfl (by decide) Handler.low2 (· &&& ~~~3) (fun k => Handler.SWL_MASK[k])
    (fun k => Handler.SWL_SHIFT[k]) h (by decide) (by decide)

/-- `SDR`, in the doubleword. -/
theorem SDR_run (h : Denotes (Handler.addressOut s.cpu &&& ~~~7) 8 cell) :
    ∃ s', Handler.SDR report s = .ok () s' ∧
      Stored 8 ((Handler.low3 (Handler.addressOut s.cpu) : Nat) ≤ ·) cell
        (fun i => lane 8 (i - Handler.low3 (Handler.addressOut s.cpu)) (UD 0 (s.cpu.GPR s.cpu.rt)))
        s s' :=
  storeRight_run report rfl (by decide) Handler.low3 (· &&& ~~~7) (fun k => Handler.SDR_MASK[k])
    (fun k => Handler.SDR_SHIFT[k]) h (by decide) (by decide)

/-- `SDL`, in the doubleword. -/
theorem SDL_run (h : Denotes (Handler.addressOut s.cpu &&& ~~~7) 8 cell) :
    ∃ s', Handler.SDL report s = .ok () s' ∧
      Stored 8 (· + (7 - (Handler.low3 (Handler.addressOut s.cpu) : Nat)) < 8) cell
        (fun i => lane 8 (i + (7 - (Handler.low3 (Handler.addressOut s.cpu) : Nat)))
          (UD 0 (s.cpu.GPR s.cpu.rt))) s s' :=
  storeLeft_run report rfl (by decide) Handler.low3 (· &&& ~~~7) (fun k => Handler.SDL_MASK[k])
    (fun k => Handler.SDL_SHIFT[k]) h (by decide) (by decide)

end Instructions

end Ps2Unpacker
