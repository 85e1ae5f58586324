import Ps2Unpacker.Properties.ByteStore
import Ps2Unpacker.Semantics.Loads

/-!
# What `SQ` stores

`SQ` passes the address of a register to `memWrite128`, which takes its sixteen bytes from the
parameter that holds the address. `LQ` and `memRead128` read the block as it is.

* `memWrite128_spec`: the sixteen bytes that arrive.
* `quadword_store_iff`: when they are those of the register.
-/

namespace Ps2Unpacker

open CProg Lanes

/-- The first address of the aligned block `SQ` stores to. -/
def quadword (r : CpuRegisters) : U32 := Handler.addressOut r &&& ~~~0xf

/-- From `s`, `SQ` stores the sixteen bytes of `rt` to the aligned block, it changes no other byte
of memory, and an `LQ` of the same address loads them. -/
def StoresQuadword (host : Host) (report : U32 → M Unit) (s : Machine) : Prop :=
  ∃ s', Handler.SQ report host s = .ok () s' ∧
    (∀ j, j < 16 →
      s'.byteAt (quadword s.cpu + BitVec.ofNat 32 j) = lane 8 j (s.cpu.GPR s.cpu.rt)) ∧
    (∀ m, (∀ j, j < 16 → foldAddr (quadword s.cpu + BitVec.ofNat 32 j) ≠ some m) →
      s'.memory m = s.memory m) ∧
    ∀ code, (s'.withCode code).cpu.rt ≠ 0 →
      Handler.address (s'.withCode code).cpu = Handler.addressOut s.cpu →
      ∃ t, Handler.LQ report (s'.withCode code) = .ok () t ∧
        t.cpu.GPR (s'.withCode code).cpu.rt = s.cpu.GPR s.cpu.rt

/-- `memWrite128` with a pointer to `pointed`, and then `memRead128`, which returns `pointed`. -/
def ReadsBack (host : Host) (report : U32 → M Unit) (mem : U32) (value : U64) (pointed : U128)
    (s : Machine) : Prop :=
  ∃ s' s'', memWrite128 report host mem value s = .ok () s' ∧
    memRead128 report mem s' = .ok pointed s''

section Quadwords

variable {host : Host} {report : U32 → M Unit} {s : Machine} {mem : U32} {cell : Nat → Fin MEMSIZE}

/-- **The bytes `memWrite128` writes** are the pointer and those behind it. -/
theorem memWrite128_spec (host : Host) (report : U32 → M Unit) (h : Denotes mem 16 cell)
    (value : U64) (s : Machine) :
    ∃ s', memWrite128 report host mem value s = .ok () s' ∧
      (∀ j, j < 16 → s'.memory (cell j) = lane 8 j (host.behindValue s ++ value)) ∧
      ∀ m, (∀ j, j < 16 → cell j ≠ m) → s'.memory m = s.memory m :=
  writeFrom_denotes report (host.behindValue s ++ value) h (by have := MEMSIZE_eq; omega) s

/-- A value of sixteen bytes is determined by them. -/
theorem eq_of_bytes {x y : U128} (h : ∀ j, j < 16 → lane 8 j x = lane 8 j y) : x = y :=
  ext_lanes rfl h

/-- `memRead128` returns the value whose bytes are in memory. -/
theorem memRead128_of_bytes (report : U32 → M Unit) (h : Denotes mem 16 cell) {x : U128}
    (hx : ∀ j, j < 16 → s.memory (cell j) = lane 8 j x) :
    ∃ s', memRead128 report mem s = .ok x s' := by
  obtain ⟨s', hread, -⟩ := readFrom_denotes report h (w := 128) rfl s
  refine ⟨s', ?_⟩
  rw [eq_ofBytes (n := 16) rfl fun j hj => (hx j hj).symm]
  exact hread

/-- `LQ` loads what its 16 bytes hold. -/
theorem LQ_of_bytes (h : Denotes (Handler.address s.cpu &&& ~~~0xf) 16 cell) (hrt : s.cpu.rt ≠ 0)
    {x : U128} (hx : ∀ j, j < 16 → s.memory (cell j) = lane 8 j x) :
    ∃ s', Handler.LQ report s = .ok () s' ∧ s'.cpu.GPR s.cpu.rt = x := by
  -- The macro of the load aligns the address and writes `rt` unless it is `r0`.
  obtain ⟨s', hrun, -, hcpu⟩ := load_run report (fun r => Handler.address r &&& ~~~0xf)
    (fun (val : U128) r => if r.rt = 0 then r else r.setGPR r.rt val) h rfl
  refine ⟨s', hrun, ?_⟩
  rw [hcpu, if_neg hrt, CpuRegisters.setGPR_GPR_self]
  exact (eq_ofBytes (n := 16) rfl fun j hj => (hx j hj).symm).symm

/-- What `memWrite128` and `memRead128` do with a pointer. -/
theorem readsBack_iff (h : ∀ j, j < 16 → Accepted (mem + BitVec.ofNat 32 j)) (value : U64)
    (pointed : U128) (s : Machine) :
    ReadsBack host report mem value pointed s ↔ pointed = host.behindValue s ++ value := by
  obtain ⟨cell, hcell⟩ := exists_denotes h
  obtain ⟨s', hwrite, hin, -⟩ := memWrite128_spec host report hcell value s
  obtain ⟨s'', hread⟩ := memRead128_of_bytes report hcell hin
  constructor
  · -- The two runs are those that are known.
    rintro ⟨t, t', hwrite', hread'⟩
    rw [hwrite] at hwrite'
    cases hwrite'
    rw [hread] at hread'
    cases hread'
    rfl
  · -- The pointer is read in two words, the lower of which is the parameter itself.
    rintro rfl
    exact ⟨s', s'', hwrite, hread⟩

/-- A register that `SQ` stores holds what `memWrite128` writes. -/
theorem StoresQuadword.register_eq (hs : StoresQuadword host report s)
    (h : ∀ j, j < 16 → Accepted (quadword s.cpu + BitVec.ofNat 32 j)) :
    s.cpu.GPR s.cpu.rt = host.behindValue s ++ Handler.addressOfRt host s.cpu := by
  obtain ⟨cell, hcell⟩ := exists_denotes h
  obtain ⟨s', hrun, hin, -⟩ := memWrite128_spec host report hcell
    (Handler.addressOfRt host s.cpu) s
  obtain ⟨t, hrun', hbytes, -⟩ := hs
  obtain rfl : s' = t := by
    have heq := hrun.symm.trans hrun'
    cases heq
    rfl
  -- Byte by byte: what was written against what should have been.
  refine eq_of_bytes fun j hj => ?_
  rw [← hbytes j hj, byteAt_denotes hcell hj, hin j hj]

/-- **When `SQ` stores the register.** The block receives the register, and `LQ` loads it again,
exactly if the register holds its own address on the host and the bytes that lie behind the
parameter of `memWrite128`. The accessors by themselves return what the pointer points to under the
same condition. -/
theorem quadword_store_iff (host : Host) (report : U32 → M Unit) (s : Machine) :
    ((∀ j, j < 16 → Accepted (quadword s.cpu + BitVec.ofNat 32 j)) →
      (StoresQuadword host report s ↔
        s.cpu.GPR s.cpu.rt = host.behindValue s ++ Handler.addressOfRt host s.cpu)) ∧
    ∀ (mem : U32) (value : U64) (pointed : U128),
      (∀ j, j < 16 → Accepted (mem + BitVec.ofNat 32 j)) →
      (ReadsBack host report mem value pointed s ↔ pointed = host.behindValue s ++ value) := by
  refine ⟨fun h => ⟨fun hs => hs.register_eq h, fun hrt => ?_⟩,
    fun mem value pointed h => readsBack_iff h value pointed s⟩
  obtain ⟨cell, hcell⟩ := exists_denotes h
  obtain ⟨s', hrun, hin, hout⟩ := memWrite128_spec host report hcell
    (Handler.addressOfRt host s.cpu) s
  -- With the condition, the bytes that arrive are those of the register.
  rw [← hrt] at hin
  refine ⟨s', hrun, fun j hj => ?_, fun m hm => ?_, fun code hne haddr => ?_⟩
  · -- Inside the block each byte is that of the register.
    rw [byteAt_denotes hcell hj, hin j hj]
  · exact hout m fun j hj heq => hm j hj (heq ▸ hcell j hj)
  · refine LQ_of_bytes ?_ hne hin
    rw [haddr]
    exact hcell

end Quadwords

/-- `sq t0, 0x100(r0)` with the address of `t0` on the host in `t0`, and zeros behind the parameter.
-/
theorem quadword_store_own_address :
    let host : Host := ⟨0x00405000, fun _ => 0⟩
    StoresQuadword host (dumpasm 0)
      { Machine.start (fun _ => 0) 4 false with
        cpu := { (CpuRegisters.zeroed 4).setGPR 8 0x00405080 with code := 0x7c080100 } } ∧
    ReadsBack host (dumpasm 0) 0x100 0x00405080 0x00405080
      (Machine.start (fun _ => 0) 4 false) := by
  intro host
  refine ⟨((quadword_store_iff host (dumpasm 0) _).1 ?_).mpr (by decide),
    ((quadword_store_iff host (dumpasm 0) _).2 _ _ _ ?_).mpr (by decide)⟩
  · decide
  · decide

/-- `sq t0, 0x100(r0)` with zero in `t0` stores the address of `t0` on the host. -/
theorem not_quadword_store :
    ¬∀ (host : Host) (report : U32 → M Unit) (s : Machine),
      (∀ j, j < 16 → Accepted (quadword s.cpu + BitVec.ofNat 32 j)) →
        StoresQuadword host report s := by
  intro hall
  let host : Host := ⟨0x00405000, fun _ => 0⟩
  let s : Machine :=
    { Machine.start (fun _ => 0) 4 false with
      cpu := { CpuRegisters.zeroed 4 with code := 0x7c080100 } }
  -- Address `0x100`, in the first window.
  have hrange : ∀ j, j < 16 → Accepted (quadword s.cpu + BitVec.ofNat 32 j) := by
    decide
  exact absurd ((hall host (dumpasm 0) s hrange).register_eq hrange) (by decide)

end Ps2Unpacker
