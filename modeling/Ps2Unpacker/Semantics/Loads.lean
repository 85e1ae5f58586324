import Ps2Unpacker.Semantics.ByteStore

/-!
# Loads from bytes in range

A load computes an address, reads the bytes from there on and updates a register with their
little-endian combination.

* `addressOut_eq`: the two ways the handlers write the effective address agree.
* `load_run`: a load from bytes that are all accepted.
-/

namespace Ps2Unpacker

open CProg Lanes

/-- The state in which the word `code` is about to be executed. -/
def Machine.withCode (code : U32) (s : Machine) : Machine :=
  { s with cpu := { s.cpu with code := code } }

@[simp] theorem withCode_memory (code : U32) (s : Machine) :
    (s.withCode code).memory = s.memory := rfl

@[simp] theorem withCode_GPR (code : U32) (s : Machine) :
    (s.withCode code).cpu.GPR = s.cpu.GPR := rfl

/-- The offset by sign and magnitude is the sign-extended halfword. -/
theorem addressOut_eq (r : CpuRegisters) : Handler.addressOut r = Handler.address r := by
  have hand : r.code &&& 0x8000 = if r.code.getLsbD 15 then 0x8000 else 0 :=
    BitVec.and_twoPow r.code 15
  have hsign : (r.code &&& 0x8000 ≠ 0) ↔ r.code.getLsbD 15 = true := by
    rw [hand]
    cases r.code.getLsbD 15 <;> decide
  unfold Handler.addressOut Handler.address
  congr 1
  apply BitVec.eq_of_getLsbD_eq
  intro i hi
  have hmsb : r.imm.msb = r.code.getLsbD 15 := by
    unfold CpuRegisters.imm
    rw [BitVec.msb_eq_getLsbD_last, BitVec.getLsbD_setWidth]
    rfl
  rw [BitVec.getLsbD_signExtend, hmsb, if_congr hsign rfl rfl]
  unfold CpuRegisters.imm
  -- Below bit 15 both are the word's bits, from there on both are bit 15.
  cases h : r.code[15] <;> interval_cases i <;> simp [h]

section Runs

variable {report : U32 → M Unit} {s : Machine} {n : Nat} {cell : Nat → Fin MEMSIZE}

/-- **A load**: memory stays, and the registers are updated with the value of the bytes. -/
theorem load_run (report : U32 → M Unit) {w : Nat} (addr : CpuRegisters → U32)
    (f : BitVec w → CpuRegisters → CpuRegisters)
    (h : Denotes (addr s.cpu) n cell) (hw : w = 8 * n) :
    ∃ s', (do let val ← readFrom report (addr (← cpu)) 0 n (0 : BitVec w)
              modifyCpu (f val)) s = .ok () s' ∧ s'.memory = s.memory ∧
      s'.cpu = f (ofBytes w ((List.range n).map fun j => s.memory (cell j))) s.cpu := by
  obtain ⟨s₁, hread, hro⟩ := readFrom_denotes report h hw s
  refine ⟨_, (Prog.bind_ok_of hread).trans rfl, hro.memory, ?_⟩
  exact congrArg (f _) hro.cpu

end Runs

end Ps2Unpacker
