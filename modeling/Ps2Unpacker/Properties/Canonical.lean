import Ps2Unpacker.Framework.SignExtended
import Ps2Unpacker.Properties.Runs

/-!
# Canonical 32-bit results

A register is canonical if its low doubleword is the sign extension of its low word; then the 64-bit
comparisons of the branches and of `SLT` decide as 32-bit ones would. This file follows canonicity
through the 32-bit fragment of the instruction set.

Three handlers break it: `DIVU` zero-extends quotient and remainder, and `mfc0 s0, Status` and the
system call `EndOfHeap` write only the low word. `Tame` is the condition on an instruction under
which they do not.

* `Op.run_canonical`: an instruction of the fragment, run on canonical registers, leaves canonical
  registers exactly if it is tame.
* `canonical_of_tame`: in every run of the fragment whose instructions are tame, all registers stay
  canonical and the comparisons decide as on 32 bits.
* `not_canonical_DIVU`: without the condition this fails.
-/

namespace Ps2Unpacker

open CProg Lanes

/-! ### Canonical registers -/

/-- The low doubleword is the sign extension of the low word. -/
def CanonicalReg (x : U128) : Prop := UD 0 x = (UL 0 x).signExtend 64

/-- A canonical register, by its doubleword. -/
theorem canonicalReg_iff {x : U128} : CanonicalReg x ↔ SignExtended 32 (UD 0 x) := by
  unfold CanonicalReg SignExtended
  rw [setWidth_lane_zero x (by decide)]

/-- A doubleword that was just written. -/
theorem UD_setLane (v : U64) (x : U128) : UD 0 (Lanes.setLane 0 v x) = v :=
  lane_setLane_self 0 v x

/-- Zero is canonical. -/
theorem canonicalReg_zero : CanonicalReg 0 := by
  unfold CanonicalReg
  decide

structure CpuRegisters.Canonical (r : CpuRegisters) : Prop where
  GPR : ∀ i, CanonicalReg (r.GPR i)
  HI : CanonicalReg r.HI
  LO : CanonicalReg r.LO

namespace CpuRegisters.Canonical

variable {r : CpuRegisters}

/-- Every general register is sign-extended. -/
theorem ud (h : r.Canonical) (i : Reg) : SignExtended 32 (UD 0 (r.GPR i)) :=
  canonicalReg_iff.mp (h.GPR i)

/-- A sign-extended value may be written to any register, and to `HI` and `LO`. -/
theorem setLane (h : r.Canonical) (i : Reg) {v : U64} (hv : SignExtended 32 v) :
    (r.setLane i 0 v).Canonical where
  GPR j := by
    unfold CpuRegisters.setLane
    rw [setGPR_GPR]
    by_cases hj : j = i
    · rw [if_pos hj, canonicalReg_iff, UD_setLane]
      exact hv
    · rw [if_neg hj]
      exact h.GPR j
  HI := h.HI
  LO := h.LO

theorem setHILane (h : r.Canonical) {v : U64} (hv : SignExtended 32 v) :
    (r.setHILane 0 v).Canonical where
  GPR := h.GPR
  HI := by
    unfold CpuRegisters.setHILane CpuRegisters.setHI
    rw [canonicalReg_iff, UD_setLane]
    exact hv
  LO := h.LO

theorem setLOLane (h : r.Canonical) {v : U64} (hv : SignExtended 32 v) :
    (r.setLOLane 0 v).Canonical where
  GPR := h.GPR
  HI := h.HI
  LO := by
    unfold CpuRegisters.setLOLane CpuRegisters.setLO
    rw [canonicalReg_iff, UD_setLane]
    exact hv

theorem setRd (h : r.Canonical) {v : U64} (hv : SignExtended 32 v) : (r.setRd v).Canonical := by
  unfold CpuRegisters.setRd CpuRegisters.setRdAt
  split
  · exact h
  · exact h.setLane r.rd hv

theorem setRt (h : r.Canonical) {v : U64} (hv : SignExtended 32 v) : (r.setRt v).Canonical := by
  unfold CpuRegisters.setRt
  split
  · exact h
  · exact h.setLane r.rt hv

/-- The registers start canonical. -/
theorem zeroed (pc : U32) : (CpuRegisters.zeroed pc).Canonical :=
  ⟨fun _ => canonicalReg_zero, canonicalReg_zero, canonicalReg_zero⟩

/-- Control state does not matter. -/
theorem congr {r' : CpuRegisters} (h : r.Canonical) (hG : r'.GPR = r.GPR) (hH : r'.HI = r.HI)
    (hL : r'.LO = r.LO) : r'.Canonical where
  GPR i := by rw [hG]; exact h.GPR i
  HI := by rw [hH]; exact h.HI
  LO := by rw [hL]; exact h.LO

end CpuRegisters.Canonical

/-! ### The values the handlers compute -/

/-- The result of a comparison is sign-extended. -/
theorem truth_signExtended (b : Bool) : SignExtended 32 (truth b) := by
  cases b <;> (unfold SignExtended; decide)

/-- So is any word that was extended. -/
theorem word_signExtended (x : U32) : SignExtended 32 (x.signExtend 64) :=
  .signExtend x (by decide) (by decide)

/-- `_ImmU_` is a halfword. -/
theorem immU_signExtended (r : CpuRegisters) : SignExtended 32 (r.immU.setWidth 64) := by
  rw [SignExtended.setWidth_iff (by decide) (by decide)]
  unfold CpuRegisters.immU
  rw [BitVec.msb_eq_getLsbD_last, BitVec.getLsbD_and]
  simp

/-- The return address of an instruction that could be fetched is positive. -/
theorem link_canonical (o : BranchOp) {r : CpuRegisters} (h : r.Canonical)
    (hpc : (r.pc + 4).msb = false) : (o.link r).Canonical := by
  rcases o.link_cases r with hl | ⟨i, -, hl⟩
  · rw [hl]; exact h
  · rw [hl]
    exact h.setLane i ((SignExtended.setWidth_iff (by decide) (by decide)).mpr hpc)

/-! ### The 32-bit fragment -/

/-- The register handlers of the fragment. -/
def RegOp.in32 : RegOp → Bool
  | ADD | ADDU | SUB | SUBU | ADDI | ADDIU | LUI | AND | OR | XOR | NOR | ANDI | ORI | XORI | SLT
  | SLTI | SLTU | SLTIU | SLL | SRL | SRA | SLLV | SRLV | SRAV | MULT | MULTU | DIV | DIVU | MFHI
  | MFLO | MTHI | MTLO | MOVZ | MOVN => true
  | _ => false

/-- The loads and stores of the fragment. -/
def MemOp.in32 : MemOp → Bool
  | LB | LBU | LH | LHU | LW | SB | SH | SW => true
  | _ => false

/-- The fragment. A system call or a coprocessor word outside the supported ones does not return. -/
def Op.in32 : Op → Bool
  | register o => o.in32
  | memory o => o.in32
  | branch _ | COP0 | SYSCALL => true
  | _ => false

/-- The operands of a `DIVU` whose results are below `2 ^ 31`. -/
def TameDivision (n d : U32) : Prop :=
  d = 0 ∨ n.toNat < 2 ^ 31 ∨ (1 < d.toNat ∧ d.toNat ≤ n.toNat)

/-- The condition under which an instruction of the fragment keeps registers canonical. -/
def CpuRegisters.Tame (r : CpuRegisters) : Prop :=
  match decode r.code with
  | .register .DIVU => TameDivision (UL 0 (r.GPR r.rs)) (UL 0 (r.GPR r.rt))
  | .COP0 => r.code = 0x40106000 → UL 1 (r.GPR Handler.s0) = 0
  | .SYSCALL => Handler.callNumber r = 0x3e → UL 1 (r.GPR Handler.v0) = 0
  | _ => True

/-- An unsigned division is tame exactly if neither result has its top bit set. -/
theorem tameDivision_iff {n d : U32} (hd : d ≠ 0) :
    TameDivision n d ↔ (n / d).msb = false ∧ (n % d).msb = false := by
  have hd0 : 0 < d.toNat := by
    have : d.toNat ≠ (0 : U32).toNat := fun h => hd (BitVec.eq_of_toNat_eq h)
    exact Nat.pos_of_ne_zero this
  have hn := n.isLt
  unfold TameDivision
  -- As a statement about numbers.
  simp only [hd, false_or, BitVec.msb_eq_decide, BitVec.toNat_udiv, BitVec.toNat_umod,
    decide_eq_false_iff_not, Nat.not_le]
  change n.toNat < 2 ^ 31 ∨ _ ↔ n.toNat / d.toNat < 2 ^ 31 ∧ n.toNat % d.toNat < 2 ^ 31
  have hdiv := Nat.div_add_mod n.toNat d.toNat
  have hmod := Nat.mod_lt n.toNat hd0
  -- A dividend below `2 ^ 31` bounds both results.
  constructor
  · rintro (hsmall | ⟨hd1, hdn⟩)
    · exact ⟨lt_of_le_of_lt (Nat.div_le_self _ _) hsmall, lt_of_le_of_lt (Nat.mod_le _ _) hsmall⟩
    · -- With `1 < d ≤ n` either result is at most half of the dividend.
      have hq : n.toNat / d.toNat ≤ n.toNat / 2 := Nat.div_le_div_left hd1 (by decide)
      have hq1 : 1 ≤ n.toNat / d.toNat := Nat.div_pos hdn hd0
      have hmul : d.toNat * 1 ≤ d.toNat * (n.toNat / d.toNat) := Nat.mul_le_mul_left _ hq1
      exact ⟨by omega, by omega⟩
  · -- If it is not, one of the results is too large.
    rintro ⟨hq, hr⟩
    by_contra hbad
    push Not at hbad
    obtain ⟨hbig, hout⟩ := hbad
    by_cases hd1 : 1 < d.toNat
    · -- The divisor is larger, and the remainder is the dividend.
      have hlt := hout hd1
      rw [Nat.mod_eq_of_lt hlt] at hr
      omega
    · -- The divisor is one, and the quotient is the dividend.
      have hone : d.toNat = 1 := by omega
      rw [hone, Nat.div_one] at hq
      omega

/-! ### Computations -/

section Register

variable {r r' : CpuRegisters}

open Handler

/-- A product is stored as two extended words. -/
theorem storeProduct_canonical (h : r.Canonical) (res : U64) :
    (storeProduct r 0 res).Canonical := by
  have hlo : SignExtended 32 (UD 0 ((r.setLOLane 0 ((res.setWidth 32).signExtend 64)).setHILane 0
      (((res >>> 32).setWidth 32).signExtend 64)).LO) := by
    change SignExtended 32 (UD 0 (Lanes.setLane 0 ((res.setWidth 32).signExtend 64) r.LO))
    rw [UD_setLane]
    exact word_signExtended _
  exact ((h.setLOLane (word_signExtended _)).setHILane (word_signExtended _)).setRd hlo

/-- So are quotient and remainder. -/
theorem DIV_canonical (h : r.Canonical) (hrun : DIV r = some r') : r'.Canonical := by
  dsimp only [DIV, divideInto] at hrun
  split at hrun
  · cases hrun; exact h
  · split at hrun
    · cases hrun
      exact (h.setLOLane (word_signExtended _)).setHILane (word_signExtended _)
    · cases hrun

/-- `DIVU` keeps registers canonical exactly on tame operands. -/
theorem DIVU_canonical (h : r.Canonical) :
    (DIVU r).Canonical ↔ TameDivision (UL 0 (r.GPR r.rs)) (UL 0 (r.GPR r.rt)) := by
  dsimp only [DIVU, divideIntoU]
  -- A division by zero writes nothing.
  by_cases hd : UL 0 (r.GPR r.rt) = 0
  · rw [if_pos hd]
    exact ⟨fun _ => .inl hd, fun _ => h⟩
  · rw [if_neg hd, tameDivision_iff hd]
    constructor
    · -- Both results are stored zero-extended.
      intro hc
      have hlo := canonicalReg_iff.mp hc.LO
      have hhi := canonicalReg_iff.mp hc.HI
      change SignExtended 32 (UD 0 (Lanes.setLane 0 _ r.LO)) at hlo
      change SignExtended 32 (UD 0 (Lanes.setLane 0 _ r.HI)) at hhi
      rw [UD_setLane, SignExtended.setWidth_iff (by decide) (by decide)] at hlo hhi
      exact ⟨hlo, hhi⟩
    · -- Extended by zeros or by the sign, a non-negative word is the same.
      rintro ⟨hq, hr⟩
      have hq' : SignExtended 32 ((UL 0 (r.GPR r.rs) / UL 0 (r.GPR r.rt)).setWidth 64) :=
        (SignExtended.setWidth_iff (by decide) (by decide)).mpr hq
      have hr' : SignExtended 32 ((UL 0 (r.GPR r.rs) % UL 0 (r.GPR r.rt)).setWidth 64) :=
        (SignExtended.setWidth_iff (by decide) (by decide)).mpr hr
      exact (h.setLOLane hq').setHILane hr'

/-- A conditional move copies a canonical register. -/
theorem move_canonical (h : r.Canonical) {c : Prop} [Decidable c] :
    (if r.rd = 0 then r else if c then r.setLane r.rd 0 (UD 0 (r.GPR r.rs)) else r).Canonical := by
  split
  · exact h
  · split
    · exact h.setLane r.rd (h.ud r.rs)
    · exact h

/-- Every computation of the fragment but `DIVU` keeps registers canonical. -/
theorem RegOp.run_canonical {o : RegOp} (ho : o.in32 = true) (hne : o ≠ .DIVU) (h : r.Canonical)
    (hrun : o.run r = some r') : r'.Canonical := by
  cases o with
  | ADDI | ADDIU | LUI => cases hrun; exact h.setRt (word_signExtended _)
  | SLTI | SLTIU => cases hrun; exact h.setRt (truth_signExtended _)
  -- The immediate has no sign, so its extension is that by zeros.
  | ANDI => cases hrun; exact h.setRt ((h.ud _).and (by decide) (immU_signExtended r))
  | ORI => cases hrun; exact h.setRt ((h.ud _).or (by decide) (immU_signExtended r))
  | XORI => cases hrun; exact h.setRt ((h.ud _).xor (by decide) (immU_signExtended r))
  | ADD | ADDU | SUB | SUBU | SLL | SRL | SRA | SLLV | SRLV | SRAV =>
    cases hrun; exact h.setRd (word_signExtended _)
  | SLT | SLTU => cases hrun; exact h.setRd (truth_signExtended _)
  | AND => cases hrun; exact h.setRd ((h.ud _).and (by decide) (h.ud _))
  | OR => cases hrun; exact h.setRd ((h.ud _).or (by decide) (h.ud _))
  | XOR => cases hrun; exact h.setRd ((h.ud _).xor (by decide) (h.ud _))
  | NOR => cases hrun; exact h.setRd (((h.ud _).or (by decide) (h.ud _)).not (by decide))
  | MULT | MULTU => cases hrun; exact storeProduct_canonical h _
  | DIV => exact DIV_canonical h hrun
  | DIVU => exact absurd rfl hne
  -- Moves copy a canonical doubleword.
  | MFHI => cases hrun; exact h.setRd (canonicalReg_iff.mp h.HI)
  | MFLO => cases hrun; exact h.setRd (canonicalReg_iff.mp h.LO)
  | MTHI => cases hrun; exact h.setHILane (h.ud _)
  | MTLO => cases hrun; exact h.setLOLane (h.ud _)
  | MOVZ | MOVN => cases hrun; exact move_canonical h
  | _ => cases ho

end Register

/-! ### Loads and stores -/

section Memory

variable {report : U32 → M Unit} {s s' : Machine}

/-- A load assigns to `rt` and changes no other register. -/
theorem load_cpu {α : Type} {read : U32 → M α} {addr : CpuRegisters → U32} {ext : α → U64}
    {u : Unit}
    (hread : ∀ mem, (read mem).Within ReadOnly)
    (h : (do let val ← read (addr (← cpu)); Handler.loadRt (ext val)) s = .ok u s') :
    ∃ val, s'.cpu = s.cpu.setRt (ext val) := by
  rw [cpu_bind] at h
  obtain ⟨val, s₁, h₁, h₂⟩ := Prog.bind_eq_ok.mp h
  cases h₂
  refine ⟨val, ?_⟩
  change s₁.cpu.setRt (ext val) = _
  rw [(hread _ h₁).cpu]

/-- A load whose extension is canonical for every value it may read. -/
theorem load_canonical {α : Type} {read : U32 → M α} {addr : CpuRegisters → U32} {ext : α → U64}
    {u : Unit} (hread : ∀ mem, (read mem).Within ReadOnly)
    (hext : ∀ val, SignExtended 32 (ext val)) (hc : s.cpu.Canonical)
    (h : (do let val ← read (addr (← cpu)); Handler.loadRt (ext val)) s = .ok u s') :
    s'.cpu.Canonical := by
  obtain ⟨val, hcpu⟩ := load_cpu hread h
  rw [hcpu]
  exact hc.setRt (hext val)

/-- Loads extend what they read, and stores write no register. -/
theorem MemOp.run_canonical {host : Host} {o : MemOp} (ho : o.in32 = true) (h : s.cpu.Canonical)
    (hrun : o.run host report s = .ok () s') : s'.cpu.Canonical := by
  cases o with
  | LB =>
    exact load_canonical memRead8_readOnly
      (fun val => .signExtend val (by decide) (by decide)) h hrun
  | LBU =>
    exact load_canonical memRead8_readOnly (fun val => .setWidth val (by decide)) h hrun
  | LH =>
    exact load_canonical (fun mem => readFrom_readOnly mem 0 2 0)
      (fun val => .signExtend val (by decide) (by decide)) h hrun
  | LHU =>
    exact load_canonical (fun mem => readFrom_readOnly mem 0 2 0)
      (fun val => .setWidth val (by decide)) h hrun
  | LW =>
    -- Of the loads with zero extension only those narrower than a word are in the fragment.
    exact load_canonical (fun mem => readFrom_readOnly mem 0 4 0) word_signExtended h hrun
  | SB =>
    obtain ⟨m, -, rfl⟩ := memWrite8_eq_ok.mp hrun
    -- Stores leave the registers alone.
    exact h
  | SH => rw [writeFrom_cpu _ _ 2 0 hrun]; exact h
  | SW => rw [writeFrom_cpu _ _ 4 0 hrun]; exact h
  | _ => cases ho

end Memory

/-! ### One instruction -/

/-- Writing a non-negative value to the low word keeps registers canonical exactly if the upper word
was zero. -/
theorem setLowWord_canonical {r : CpuRegisters} (h : r.Canonical) (i : Reg) {u : U32}
    (hu : u.msb = false) : (r.setLane i 0 u).Canonical ↔ UL 1 (r.GPR i) = 0 := by
  have hreg : CanonicalReg (Lanes.setLane 0 u (r.GPR i)) ↔ UL 1 (r.GPR i) = 0 :=
    canonicalReg_iff.trans (signExtended_setLane_low (w := 32) (by decide) (by decide) hu (r.GPR i))
  rw [← hreg]
  -- Only register `i` changes, so the others have no say.
  constructor
  · intro hc
    have hi := hc.GPR i
    unfold CpuRegisters.setLane at hi
    rwa [CpuRegisters.setGPR_GPR_self] at hi
  · intro hc
    refine ⟨fun j => ?_, h.HI, h.LO⟩
    unfold CpuRegisters.setLane
    rw [CpuRegisters.setGPR_GPR]
    split
    · exact hc
    · exact h.GPR j

/-- **One instruction.** An instruction of the fragment that is not a taken branch, run on canonical
registers, leaves canonical registers exactly if it is tame. -/
theorem Op.run_canonical {host : Host} {report : U32 → M Unit} {execI : M Unit} {s s' : Machine}
    (hfrag : (decode s.cpu.code).in32 = true) (hc : s.cpu.Canonical)
    (hpc : (s.cpu.pc + 4).msb = false) (stop : s.cpu.takenBranch = none)
    (hrun : (decode s.cpu.code).run host report execI s = .ok () s') :
    s'.cpu.Canonical ↔ s.cpu.Tame := by
  unfold CpuRegisters.Tame
  cases hd : decode s.cpu.code with
  | register o =>
    rw [hd] at hrun hfrag
    obtain ⟨r, hr, rfl⟩ := modifyCpu?_eq_ok.mp hrun
    by_cases hdivu : o = .DIVU
    · subst hdivu
      obtain rfl := Option.some.inj hr
      exact DIVU_canonical hc
    · -- For every other computation `Tame` asks nothing.
      have hcanon := RegOp.run_canonical hfrag hdivu hc hr
      cases o <;> first | exact absurd rfl hdivu | exact ⟨fun _ => trivial, fun _ => hcanon⟩
  | memory o =>
    rw [hd] at hrun hfrag
    exact ⟨fun _ => trivial, fun _ => o.run_canonical hfrag hc hrun⟩
  | branch o =>
    rw [hd] at hrun
    -- The branch is not taken; it may still have set its link.
    have hskip : o.taken s.cpu = false := by
      rw [takenBranch_of_branch hd] at stop
      by_contra htaken
      rw [if_pos (by simpa using htaken)] at stop
      cases stop
    change o.run execI s = _ at hrun
    rw [BranchOp.run_eq, if_neg (by rw [hskip]; decide)] at hrun
    cases hrun
    refine ⟨fun _ => trivial, fun _ => ?_⟩
    change (o.skip s.cpu).Canonical
    unfold BranchOp.skip
    split
    · exact (link_canonical o hc hpc).congr rfl rfl rfl
    · exact link_canonical o hc hpc
  | COP0 =>
    rw [hd] at hrun
    rcases COP0_eq_ok hrun with ⟨rfl, hcode⟩ | ⟨rfl, hcode⟩
    · -- `mfc0 s0, Status`
      rw [setLowWord_canonical hc Handler.s0 (by decide)]
      exact ⟨fun h _ => h, fun h => h hcode⟩
    · -- `EI` and `DI`
      refine ⟨fun _ hmfc => ?_, fun _ => hc⟩
      rcases hcode with hcode | hcode <;> exact absurd (hmfc.symm.trans hcode) (by decide)
  | SYSCALL =>
    rw [hd] at hrun
    rw [(SYSCALL_eq_ok hrun).cpu]
    split
    · -- the end of the heap in `v0`
      rename_i hcall
      rw [setLowWord_canonical hc Handler.v0 (by decide)]
      exact ⟨fun h _ => h, fun h => h hcall⟩
    · rename_i hcall
      exact ⟨fun _ h => absurd h hcall, fun _ => hc⟩
  | BREAK => rw [hd] at hfrag; cases hfrag
  | UnknownOpcode => rw [hd] at hfrag; cases hfrag
  | MMI_Unknown => rw [hd] at hfrag; cases hfrag

/-! ### One call -/

/-- The return address an instruction of a chain would set is positive: it was fetched from an
address below the end of the copy window. -/
theorem DelayChain.link_pos {memory : Fin MEMSIZE → U8} {r last : CpuRegisters}
    {branches : List CpuRegisters} (h : DelayChain memory r branches last) :
    ∀ x ∈ branches ++ [last], (x.pc + 4).msb = false := by
  intro x hx
  have hlt := fetchWord_lt (h.word hx)
  have hpc : x.pc + 4 = x.pc - 4 + 8#32 := by
    rw [show (8#32 : U32) = 4 + 4 from rfl, ← BitVec.add_assoc, BitVec.sub_add_cancel]
  have height : (8#32 : U32).toNat = 8 := rfl
  rw [hpc, BitVec.msb_eq_decide, decide_eq_false_iff_not, BitVec.toNat_add, height]
  omega

/-- From canonical registers, every instruction of a chain is dispatched with canonical registers.
-/
theorem DelayChain.canonical {memory : Fin MEMSIZE → U8} {r last : CpuRegisters}
    {branches : List CpuRegisters} (h : DelayChain memory r branches last) (hc : r.Canonical) :
    ∀ x ∈ branches ++ [last], x.Canonical := by
  -- Between two instructions of a chain only a link is written, and links are positive.
  induction h with
  -- The last instruction is dispatched with the registers as they are.
  | last word stop =>
    intro x hx
    obtain rfl := List.mem_singleton.mp hx
    exact hc.congr rfl rfl rfl
  | @branch r last code o branches word take rest ih =>
    have hcode : (r.dispatch code).Canonical := hc.congr rfl rfl rfl
    have hlink := link_canonical o hcode
      ((DelayChain.branch word take rest).link_pos _ List.mem_cons_self)
    intro x hx
    rcases List.mem_cons.mp hx with rfl | hx
    · exact hcode
    · exact ih (hlink.congr rfl rfl rfl) x hx

/-- **One call.** A call of the fragment from canonical registers ends with canonical registers
exactly if the last instruction of its chain is tame. -/
theorem Call.canonical_iff {host : Host} {s s' : Machine} {branches : List CpuRegisters}
    {last : CpuRegisters} (h : Call host s s' branches last) (hc : s.cpu.Canonical)
    (hfrag : (decode last.code).in32 = true) : s'.cpu.Canonical ↔ last.Tame := by
  have hmem : last ∈ branches ++ [last] := by simp
  -- What the call leaves in the registers is what the last instruction left there.
  obtain ⟨s₀, s₁, report, execI, rfl, -, hrun, hG, hH, hL, -⟩ := h.effect
  have hstep := Op.run_canonical hfrag (h.chain.canonical hc _ hmem) (h.chain.link_pos _ hmem)
    h.chain.stop hrun
  rw [← hstep]
  exact ⟨fun h' => h'.congr hG.symm hH.symm hL.symm, fun h' => h'.congr hG hH hL⟩

/-! ### Runs -/

/-- A returning call all of whose instructions are in the fragment. -/
def FragmentStep (host : Host) (s s' : Machine) : Prop :=
  Returns host s s' ∧ ∀ branches last, DelayChain s.memory s.cpu branches last →
    ∀ x ∈ branches ++ [last], (decode x.code).in32 = true

/-- A returning call of the fragment all of whose instructions are tame. -/
def TameStep (host : Host) (s s' : Machine) : Prop :=
  FragmentStep host s s' ∧ ∀ branches last, DelayChain s.memory s.cpu branches last →
    ∀ x ∈ branches ++ [last], x.Tame

/-- The comparisons of the branches and of `SLT` and `SLTU` decide as on the low words. -/
def CpuRegisters.ComparesAs32 (r : CpuRegisters) : Prop :=
  ∀ i j, (UD 0 (r.GPR i) = UD 0 (r.GPR j) ↔ UL 0 (r.GPR i) = UL 0 (r.GPR j)) ∧
    (UD 0 (r.GPR i)).slt (UD 0 (r.GPR j)) = (UL 0 (r.GPR i)).slt (UL 0 (r.GPR j)) ∧
    (UD 0 (r.GPR i)).ult (UD 0 (r.GPR j)) = (UL 0 (r.GPR i)).ult (UL 0 (r.GPR j)) ∧
    (UD 0 (r.GPR i)).sle 0 = (UL 0 (r.GPR i)).sle 0 ∧
    (UD 0 (r.GPR i)).slt 0 = (UL 0 (r.GPR i)).slt 0

/-- Canonical registers compare as words. -/
theorem CpuRegisters.Canonical.comparesAs32 {r : CpuRegisters} (h : r.Canonical) :
    r.ComparesAs32 := by
  intro i j
  -- The low word is the doubleword narrowed, and has the same signed value.
  have hlow : ∀ i, (UD 0 (r.GPR i)).setWidth 32 = UL 0 (r.GPR i) :=
    fun i => setWidth_lane_zero (r.GPR i) (by decide)
  have hint : ∀ i, (UD 0 (r.GPR i)).toInt = (UL 0 (r.GPR i)).toInt := by
    intro i
    rw [(h.ud i).toInt_eq (by decide), hlow]
  refine ⟨?_, ?_, ?_, ?_, ?_⟩
  · -- Equality, the comparisons of two registers, and those with zero.
    rw [(h.ud i).eq_iff (h.ud j), hlow, hlow]
  · rw [BitVec.slt_eq_decide, BitVec.slt_eq_decide, hint, hint]
  · rw [(h.ud i).ult_eq (by decide) (h.ud j), hlow, hlow]
  · rw [BitVec.sle_eq_decide, BitVec.sle_eq_decide, hint]
    rfl
  · rw [BitVec.slt_eq_decide, BitVec.slt_eq_decide, hint]
    rfl

/-- A tame call keeps registers canonical. -/
theorem TameStep.canonical {host : Host} {s s' : Machine} (h : TameStep host s s')
    (hc : s.cpu.Canonical) : s'.cpu.Canonical := by
  obtain ⟨⟨hret, hfrag⟩, htame⟩ := h
  obtain ⟨branches, last, hcall⟩ := hret.exec.call
  have hmem : last ∈ branches ++ [last] := by simp
  exact (hcall.canonical_iff hc (hfrag _ _ hcall.chain _ hmem)).mpr (htame _ _ hcall.chain _ hmem)

/-- **Canonical 32-bit results.** In every run from zeroed registers whose calls execute tame
instructions of the fragment, every register is the sign extension of its low word in every state
reached, and at every dispatch of the next call; there the 64-bit comparisons decide as 32-bit ones.
-/
theorem canonical_of_tame {host : Host} {memory : Fin MEMSIZE → U8} {pc : U32} {trace : Bool}
    {s : Machine}
    (h : Relation.ReflTransGen (TameStep host) (Machine.start memory pc trace) s) :
    s.cpu.Canonical ∧ s.cpu.ComparesAs32 ∧
    ∀ branches last, DelayChain s.memory s.cpu branches last →
      ∀ x ∈ branches ++ [last], x.Canonical ∧ x.ComparesAs32 := by
  have hc : s.cpu.Canonical :=
    Prog.invariant_reflTransGen (I := fun s => s.cpu.Canonical)
      (fun s s' hstep hs => hstep.canonical hs) h (.zeroed pc)
  refine ⟨hc, hc.comparesAs32, fun branches last hchain x hx => ?_⟩
  have hx' := hchain.canonical hc x hx
  exact ⟨hx', hx'.comparesAs32⟩

/-- A call of a single instruction of the fragment. -/
theorem fragmentStep_of_last {host : Host} {s s' : Machine} {code : U32} (h : Returns host s s')
    (word : fetchWord s.memory s.cpu.pc = some code)
    (stop : (s.cpu.dispatch code).takenBranch = none) (hfrag : (decode code).in32 = true) :
    FragmentStep host s s' := by
  refine ⟨h, fun branches last hchain x hx => ?_⟩
  obtain ⟨rfl, rfl⟩ := (DelayChain.last word stop).unique hchain
  obtain rfl := List.mem_singleton.mp hx
  exact hfrag

/-- A call of a single tame instruction of the fragment. -/
theorem tameStep_of_last {host : Host} {s s' : Machine} {code : U32} (h : Returns host s s')
    (word : fetchWord s.memory s.cpu.pc = some code)
    (stop : (s.cpu.dispatch code).takenBranch = none) (hfrag : (decode code).in32 = true)
    (htame : (s.cpu.dispatch code).Tame) : TameStep host s s' := by
  refine ⟨fragmentStep_of_last h word stop hfrag, fun branches last hchain x hx => ?_⟩
  obtain ⟨rfl, rfl⟩ := (DelayChain.last word stop).unique hchain
  obtain rfl := List.mem_singleton.mp hx
  exact htame

/-- After `lui v0, 0x8000` the register holds a negative word, sign-extended. -/
theorem canonical_of_tame_lui : ∃ s : Machine,
    UL 0 (s.cpu.GPR Handler.v0) = 0x80000000 ∧ s.cpu.Canonical ∧ s.cpu.ComparesAs32 := by
  have hret : Returns .flat (Machine.start (program 0x100 [0x3c028000]) 0x100 false) _ :=
    ⟨0, 1, rfl⟩
  have htame := @tameStep_of_last _ _ _ 0x3c028000 hret rfl rfl rfl trivial
  obtain ⟨hc, hcmp, -⟩ := canonical_of_tame (.single htame)
  exact ⟨_, by decide, hc, hcmp⟩

/-- `lui v0, 0x8000; li v1, 1; divu v0, v1`. -/
def divuProgram : Machine :=
  Machine.start (program 0x100 [0x3c028000, 0x24030001, 0x0043001b]) 0x100 false

/-- Without the condition: `lui v0, 0x8000; li v1, 1; divu v0, v1` leaves `LO` zero-extended. -/
theorem not_canonical_DIVU :
    ¬∀ (host : Host) (memory : Fin MEMSIZE → U8) (pc : U32) (trace : Bool) (s : Machine),
      Relation.ReflTransGen (FragmentStep host) (Machine.start memory pc trace) s →
      s.cpu.Canonical := by
  intro hall
  -- Three instructions that are no branches, each a call of its own.
  have h₁ : FragmentStep .flat divuProgram divuProgram.next :=
    @fragmentStep_of_last _ _ _ 0x3c028000 ⟨0, 1, rfl⟩ rfl rfl rfl
  have h₂ : FragmentStep .flat divuProgram.next divuProgram.next.next :=
    @fragmentStep_of_last _ _ _ 0x24030001 ⟨0, 1, rfl⟩ rfl rfl rfl
  have h₃ : FragmentStep .flat divuProgram.next.next divuProgram.next.next.next :=
    @fragmentStep_of_last _ _ _ 0x0043001b ⟨0, 1, rfl⟩ rfl rfl rfl
  have hc := hall .flat _ 0x100 false _
    (((Relation.ReflTransGen.single h₁).tail h₂).tail h₃)
  exact absurd hc.LO (by unfold CanonicalReg; decide)

end Ps2Unpacker
