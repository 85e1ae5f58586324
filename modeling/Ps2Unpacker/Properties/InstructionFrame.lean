import Ps2Unpacker.Properties.StoreTags
import Ps2Unpacker.Semantics.Decode
import Ps2Unpacker.Semantics.DelayChain
import Ps2Unpacker.Semantics.PartialStores

/-!
# The frame of the 64-bit instructions

The instructions outside the multimedia group are those of a 64-bit processor: the registers are 128
bits wide, and they write the low half of one of them, of `HI` or of `LO`. Only `LQ` loads a whole
register.

* `Op.destination`, `Op.writesHiLo`, `Op.storesTo`: what an instruction may change.
* `RegOp.run_touches`, `MemOp.run_touches`, `MemOp.run_stores`: it changes nothing else.
* `instruction_frame`: the same for a call of the interpreter.
-/

namespace Ps2Unpacker

open CProg Lanes

/-! ### What an instruction may change -/

/-- The general register a computation writes: `rt` with an immediate operand, else `rd`. -/
def RegOp.destination : RegOp → CpuRegisters → Option Reg
  | ADDI, r | ADDIU, r | SLTI, r | SLTIU, r | ANDI, r | ORI, r | XORI, r | LUI, r | DADDI, r
  | DADDIU, r => some r.rt
  | DIV, _ | DIVU, _ | MTHI, _ | MTLO, _ => none
  | _, r => some r.rd

def RegOp.writesHiLo : RegOp → Bool
  | MULT | MULTU | DIV | DIVU | MTHI | MTLO => true
  | _ => false

/-- The general register an instruction writes. -/
def Op.destination : Op → CpuRegisters → Option Reg
  | register o, r => o.destination r
  | memory o, r => if o.isStore then none else some r.rt
  | COP0, r => if r.code = 0x40106000 then some Handler.s0 else none
  | SYSCALL, _ => some Handler.v0
  | _, _ => none

def Op.writesHiLo : Op → Bool
  | register o => o.writesHiLo
  | _ => false

/-- The instruction is a store, and `m` is one of the bytes it addresses. -/
def Op.storesTo : Op → CpuRegisters → Fin MEMSIZE → Prop
  | memory o, r, m => (o.extent r).Stored m
  | _, _, _ => False

/-- From `r` to `r'` nothing but the low halves of the register `dest`, and of `HI` and `LO` if
`hiLo`, has changed, as far as general registers, `HI`, `LO`, `sa` and `CP0` go. -/
structure Touches (dest : Option Reg) (hiLo : Bool) (r r' : CpuRegisters) : Prop where
  GPR : ∀ i, dest ≠ some i → r'.GPR i = r.GPR i
  upper : ∀ i, UD 1 (r'.GPR i) = UD 1 (r.GPR i)
  HI : hiLo = false → r'.HI = r.HI
  LO : hiLo = false → r'.LO = r.LO
  upperHI : UD 1 r'.HI = UD 1 r.HI
  upperLO : UD 1 r'.LO = UD 1 r.LO
  sa : r'.sa = r.sa
  CP0 : r'.CP0 = r.CP0

namespace Touches

open CpuRegisters

variable {dest : Option Reg} {hiLo : Bool} {r r' : CpuRegisters} {i : Reg}

theorem refl (dest : Option Reg) (hiLo : Bool) (r : CpuRegisters) : Touches dest hiLo r r :=
  ⟨fun _ _ => rfl, fun _ => rfl, fun _ => rfl, fun _ => rfl, rfl, rfl, rfl, rfl⟩

/-- A write to the low half of the destination. -/
theorem setLane (h : Touches (some i) hiLo r r') {w : Nat} (hw : w ≤ 64) (v : BitVec w) :
    Touches (some i) hiLo r (r'.setLane i 0 v) where
  GPR j hj := by
    have hne : j ≠ i := fun heq => hj (congrArg some heq.symm)
    exact (setGPR_GPR_of_ne _ r' hne).trans (h.GPR j hj)
  upper j := (lane_GPR_setLane r' i j 0 1 v (.inr (by omega))).trans (h.upper j)
  HI := h.HI
  LO := h.LO
  upperHI := h.upperHI
  upperLO := h.upperLO
  sa := h.sa
  CP0 := h.CP0

theorem setHILane (h : Touches dest true r r') (v : U64) : Touches dest true r (r'.setHILane 0 v) :=
  { h with
    HI := fun hfalse => Bool.noConfusion hfalse
    upperHI := (lane_setLane_of_ne v r'.HI (by decide)).trans h.upperHI }

theorem setLOLane (h : Touches dest true r r') (v : U64) : Touches dest true r (r'.setLOLane 0 v) :=
  { h with
    LO := fun hfalse => Bool.noConfusion hfalse
    upperLO := (lane_setLane_of_ne v r'.LO (by decide)).trans h.upperLO }

/-- Writes to the low half of `rd` and of `rt`. -/
theorem setRd (h : Touches (some r.rd) hiLo r r') (hrd : r'.rd = r.rd) (v : U64) :
    Touches (some r.rd) hiLo r (r'.setRd v) := by
  unfold CpuRegisters.setRd CpuRegisters.setRdAt
  split
  · exact h
  · rw [hrd]
    exact h.setLane (Nat.le_refl 64) v

theorem setRt (r : CpuRegisters) (v : U64) : Touches (some r.rt) false r (r.setRt v) := by
  unfold CpuRegisters.setRt
  split
  · exact refl _ _ r
  · exact (refl _ _ r).setLane (Nat.le_refl 64) v

/-- The tail of the multiplications. -/
theorem storeProduct (r : CpuRegisters) (res : U64) :
    Touches (some r.rd) true r (Handler.storeProduct r 0 res) :=
  setRd (((refl _ true r).setLOLane _).setHILane _) rfl _

/-- The conditional moves. -/
theorem move (r : CpuRegisters) {c : Prop} [Decidable c] (v : U64) :
    Touches (some r.rd) false r
      (if r.rd = 0 then r else if c then r.setLane r.rd 0 v else r) := by
  split
  · exact refl _ _ r
  · split
    · exact (refl _ _ r).setLane (Nat.le_refl 64) v
    · exact refl _ _ r

/-- Divisions, with a sign and without. -/
theorem divideInto (h : Handler.divideInto r 0 0 = some r') : Touches none true r r' := by
  dsimp only [Handler.divideInto] at h
  split at h
  · cases h
    exact refl _ _ r
  · split at h
    · cases h
      exact ((refl _ _ r).setLOLane _).setHILane _
    · cases h

theorem divideIntoU (r : CpuRegisters) : Touches none true r (Handler.divideIntoU r 0 0) := by
  dsimp only [Handler.divideIntoU]
  split
  · exact refl _ _ r
  · exact ((refl _ _ r).setLOLane _).setHILane _

end Touches

/-! ### Computations -/

/-- **Computations** outside the multimedia tables write the low half of their destination, and `HI`
and `LO` only if they multiply, divide or move to them. -/
theorem RegOp.run_touches {o : RegOp} (ho : (Op.register o).inMMI = false) {r r' : CpuRegisters}
    (h : o.run r = some r') : Touches (o.destination r) o.writesHiLo r r' := by
  have hrefl := Touches.refl (some r.rd) false r
  cases o with
  -- an assignment to `rt`
  | ADDI | ADDIU | SLTI | SLTIU | ANDI | ORI | XORI | LUI | DADDI | DADDIU =>
    cases h; exact .setRt r _
  -- an assignment to `rd`
  | SLL | SRL | SRA | SLLV | SRLV | SRAV | DSLLV | DSRLV | DSRAV | DSLL | DSRL | DSRA | DSLL32
  | DSRL32 | DSRA32 | MFHI | MFLO | ADD | ADDU | SUB | SUBU | AND | OR | XOR | NOR
  | SLT | SLTU | DADD | DADDU | DSUB | DSUBU =>
    cases h; exact hrefl.setRd rfl _
  | MOVZ | MOVN => cases h; exact .move r _
  -- `HI` and `LO`
  | MTHI => cases h; exact (Touches.refl none true r).setHILane _
  | MTLO => cases h; exact (Touches.refl none true r).setLOLane _
  | MULT | MULTU => cases h; exact .storeProduct r _
  | DIV => exact .divideInto h
  | DIVU => cases h; exact .divideIntoU r
  -- The others are multimedia instructions.
  | _ => cases ho

/-! ### Loads -/

section Memory

variable {host : Host} {report : U32 → M Unit} {s s' : Machine}

/-- The effect of a load. -/
def Loaded (s s' : Machine) : Prop :=
  Touches (some s.cpu.rt) false s.cpu s'.cpu ∧ s'.memory = s.memory

/-- A load that extends the value it read. -/
theorem load_loaded {α : Type} {addr : CpuRegisters → U32} {read : U32 → M α} {ext : α → U64}
    (hread : ∀ mem, (read mem).Within ReadOnly)
    (h : (do let val ← read (addr (← cpu)); Handler.loadRt (ext val)) s = .ok () s') :
    Loaded s s' := by
  rw [cpu_bind] at h
  obtain ⟨v, s₁, h₁, h₂⟩ := Prog.bind_eq_ok.mp h
  have hro := hread _ h₁
  cases h₂
  refine ⟨?_, hro.memory⟩
  -- The value goes into the registers that the read has left alone.
  change Touches _ _ _ (s₁.cpu.setRt (ext v))
  rw [hro.cpu]
  exact .setRt s.cpu _

/-- A load that merges the value it read into `rt`. -/
theorem merge_loaded {w : Nat} {addr : CpuRegisters → U32}
    {merge : CpuRegisters → BitVec w → CpuRegisters → U64} (n : Nat)
    (h : (do let r ← cpu
             if r.rt = 0 then pure ()
             else do
               let mem ← readFrom report (addr r) 0 n (0 : BitVec w)
               modifyCpu fun r' => r'.setLane r'.rt 0 (merge r mem r')) s = .ok () s') :
    Loaded s s' := by
  rw [cpu_bind] at h
  split at h
  · -- With `rt = 0` nothing is read.
    obtain ⟨-, rfl⟩ := Prog.pure_eq_ok.mp h
    exact ⟨.refl _ _ _, rfl⟩
  · obtain ⟨v, s₁, h₁, h₂⟩ := Prog.bind_eq_ok.mp h
    have hro := readFrom_readOnly _ _ _ _ h₁
    cases h₂
    -- Only the low half of `rt` is merged into.
    refine ⟨?_, hro.memory⟩
    change Touches _ _ _ (s₁.cpu.setLane s₁.cpu.rt 0 (merge s.cpu v s₁.cpu))
    rw [hro.cpu]
    exact (Touches.refl _ _ s.cpu).setLane (Nat.le_refl 64) _

/-- **Loads** other than `LQ` write the low half of `rt`. -/
theorem MemOp.run_touches {o : MemOp} (ho : o.isStore = false) (hLQ : o ≠ .LQ)
    (h : o.run host report s = .ok () s') : Loaded s s' := by
  cases o with
  | LB | LBU => exact load_loaded memRead8_readOnly h
  | LH | LHU => exact load_loaded (fun mem => readFrom_readOnly mem 0 2 0) h
  | LW | LWU => exact load_loaded (fun mem => readFrom_readOnly mem 0 4 0) h
  | LD => exact @load_loaded _ _ _ _ _ id (fun mem => readFrom_readOnly mem 0 8 0) h
  | LWL | LWR => exact merge_loaded 4 h
  | LDL | LDR => exact merge_loaded 8 h
  | LQ => exact absurd rfl hLQ
  | _ => cases ho

/-! ### Stores -/

/-- A returning store found its whole block in range. -/
theorem MemOp.inRange_of_ok {o : MemOp} (ho : o.isStore) (h : o.run host report s = .ok () s') :
    (o.extent s.cpu).InRange := by
  have hwrite : ∀ {w : Nat} {mem : U32} {value : BitVec w} {n : Nat} {t t' : Machine},
      writeFrom report mem value 0 n t = .ok () t' →
      ∀ j, j < n → Accepted (mem + BitVec.ofNat 32 j) :=
    fun hrun j hj => writeFrom_accepted _ _ _ 0 hrun j (Nat.zero_le j) (by omega)
  cases o with
  -- The one byte of `SB` was written.
  | SB =>
    intro j hj
    obtain ⟨m, hm, -⟩ := memWrite8_eq_ok.mp h
    obtain rfl : j = 0 := Nat.lt_one_iff.mp hj
    refine Option.isSome_iff_exists.mpr ⟨m, ?_⟩
    rw [BitVec.add_zero]
    exact hm
  | SH | SW | SD | SQ => exact hwrite h
  | SWL | SWR | SDL | SDR =>
    -- The block is written back after it was read.
    change (cpu >>= fun r => _) s = _ at h
    rw [cpu_bind] at h
    obtain ⟨_, s₁, -, h₂⟩ := Prog.bind_eq_ok.mp h
    exact hwrite h₂
  | _ => cases ho

/-- **Stores** change no register, and no byte but those they address. -/
theorem MemOp.run_stores {o : MemOp} (ho : o.isStore) (h : o.run host report s = .ok () s') :
    s'.cpu = s.cpu ∧ ∀ m, ¬(o.extent s.cpu).Stored m → s'.memory m = s.memory m := by
  obtain ⟨cell, hcell⟩ := exists_denotes (o.inRange_of_ok ho h)
  -- The run is the one that is known, and the bytes it stores lie in the extent.
  have hdone : ∀ {P : Nat → Prop} {value : Nat → U8},
      (∃ t, o.run host report s = .ok () t ∧ Stored (o.extent s.cpu).size P cell value s t) →
      (∀ i, i < (o.extent s.cpu).size → P i → (o.extent s.cpu).lo ≤ i ∧ i < (o.extent s.cpu).hi) →
      s'.cpu = s.cpu ∧ ∀ m, ¬(o.extent s.cpu).Stored m → s'.memory m = s.memory m := by
    rintro P value ⟨t, hrun, hstored⟩ hP
    obtain rfl : t = s' := by
      rw [hrun] at h
      cases h
      rfl
    refine ⟨hstored.cpu, fun m hm => hstored.memory.miss m fun i hi hPi heq => hm ?_⟩
    exact ⟨i, (hP i hi hPi).1, (hP i hi hPi).2, heq ▸ hcell i hi⟩
  have hall : ∀ {n i : Nat}, i < n → True → 0 ≤ i ∧ i < n := fun hi _ => ⟨Nat.zero_le _, hi⟩
  cases o with
  -- A byte is its own extent.
  | SB =>
    obtain ⟨m, hm, rfl⟩ := memWrite8_eq_ok.mp h
    refine ⟨rfl, fun m' hm' => if_neg ?_⟩
    rintro rfl
    refine hm' ⟨0, Nat.le_refl 0, Nat.zero_lt_one, ?_⟩
    rw [BitVec.add_zero]
    exact hm
  -- The plain stores write all bytes of their extent.
  | SH =>
    exact hdone (store_run report (by decide) Handler.address (fun r => US 0 (r.GPR r.rt)) hcell)
      fun _ => hall
  | SW =>
    exact hdone (store_run report (by decide) Handler.addressOut (fun r => UL 0 (r.GPR r.rt)) hcell)
      fun _ => hall
  | SD =>
    exact hdone (store_run report (by decide) Handler.addressOut (fun r => UD 0 (r.GPR r.rt)) hcell)
      fun _ => hall
  | SQ =>
    -- The value holds what lies on the stack when `memWrite128` is called.
    exact hdone (writeFrom_stored report (by decide)
      (host.behindValue s ++ Handler.addressOfRt host s.cpu) hcell) fun _ => hall
  -- To the right of the address the block is written to its end,
  | SWR => exact hdone (SWR_run report hcell) fun i hi hk => ⟨hk, hi⟩
  | SDR => exact hdone (SDR_run report hcell) fun i hi hk => ⟨hk, hi⟩
  -- to the left from its start to the address.
  | SWL =>
    refine hdone (SWL_run report hcell) fun i _ hk => ⟨Nat.zero_le i, ?_⟩
    change i < (Handler.low2 (Handler.addressOut s.cpu) : Nat) + 1
    omega
  | SDL =>
    refine hdone (SDL_run report hcell) fun i _ hk => ⟨Nat.zero_le i, ?_⟩
    change i < (Handler.low3 (Handler.addressOut s.cpu) : Nat) + 1
    omega
  | _ => cases ho

/-! ### System calls -/

/-- A returning system call leaves memory alone. -/
theorem SYSCALL_memory (h : Handler.SYSCALL report s = .ok () s') : s'.memory = s.memory := by
  unfold Handler.SYSCALL at h
  rw [cpu_bind] at h
  -- Along the switch: the first call and the default do not return.
  split at h
  · exact absurd h (fatal_ne_ok _ _)
  iterate 5
    split at h
    · cases h
      rfl
  cases h

end Memory

/-! ### Instructions -/

/-- From `s` to `s'` only what the instruction dispatched with the registers `r` may change has
changed. -/
structure InstructionFrame (r : CpuRegisters) (s s' : Machine) : Prop where
  touches : Touches ((decode r.code).destination r) (decode r.code).writesHiLo s.cpu s'.cpu
  memory : ∀ m, ¬(decode r.code).storesTo r m → s'.memory m = s.memory m

/-- The instructions that are not dispatched through the multimedia tables, other than branches and
`LQ`. -/
theorem Op.run_frame {host : Host} {report : U32 → M Unit} {execI : M Unit} {s s' : Machine}
    (hMMI : (decode s.cpu.code).inMMI = false) (hbranch : ∀ o, decode s.cpu.code ≠ .branch o)
    (hLQ : decode s.cpu.code ≠ .memory .LQ)
    (h : (decode s.cpu.code).run host report execI s = .ok () s') :
    InstructionFrame s.cpu s s' := by
  -- What changes no byte only has to touch what it may.
  have hkeep : ∀ {o : Op}, decode s.cpu.code = o → Touches (o.destination s.cpu) o.writesHiLo s.cpu
      s'.cpu → s'.memory = s.memory → InstructionFrame s.cpu s s' := by
    rintro o rfl htouches hmemory
    exact ⟨htouches, fun m _ => by rw [hmemory]⟩
  cases hd : decode s.cpu.code with
  | register o =>
    rw [hd] at h hMMI
    obtain ⟨r, hr, rfl⟩ := modifyCpu?_eq_ok.mp h
    exact hkeep hd (o.run_touches hMMI hr) rfl
  | memory o =>
    rw [hd] at h
    -- A store touches no register, a load no byte.
    by_cases ho : o.isStore = true
    · obtain ⟨hcpu, hmemory⟩ := o.run_stores ho h
      refine ⟨?_, ?_⟩
      · rw [hcpu]
        exact .refl _ _ _
      · rw [hd]
        exact hmemory
    · have hstore : o.isStore = false := (Bool.not_eq_true _).mp ho
      obtain ⟨htouches, hmemory⟩ := o.run_touches hstore (fun heq => hLQ (heq ▸ hd)) h
      refine hkeep hd ?_ hmemory
      change Touches (if o.isStore then none else some s.cpu.rt) false s.cpu s'.cpu
      rw [if_neg ho]
      exact htouches
  | branch o => exact absurd hd (hbranch o)
  | COP0 =>
    rw [hd] at h
    -- `MFC0` writes `s0`; the two other words write nothing.
    rcases COP0_eq_ok h with ⟨rfl, hcode⟩ | ⟨rfl, -⟩
    · refine hkeep hd ?_ rfl
      change Touches (if s.cpu.code = 0x40106000 then some Handler.s0 else none) false s.cpu _
      rw [if_pos hcode]
      exact (Touches.refl _ _ s.cpu).setLane (by decide) (0 : U32)
    · exact hkeep hd (.refl _ _ _) rfl
  | SYSCALL =>
    rw [hd] at h
    refine hkeep hd ?_ (SYSCALL_memory h)
    rw [(SYSCALL_eq_ok h).cpu]
    -- The end of the heap is returned in `v0`.
    split
    · exact (Touches.refl _ _ s.cpu).setLane (by decide) (0x02000000 : U32)
    · exact .refl _ _ _
  -- The others do not return.
  | BREAK =>
    rw [hd] at h
    cases h
  | UnknownOpcode =>
    rw [hd] at h
    exact absurd h (fatal_ne_ok _ _)
  | MMI_Unknown =>
    rw [hd] at h
    exact absurd h (fatal_ne_ok _ _)

/-- **The frame of the 64-bit instructions.** A call of the interpreter that returns from an
instruction outside the multimedia group, other than a branch, a jump or `LQ`, changes at most one
general register, the one the instruction names as its destination; it changes no upper half of a
general register, of `HI` or of `LO`; `HI` and `LO` change only in the multiplications, the
divisions and the moves to them, and memory only in the stores, at the bytes they address; `sa` and
`CP0` stay. -/
theorem instruction_frame {host : Host} {report : U32 → M Unit} {levels : Nat} {s s' : Machine}
    {code : U32} (hword : fetchWord s.memory s.cpu.pc = some code)
    (hopcode : code.extractLsb' 26 6 ≠ 28) (hbranch : ∀ o, decode code ≠ .branch o)
    (hLQ : decode code ≠ .memory .LQ) (h : execI host report levels s = .ok () s') :
    InstructionFrame (s.cpu.dispatch code) s s' := by
  cases levels with
  | zero => cases h
  | succ n =>
    unfold execI at h
    obtain ⟨_, s₀, h₁, h₂⟩ := Prog.bind_eq_ok.mp h
    have hfetched := fetch_ensures report h₁
    rw [cpu_bind] at h₂
    -- The word that was fetched.
    obtain rfl : code = s₀.cpu.code := Option.some.inj (hword.symm.trans hfetched.word)
    have hframe := Op.run_frame (decode_not_inMMI hopcode) hbranch hLQ h₂
    rw [← hfetched.cpu]
    refine ⟨?_, fun m hm => ?_⟩
    · -- The fetch changes none of the registers this is about.
      have htouches := hframe.touches
      rw [hfetched.cpu] at htouches ⊢
      exact ⟨htouches.GPR, htouches.upper, htouches.HI, htouches.LO, htouches.upperHI,
        htouches.upperLO, htouches.sa, htouches.CP0⟩
    · rw [hframe.memory m hm, hfetched.memory]

/-- `sw r0, 0x200(r0)` at `0x100`. -/
theorem instruction_frame_sw :
    InstructionFrame ((CpuRegisters.zeroed 0x100).dispatch 0xac000200)
      (Machine.start (program 0x100 [0xac000200]) 0x100 false)
      (Machine.start (program 0x100 [0xac000200]) 0x100 false).next := by
  have hdecode : decode 0xac000200 = .memory .SW := by decide
  have hrun : execI .flat (dumpasm 0) 1 (Machine.start (program 0x100 [0xac000200]) 0x100 false) =
      .ok () (Machine.start (program 0x100 [0xac000200]) 0x100 false).next := rfl
  refine instruction_frame (by decide) (by decide) ?_ ?_ hrun
  · rw [hdecode]
    nofun
  · rw [hdecode]
    decide

end Ps2Unpacker
