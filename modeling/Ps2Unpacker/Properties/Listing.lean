import Ps2Unpacker.Machine.DisR5900asm
import Ps2Unpacker.Properties.Decoders
import Ps2Unpacker.Semantics.NestedCalls

/-!
# What the report says of a branch

A line of the report shows the target of a branch or jump as a number. The interpreter computes it
from the program counter of the delay slot, in 32 bits; the disassembler from the address of the
branch itself, and with 64 bits.

* `printedAddress`: the number a line ends with.
* `BranchOp.line_eq`: it is the one the disassembler decodes.
* `printed_target`: the line shows the address the interpreter goes to, as a signed number.
-/

namespace Ps2Unpacker

open CPrintf

/-- What stands behind the last `x` of a line. -/
def printedAddress (line : String) : List Char :=
  (line.toList.reverse.takeWhile fun c => c != 'x').reverse

/-- The address a line ends with is what follows its last `x`. -/
theorem printedAddress_of {line : String} {front digits : List Char}
    (h : line.toList = front ++ 'x' :: digits) (hdigits : 'x' ∉ digits) :
    printedAddress line = digits := by
  have hno : ∀ c ∈ digits.reverse, (c != 'x') = true := by
    intro c hc
    rw [bne_iff_ne]
    rintro rfl
    exact hdigits (List.mem_reverse.mp hc)
  rw [printedAddress, h, List.reverse_append, List.reverse_cons, List.append_assoc,
    List.takeWhile_append_of_pos hno]
  simp

/-- Hexadecimal digits hold no `x`. -/
theorem x_notMem_lX (w n : Nat) : 'x' ∉ lX w n := by
  intro h
  obtain ⟨d, hd, hx⟩ := List.mem_map.mp (List.mem_reverse.mp h)
  have hlt := Nat.lt_of_mem_digitsAppend (by decide) w d hd
  revert hx
  -- The sixteen digits, one by one.
  have hall : ∀ d < 16, hexDigit d ≠ 'x' := by decide
  exact hall d hlt

/-! ### The end of a line -/

/-- The format ends with `%s`, for the argument `a`. -/
def Format.endsWith (f : Format) (a : Arg) : Bool :=
  (items f.format.toList).getLast? = some .str && f.args.getLast? = some a &&
    Fits (items f.format.toList).dropLast (f.args.dropLast.map (Arg.value 0 0))

/-- An argument printed as a number. -/
def Arg.isNum : Arg → Bool
  | .DECODE_SA | .DECODE_IMMED => true
  | _ => false

/-- Whether an argument is a number does not depend on the word. -/
theorem value_isNum (a : Arg) (code pc : U32) : (a.value code pc).isNum = a.isNum := by
  cases a with
  | _ => rfl

/-- So the arguments fit a format for all words or for none. -/
theorem fits_value (f : List Item) (args : List Arg) (code pc : U32) :
    Fits f (args.map (Arg.value code pc)) = Fits f (args.map (Arg.value 0 0)) := by
  refine fits_congr f ?_
  rw [List.map_map, List.map_map]
  exact List.map_congr_left fun a _ => (value_isNum a code pc).trans (value_isNum a 0 0).symm

/-- The text ends with that argument. -/
theorem Format.text_of_endsWith {f : Format} {a : Arg} (h : f.endsWith a = true) {code pc : U32}
    {s : String} (ha : a.value code pc = .str s) :
    ∃ front, (f.text code pc).toList = front ++ s.toList := by
  simp only [Format.endsWith, Bool.and_eq_true, decide_eq_true_eq] at h
  obtain ⟨⟨hitems, hargs⟩, hfits⟩ := h
  obtain ⟨is, his⟩ := List.getLast?_eq_some_iff.mp hitems
  obtain ⟨as, has⟩ := List.getLast?_eq_some_iff.mp hargs
  -- The last item of the format prints the last argument, and nothing follows it.
  rw [his, has, List.dropLast_concat, List.dropLast_concat, ← fits_value is as code pc] at hfits
  refine ⟨print is (as.map (Arg.value code pc)), ?_⟩
  rw [Format.text, sprintf, String.toList_ofList, his, has, List.map_append,
    print_append hfits, List.map_singleton, ha, print_str]
  exact congrArg _ (List.append_nil _)

/-- An address as an operand. -/
theorem toList_address (n : Nat) :
    (sprintf "0x%08lX" [.num n]).toList = '0' :: 'x' :: lX 8 n := by
  have hitems : items "0x%08lX".toList = [.char '0', .char 'x', .hex 8] := by decide +kernel
  rw [sprintf, hitems, String.toList_ofList]
  exact congrArg (fun l => '0' :: 'x' :: l) (List.append_nil _)

/-- The line is the address and the text of the entry. -/
theorem toList_disR5900FasmText (code pc : U32) :
    (disR5900FasmText code pc).toList =
      lX 8 pc.toNat ++ ':' :: '\t' :: (((disR5900Fasm code).P code).text code pc).toList := by
  have hitems : items "%08lX:\t%s".toList = [.hex 8, .char ':', .char '\t', .str] := by
    decide +kernel
  rw [disR5900FasmText, sprintf, hitems, String.toList_ofList]
  exact congrArg (fun l => lX 8 pc.toNat ++ ':' :: '\t' :: l) (List.append_nil _)

/-- The report has an entry of its own for each instruction the interpreter executes. -/
theorem disR5900Fasm_eq {code : U32} {o : Op} (hd : decode code = o)
    (ho : o.isInstruction = true) : disR5900Fasm code = .of o := by
  have hname := agrees_iff.mp (disR5900Fasm_agrees code) (by rw [hd]; exact ho)
  rw [hd] at hname
  cases hl : disR5900Fasm code with
  | of o' =>
    rw [hl] at hname
    exact congrArg Label.of (Option.some.inj hname)
  | _ =>
    rw [hl] at hname
    cases hname

/-! ### Targets -/

namespace BranchOp

/-- The branches and jumps whose target is in the word. -/
def isDirect : BranchOp → Bool
  | JR | JALR => false
  | _ => true

/-- The function that decodes the target. -/
def decoder : BranchOp → Arg
  | J | JAL => .jump_decode
  | _ => .offset_decode

/-- The number it decodes. -/
def decoded (o : BranchOp) (code pc : U32) : U64 :=
  match o with
  | J | JAL => DisR5900asm.DECODE_JUMP code pc
  | _ => DisR5900asm.DECODE_OFFSET code pc

/-- All direct branches and jumps print their target last. -/
theorem P_endsWith {o : BranchOp} (ho : o.isDirect = true) (code : U32) :
    (o.P code).endsWith o.decoder = true := by
  -- The format is the same for all words, so it is enough to look at that of the word 0.
  have hconst : o.P code = o.P 0 := by
    cases o with
    | JALR => cases ho
    | _ => rfl
  rw [hconst]
  cases o with
  | JR | JALR => cases ho
  | _ => decide +kernel

/-- What they print there is the target, with eight digits. -/
theorem decoder_value (o : BranchOp) (code pc : U32) :
    o.decoder.value code pc = .str (sprintf "0x%08lX" [.num (o.decoded code pc).toNat]) := by
  cases o <;> rfl

/-- The number in front of the line's end is the decoded one. -/
theorem line_eq {o : BranchOp} (ho : o.isDirect = true) {code : U32} (hd : decode code = .branch o)
    (pc : U32) : printedAddress (disR5900FasmText code pc) = lX 8 (o.decoded code pc).toNat := by
  obtain ⟨front, htext⟩ := Format.text_of_endsWith (P_endsWith ho code) (o.decoder_value code pc)
  refine @printedAddress_of _ (lX 8 pc.toNat ++ ':' :: '\t' :: (front ++ ['0'])) _ ?_
    (x_notMem_lX 8 _)
  rw [toList_disR5900FasmText, disR5900Fasm_eq hd rfl]
  change _ ++ ':' :: '\t' :: ((o.P code).text code pc).toList = _
  rw [htext, toList_address]
  simp

end BranchOp

/-! ### The number decoded and the target -/

section Numbers

variable {code pc : U32} {r : CpuRegisters}

/-- Addresses the interpreter fetches from are in the first region of the jumps. -/
theorem region_zero {x : U32} (h : x.toNat < 2 ^ 28) : x &&& 0xf0000000#32 = 0#32 := by
  apply BitVec.eq_of_getLsbD_eq
  intro i hi
  rw [BitVec.getLsbD_and, BitVec.getLsbD_zero, Bool.and_eq_false_iff]
  by_cases hlow : i < 28
  · right
    interval_cases i <;> rfl
  · left
    exact Nat.testBit_lt_two_pow (h.trans_le (Nat.pow_le_pow_right (by decide) (by omega)))

/-- **Jumps.** -/
theorem decoded_jump (hcode : r.code = code) (hpc : r.pc = pc + 4#32)
    (hlt : pc.toNat < 0x0a000000) :
    DisR5900asm.DECODE_JUMP code pc = r.jumpTarget.signExtend 64 := by
  have h4 : (4#32 : U32).toNat = 4 := rfl
  -- Below 256 MiB the region of the word and that of its slot are 0.
  have hregion : pc &&& 0xf0000000#32 = 0#32 := region_zero (by omega)
  have hslot : (pc + 4#32) &&& 0xf0000000#32 = 0#32 :=
    region_zero (by rw [BitVec.toNat_add, h4]; omega)
  -- A multiplication by 4 is a shift by 2.
  have hshift : (code &&& 0x3ffffff#32) * 4#32 = (code &&& 0x3ffffff#32) <<< 2 := by
    apply BitVec.eq_of_toNat_eq
    rw [BitVec.toNat_mul, BitVec.toNat_shiftLeft, Nat.shiftLeft_eq]
    rfl
  have htarget : r.jumpTarget = (code &&& 0x3ffffff#32) <<< 2 :=
    calc r.jumpTarget
        = (code &&& 0x3ffffff#32) * 4#32 + ((pc + 4#32) &&& 0xf0000000#32) := by
          unfold CpuRegisters.jumpTarget CpuRegisters.target
          rw [hcode, hpc]
          rfl
      _ = (code &&& 0x3ffffff#32) <<< 2 := by rw [hslot, hshift, BitVec.add_zero]
  -- The sign bit is clear, so extending by zeros and by the sign are the same.
  have hmsb : ((code &&& 0x3ffffff#32) <<< 2).msb = false := by
    simp [BitVec.msb_eq_getLsbD_last]
  calc DisR5900asm.DECODE_JUMP code pc
      = ((pc &&& 0xf0000000#32) ||| (code &&& 0x3ffffff#32) <<< 2).setWidth 64 := rfl
    _ = ((code &&& 0x3ffffff#32) <<< 2).setWidth 64 := by rw [hregion, BitVec.zero_or]
    _ = ((code &&& 0x3ffffff#32) <<< 2).signExtend 64 :=
        (BitVec.signExtend_eq_setWidth_of_msb_false hmsb).symm
    _ = r.jumpTarget.signExtend 64 := by rw [htarget]

/-- The offset of a branch in bytes, as both read it off the word. -/
theorem offset_toInt (code : U32) :
    ((code.setWidth 16).signExtend 32 * 4#32).toInt = 4 * (code.setWidth 16).toInt := by
  have hle := BitVec.le_toInt (code.setWidth 16)
  have hlt := (code.setWidth 16).toInt_lt
  have h4 : (4#32 : U32).toInt = 4 := rfl
  rw [BitVec.toInt_mul, BitVec.toInt_signExtend_of_le (by decide), h4, Int.bmod_eq_of_le]
  all_goals omega

/-- The operand is the low half of the word. -/
theorem setWidth_DECODE_IMMED (code : U32) :
    (DisR5900asm.DECODE_IMMED code).setWidth 16 = code.setWidth 16 := by
  apply BitVec.eq_of_getLsbD_eq
  intro i hi
  unfold DisR5900asm.DECODE_IMMED
  interval_cases i <;> simp

/-- **Branches.** The interpreter computes with 32 bits, the disassembler with 64. -/
theorem decoded_offset (hcode : r.code = code) (hpc : r.pc = pc + 4#32)
    (hlt : pc.toNat < 0x0a000000) :
    DisR5900asm.DECODE_OFFSET code pc = r.branchTarget.signExtend 64 := by
  have hlow := BitVec.le_toInt (code.setWidth 16)
  have hhigh := (code.setWidth 16).toInt_lt
  -- Neither computation wraps as a signed one.
  have htarget : r.branchTarget.toInt = 4 * (code.setWidth 16).toInt + (pc.toNat + 4) := by
    have heq : r.branchTarget = (code.setWidth 16).signExtend 32 * 4#32 + (pc + 4#32) := by
      unfold CpuRegisters.branchTarget CpuRegisters.imm
      rw [hcode, hpc]
      rfl
    have h4 : (4#32 : U32).toNat = 4 := rfl
    -- The slot has a small positive address.
    have hslot : (pc + 4#32).toInt = pc.toNat + 4 := by
      rw [BitVec.toInt_eq_toNat_cond, BitVec.toNat_add, h4]
      omega
    rw [heq, BitVec.toInt_add, offset_toInt, hslot, Int.bmod_eq_of_le]
    all_goals omega
  have hdecoded : (DisR5900asm.DECODE_OFFSET code pc).toInt =
      4 * (code.setWidth 16).toInt + (pc.toNat + 4) := by
    have heq : DisR5900asm.DECODE_OFFSET code pc =
        ((code.setWidth 16).signExtend 32 * 4#32).signExtend 64 + pc.setWidth 64 + 4#64 := by
      rw [← setWidth_DECODE_IMMED]
      rfl
    -- The same sum with 64 bits, where nothing wraps either.
    have h4 : (4#64 : U64).toNat = 4 := rfl
    have hpc : (pc.setWidth 64).toNat = pc.toNat := BitVec.toNat_setWidth_of_le (by decide)
    have hslot : (pc.setWidth 64 + 4#64).toInt = pc.toNat + 4 := by
      rw [BitVec.toInt_eq_toNat_cond, BitVec.toNat_add, h4, hpc]
      omega
    rw [heq, BitVec.add_assoc, BitVec.toInt_add, BitVec.toInt_signExtend_of_le (by decide),
      offset_toInt, hslot, Int.bmod_eq_of_le]
    all_goals omega
  apply BitVec.eq_of_toInt_eq
  rw [BitVec.toInt_signExtend_of_le (by decide), hdecoded, htarget]

/-- The number decoded is the target, with its sign extended to 64 bits. -/
theorem BranchOp.decoded_eq {o : BranchOp} (ho : o.isDirect = true) (hcode : r.code = code)
    (hpc : r.pc = pc + 4#32) (hlt : pc.toNat < 0x0a000000) :
    o.decoded code pc = (o.dest r).signExtend 64 := by
  cases o with
  | JR | JALR => cases ho
  | J | JAL => exact decoded_jump hcode hpc hlt
  | _ => exact decoded_offset hcode hpc hlt

end Numbers

/-- The lower half of the addresses are those that are their own sign extension. -/
theorem lX_signExtend_iff (x : U32) :
    lX 8 (x.signExtend 64).toNat = lX 8 x.toNat ↔ x.toNat < 2 ^ 31 := by
  have hwide : (x.setWidth 64).toNat = x.toNat := BitVec.toNat_setWidth_of_le (by decide)
  have hextend := x.toNat_signExtend (v := 64)
  rw [hwide, BitVec.msb_eq_decide] at hextend
  constructor
  · -- From `2 ^ 31` on the extension is another number, and the digits are injective.
    intro h
    have hnat := lX_inj h
    by_contra hge
    rw [hextend, if_pos (decide_eq_true (by omega))] at hnat
    omega
  · intro h
    rw [hextend, if_neg (by simpa using h)]
    rfl

/-- **The report and the interpreter.** The line for a branch or jump of a delay chain that has its
target in the word ends with that target as a signed number: it is the address itself unless that
is in the upper half. Where the call returns, the line for its last branch ends with the address the
call goes to. -/
theorem printed_target {s : Machine} {branches : List CpuRegisters} {last x : CpuRegisters}
    (h : DelayChain s.memory s.cpu branches last) (hx : x ∈ branches) {o : BranchOp}
    (ho : decode x.code = .branch o) (hdirect : o.isDirect = true) :
    printedAddress (disR5900FasmText x.code (x.pc - 4)) =
        lX 8 ((o.dest x).signExtend 64).toNat ∧
      (printedAddress (disR5900FasmText x.code (x.pc - 4)) = lX 8 (o.dest x).toNat ↔
        (o.dest x).toNat < 2 ^ 31) ∧
      ∀ host s', Returns host s s' → branches.getLast? = some x →
        printedAddress (disR5900FasmText x.code (x.pc - 4)) = lX 8 s'.cpu.pc.toNat := by
  have hlt := fetchWord_lt (h.word (List.mem_append_left _ hx))
  have hpc : x.pc = x.pc - 4 + 4#32 := (BitVec.sub_add_cancel x.pc 4).symm
  have hline : printedAddress (disR5900FasmText x.code (x.pc - 4)) =
      lX 8 ((o.dest x).signExtend 64).toNat := by
    rw [BranchOp.line_eq hdirect ho, BranchOp.decoded_eq hdirect rfl hpc hlt]
  have hiff : printedAddress (disR5900FasmText x.code (x.pc - 4)) = lX 8 (o.dest x).toNat ↔
      (o.dest x).toNat < 2 ^ 31 := by rw [hline, lX_signExtend_iff]
  -- The last branch of the chain decides where the call goes.
  refine ⟨hline, hiff, fun host s' hret hlast => ?_⟩
  obtain ⟨branches', last', hcall⟩ := hret.exec.call
  obtain ⟨rfl, rfl⟩ := h.unique hcall.chain
  obtain ⟨init, rfl⟩ := List.getLast?_eq_some_iff.mp hlast
  obtain ⟨o', ho'⟩ := h.takenBranch hx
  obtain rfl : o' = o := by
    obtain ⟨hop, -⟩ := takenBranch_eq_some.mp ho'
    exact Op.branch.inj (hop.symm.trans ho)
  -- The call goes where the last branch of the chain goes, and its lookup stayed in memory.
  have htarget := finalTarget_concat init ho'
  have hdest : s'.cpu.pc = o'.dest x := by
    rw [hcall.pc, htarget]
    rfl
  have hinside := hcall.inside _ htarget
  rw [hdest]
  exact hiff.mpr (hinside.trans (by decide))

/-- `beq r0, r0, -2` at the address zero goes to the last word of the address space. -/
theorem printed_target_beq :
    printedAddress (disR5900FasmText 0x1000fffe 0) = lX 8 0xfffffffffffffffc ∧
    printedAddress (disR5900FasmText 0x1000fffe 0) ≠ lX 8 0xfffffffc := by
  have hchain := @DelayChain.branch (program 0 [0x1000fffe, 0]) (CpuRegisters.zeroed 0) _
    0x1000fffe .BEQ [] rfl rfl (@DelayChain.last _ _ 0 rfl rfl)
  have hop : decode 0x1000fffe = .branch .BEQ := rfl
  obtain ⟨hline, hiff, -⟩ :=
    @printed_target (Machine.start (program 0 [0x1000fffe, 0]) 0 false) _ _ _ hchain
      List.mem_cons_self _ hop rfl
  exact ⟨hline, fun h => absurd (hiff.mp h) (by decide)⟩

end Ps2Unpacker
