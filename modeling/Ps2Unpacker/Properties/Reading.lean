import Ps2Unpacker.Properties.Listing

/-!
# Reading the report

The report shows an instruction as a name and operands. For the instructions the interpreter
executes, this says which instruction it was: `MADDU` is shown as `MADD` is, and all others are
told apart.

* `Op.forms`: the calls of `sprintf` for these instructions; `Op.spelled`: with the characters of
  their formats.
* `toldApart_forms`: two of them never print the same.
* `shown_of_value`: an operand printed determines its field of the word.
* `report_eq_iff`: when two lines are the same.
-/

namespace Ps2Unpacker

open CPrintf

/-! ### The instructions -/

def RegOp.all : List RegOp := (List.range 148).map RegOp.ofNat

def MemOp.all : List MemOp := (List.range 21).map MemOp.ofNat

def BranchOp.all : List BranchOp := (List.range 20).map BranchOp.ofNat

/-- A value of the function is in the list of its values. -/
theorem mem_map_range {α : Type} {f : Nat → α} {x : α} {i n : Nat} (hf : f i = x) (hi : i < n) :
    x ∈ (List.range n).map f :=
  List.mem_map.mpr ⟨i, List.mem_range.mpr hi, hf⟩

/-- No instruction is missing from the list. -/
theorem RegOp.mem_all (o : RegOp) : o ∈ RegOp.all := by
  refine mem_map_range (RegOp.ofNat_ctorIdx o) ?_
  cases o with
  | _ => decide

/-- None of the loads and stores. -/
theorem MemOp.mem_all (o : MemOp) : o ∈ MemOp.all := by
  refine mem_map_range (MemOp.ofNat_ctorIdx o) ?_
  cases o with
  | _ => decide

/-- None of the branches. -/
theorem BranchOp.mem_all (o : BranchOp) : o ∈ BranchOp.all := by
  refine mem_map_range (BranchOp.ofNat_ctorIdx o) ?_
  cases o with
  | _ => decide

/-- The calls of `sprintf` for the instructions the interpreter executes. -/
def Op.forms : List (Op × Format) :=
  RegOp.all.map (fun o => (.register o, o.P 1)) ++
    (MemOp.all.map (fun o => (.memory o, o.P)) ++
      (BranchOp.all.map (fun o => (.branch o, o.P 0)) ++
        -- the two functions that look at the word, and the system instructions
        [(.register .SLL, RegOp.SLL.P 0), (.branch .JALR, BranchOp.JALR.P 0xf800),
          (.SYSCALL, (Label.of .SYSCALL).P 0), (.BREAK, (Label.of .BREAK).P 0)]))

/-- The characters of a format. -/
abbrev Spelling (f : Format) : Type := {cs : List Char // f.format = String.ofList cs}

def RegOp.spelling (o : RegOp) : Spelling (o.P 1) := by
  cases o with
  | _ => exact ⟨_, rfl⟩

def MemOp.spelling (o : MemOp) : Spelling o.P := by
  cases o with
  | _ => exact ⟨_, rfl⟩

def BranchOp.spelling (o : BranchOp) : Spelling (o.P 0) := by
  cases o with
  | _ => exact ⟨_, rfl⟩

/-- A call of `sprintf` for an instruction, with the characters of its format: they are compared
below, and to decode a string for each comparison takes long. -/
structure Spelled where
  op : Op
  form : Format
  spelling : Spelling form

/-- The call alone. -/
def Spelled.call (x : Spelled) : Op × Format := (x.op, x.form)

def Op.spelled : List Spelled :=
  RegOp.all.map (fun o => ⟨.register o, o.P 1, o.spelling⟩) ++
    (MemOp.all.map (fun o => ⟨.memory o, o.P, o.spelling⟩) ++
      (BranchOp.all.map (fun o => ⟨.branch o, o.P 0, o.spelling⟩) ++
        [⟨.register .SLL, RegOp.SLL.P 0, _, rfl⟩, ⟨.branch .JALR, BranchOp.JALR.P 0xf800, _, rfl⟩,
          ⟨.SYSCALL, (Label.of .SYSCALL).P 0, _, rfl⟩, ⟨.BREAK, (Label.of .BREAK).P 0, _, rfl⟩]))

/-- The spelling is the characters of the format. -/
theorem Spelled.toList_format (x : Spelled) : x.form.format.toList = x.spelling.1 :=
  (congrArg String.toList x.spelling.2).trans String.toList_ofList

/-- The forms are the spelled ones. -/
theorem Op.forms_eq : Op.forms = Op.spelled.map Spelled.call := by
  unfold Op.forms Op.spelled
  simp only [List.map_append, List.map_map]
  rfl

/-- `SLL` has two forms, the others one. -/
theorem RegOp.P_cases (o : RegOp) (code : U32) :
    o.P code = o.P 1 ∨ o = SLL ∧ o.P code = SLL.P 0 := by
  cases o with
  | SLL =>
    by_cases h : code = 0
    · exact .inr ⟨rfl, if_pos h⟩
    · exact .inl (if_neg h)
  | _ => exact .inl rfl

/-- `JALR` has two forms, the others one. -/
theorem BranchOp.P_cases (o : BranchOp) (code : U32) :
    o.P code = o.P 0 ∨ o = JALR ∧ o.P code = JALR.P 0xf800 := by
  cases o with
  | JALR =>
    by_cases h : RegField.RD.decode code = 31
    · exact .inr ⟨rfl, if_pos h⟩
    · exact .inl (if_neg h)
  | _ => exact .inl rfl

/-- **Every instruction prints by one of the forms.** -/
theorem mem_forms {o : Op} (ho : o.isInstruction = true) (code : U32) :
    (o, (Label.of o).P code) ∈ Op.forms := by
  simp only [Op.forms, List.mem_append, List.mem_map]
  -- By the four parts of the list: the tables, and the second forms of `SLL` and `JALR`.
  cases o with
  | register o =>
    rcases o.P_cases code with h | ⟨rfl, h⟩
    · exact .inl ⟨o, o.mem_all, Prod.ext rfl h.symm⟩
    · right; right; right
      exact List.mem_cons.mpr (.inl (Prod.ext rfl h))
  | memory o => exact .inr (.inl ⟨o, o.mem_all, rfl⟩)
  | branch o =>
    rcases o.P_cases code with h | ⟨rfl, h⟩
    · exact .inr (.inr (.inl ⟨o, o.mem_all, Prod.ext rfl h.symm⟩))
    · right; right; right
      exact List.mem_cons_of_mem _ (List.mem_cons.mpr (.inl (Prod.ext rfl h)))
  | SYSCALL => exact .inr (.inr (.inr (.tail _ (.tail _ (.head _)))))
  | BREAK => exact .inr (.inr (.inr (.tail _ (.tail _ (.tail _ (.head _))))))
  | COP0 | UnknownOpcode | MMI_Unknown => cases ho

/-- The instruction by the name of which one is shown. -/
def Op.shownAs : Op → Op
  | .register .MADDU => .register .MADD
  | o => o

/-- The two are shown differently, or the same in all respects. -/
def toldApart (x y : Op × Format) : Bool :=
  Apart (items x.2.format.toList) (items y.2.format.toList) ||
    (x.1.shownAs = y.1.shownAs && x.2 = y.2)

/-- The operands of these instructions. -/
def Arg.isPlain : Arg → Bool
  | .GPR_REG _ | .DECODE_SA | .DECODE_IMMED | .jump_decode | .offset_decode => true
  | _ => false

/-- A call with plain operands, each of which ends where the format shows it. -/
def Format.isPlain (f : Format) : Bool :=
  Separated Char.isAlphanum (items f.format.toList) &&
    Fits (items f.format.toList) (f.args.map (Arg.value 0 0)) && f.args.all Arg.isPlain

/-- On the characters. -/
def Spelled.isPlain (x : Spelled) : Bool :=
  Separated Char.isAlphanum (items x.spelling.1) &&
    Fits (items x.spelling.1) (x.form.args.map (Arg.value 0 0)) && x.form.args.all Arg.isPlain

/-- Checked on the list of characters, so that nothing but the formats is computed. -/
theorem isPlain_spelled : ∀ x ∈ Op.spelled, x.isPlain = true := by decide +kernel

/-- All forms are plain. -/
theorem isPlain_forms : ∀ x ∈ Op.forms, x.2.isPlain = true := by
  rw [Op.forms_eq]
  intro x hx
  obtain ⟨y, hy, rfl⟩ := List.mem_map.mp hx
  have hplain := isPlain_spelled y hy
  unfold Spelled.isPlain at hplain
  rwa [← y.toList_format] at hplain

/-! ### Operands -/

/-- The registers have different names. -/
theorem GPR_REG_inj : ∀ i j : Fin 32,
    DisR5900asm.GPR_REG.get i = DisR5900asm.GPR_REG.get j → i = j := by
  decide +kernel

/-- The names are letters and digits. -/
theorem GPR_REG_isAlphanum : ∀ i : Fin 32,
    (DisR5900asm.GPR_REG.get i).toList.all Char.isAlphanum = true := by
  decide +kernel

/-- So are addresses. -/
theorem address_isAlphanum (n : Nat) :
    ∀ c ∈ (sprintf "0x%08lX" [.num n]).toList, c.isAlphanum = true := by
  rw [toList_address]
  rintro c (_ | ⟨_, _ | ⟨_, hc⟩⟩)
  · rfl
  · rfl
  · exact lX_isAlphanum c hc

/-- Addresses of different numbers differ. -/
theorem address_inj {n m : Nat} (h : sprintf "0x%08lX" [.num n] = sprintf "0x%08lX" [.num m]) :
    n = m := by
  have hlist := congrArg String.toList h
  rw [toList_address, toList_address] at hlist
  exact lX_inj (List.cons.inj (List.cons.inj hlist).2).2

/-- Plain operands are printed with letters and digits. -/
theorem Arg.within {a : Arg} (ha : a.isPlain = true) (code pc : U32) :
    (a.value code pc).Within Char.isAlphanum := by
  cases a with
  | GPR_REG i => exact List.all_eq_true.mp (GPR_REG_isAlphanum _)
  | DECODE_SA | DECODE_IMMED => trivial
  | jump_decode | offset_decode => exact address_isAlphanum _
  | _ => cases ha

/-- The field of the word an operand shows. -/
def Arg.shown (code : U32) : Arg → U32
  | .GPR_REG i | .COP0_REG i | .COP1_REG_FP i | .COP1_REG_FCR i | .COP2_REG_FP i
  | .COP2_REG_CTL i => (i.decode code).setWidth 32
  | .DECODE_SA => (RegField.SA.decode code).setWidth 32
  | .DECODE_IMMED | .offset_decode => DisR5900asm.DECODE_IMMED code
  | .jump_decode => code &&& 0x3ffffff
  | .dest_string => code &&& 0x1e00000

section Fields

variable {code code' pc : U32}

/-- A field is determined by its number. -/
theorem field_inj {i j : BitVec 5} (h : i.setWidth 32 = j.setWidth 32) : i = j := by
  have hnat := congrArg BitVec.toNat h
  rw [BitVec.toNat_setWidth_of_le (by decide), BitVec.toNat_setWidth_of_le (by decide)] at hnat
  exact BitVec.eq_of_toNat_eq hnat

/-- Jumps from one address are shown differently if they go to different places. -/
theorem DECODE_JUMP_inj (h : DisR5900asm.DECODE_JUMP code pc = DisR5900asm.DECODE_JUMP code' pc) :
    code &&& 0x3ffffff#32 = code' &&& 0x3ffffff#32 := by
  apply BitVec.eq_of_getLsbD_eq
  intro i hi
  by_cases hlow : i < 26
  · have hbit := congrArg (fun x => x.getLsbD (i + 2)) h
    unfold DisR5900asm.DECODE_JUMP at hbit
    interval_cases i <;> simpa using hbit
  · interval_cases i <;> simp

/-- Branches from one address are shown differently if their offsets differ. -/
theorem DECODE_OFFSET_inj
    (h : DisR5900asm.DECODE_OFFSET code pc = DisR5900asm.DECODE_OFFSET code' pc) :
    DisR5900asm.DECODE_IMMED code = DisR5900asm.DECODE_IMMED code' := by
  -- The address of the branch and the 4 are the same on both sides.
  have hoffset := (BitVec.add_left_inj _).mp ((BitVec.add_left_inj _).mp h)
  have hint := congrArg BitVec.toInt hoffset
  have h4 : (4 : U32) = 4#32 := rfl
  rw [BitVec.toInt_signExtend_of_le (by decide), BitVec.toInt_signExtend_of_le (by decide),
    setWidth_DECODE_IMMED, setWidth_DECODE_IMMED, h4, offset_toInt, offset_toInt] at hint
  -- Four times the offset does not wrap.
  have hlow : code.setWidth 16 = code'.setWidth 16 := BitVec.eq_of_toInt_eq (by omega)
  have hmask : ∀ code : U32, DisR5900asm.DECODE_IMMED code = (code.setWidth 16).setWidth 32 := by
    intro code
    apply BitVec.eq_of_getLsbD_eq
    intro i hi
    unfold DisR5900asm.DECODE_IMMED
    interval_cases i <;> simp
  rw [hmask, hmask, hlow]

/-- **Operands.** What is printed for an operand and its field determine each other. -/
theorem value_eq_iff {a : Arg} (ha : a.isPlain = true) :
    a.value code pc = a.value code' pc ↔ a.shown code = a.shown code' := by
  cases a with
  -- A register: its name determines its number.
  | GPR_REG i =>
    constructor
    · intro h
      have hdecode := BitVec.toFin_inj.mp (GPR_REG_inj _ _ (Value.str.inj h))
      exact congrArg (BitVec.setWidth 32) hdecode
    · intro h
      exact congrArg (fun x : BitVec 5 => Value.str (DisR5900asm.GPR_REG.get x.toFin))
        (field_inj h)
  -- A shift amount and an immediate are printed as numbers.
  | DECODE_SA =>
    constructor
    · intro h
      exact congrArg (BitVec.setWidth 32) (BitVec.eq_of_toNat_eq (Value.num.inj h))
    · intro h
      exact congrArg (fun x : BitVec 5 => Value.num x.toNat) (field_inj h)
  | DECODE_IMMED =>
    constructor
    · intro h
      exact BitVec.eq_of_toNat_eq (Value.num.inj h)
    · intro h
      exact congrArg (fun x : U32 => Value.num x.toNat) h
  -- Targets: the address determines the field, given the address of the word.
  | jump_decode =>
    constructor
    · intro h
      exact DECODE_JUMP_inj (BitVec.eq_of_toNat_eq (address_inj (Value.str.inj h)))
    · intro h
      have hdecoded : DisR5900asm.DECODE_JUMP code pc = DisR5900asm.DECODE_JUMP code' pc :=
        congrArg (fun x : U32 => (pc &&& 0xf0000000 ||| x <<< 2).setWidth 64) h
      exact congrArg (fun x : U64 => Value.str (sprintf "0x%08lX" [.num x.toNat])) hdecoded
  | offset_decode =>
    constructor
    · intro h
      exact DECODE_OFFSET_inj (BitVec.eq_of_toNat_eq (address_inj (Value.str.inj h)))
    · intro h
      have hdecoded : DisR5900asm.DECODE_OFFSET code pc = DisR5900asm.DECODE_OFFSET code' pc :=
        congrArg (fun x : U32 =>
          (((x.setWidth 16).signExtend 32 * 4).signExtend 64 + pc.setWidth 64 + 4 : U64)) h
      exact congrArg (fun x : U64 => Value.str (sprintf "0x%08lX" [.num x.toNat])) hdecoded
  | _ => cases ha

end Fields

/-! ### Texts -/

section Texts

variable {f g : Format} {code code' pc pc' : U32}

/-- A plain format fits its arguments. -/
theorem Format.fits (hf : f.isPlain = true) (code pc : U32) :
    Fits (items f.format.toList) (f.args.map (Arg.value code pc)) = true := by
  rw [fits_value]
  exact (Bool.and_eq_true_iff.mp (Bool.and_eq_true_iff.mp hf).1).2

/-- Its items are separated. -/
theorem Format.separated (hf : f.isPlain = true) :
    Separated Char.isAlphanum (items f.format.toList) = true :=
  (Bool.and_eq_true_iff.mp (Bool.and_eq_true_iff.mp hf).1).1

/-- Its arguments are plain. -/
theorem Format.args_isPlain (hf : f.isPlain = true) : ∀ a ∈ f.args, a.isPlain = true :=
  List.all_eq_true.mp (Bool.and_eq_true_iff.mp hf).2

/-- Their texts are within letters and digits. -/
theorem Format.within (hf : f.isPlain = true) (code pc : U32) :
    ∀ v ∈ f.args.map (Arg.value code pc), v.Within Char.isAlphanum := by
  intro v hv
  obtain ⟨a, ha, rfl⟩ := List.mem_map.mp hv
  exact Arg.within (f.args_isPlain hf a ha) code pc

/-- Texts are compared as lists of characters. -/
theorem text_eq : f.text code pc = g.text code' pc' ↔
    print (items f.format.toList) (f.args.map (Arg.value code pc)) =
      print (items g.format.toList) (g.args.map (Arg.value code' pc')) :=
  String.ofList_inj

/-- Texts for one instruction, shown for one address, differ exactly if a field shown differs. -/
theorem text_eq_iff (hf : f.isPlain = true) :
    f.text code pc = f.text code' pc ↔ ∀ a ∈ f.args, a.shown code = a.shown code' := by
  have hvalues : f.text code pc = f.text code' pc ↔
      f.args.map (Arg.value code pc) = f.args.map (Arg.value code' pc) := by
    rw [text_eq]
    constructor
    · -- Two operands never run together, so the text can be split in one way only.
      exact print_inj (fun c hc => hc) (f.separated hf) (f.fits hf _ _) (f.fits hf _ _)
        (f.within hf _ _) (f.within hf _ _)
    · intro h
      rw [h]
  calc f.text code pc = f.text code' pc
      ↔ f.args.map (Arg.value code pc) = f.args.map (Arg.value code' pc) := hvalues
    _ ↔ ∀ a ∈ f.args, a.value code pc = a.value code' pc := List.map_inj_left
    _ ↔ ∀ a ∈ f.args, a.shown code = a.shown code' :=
        forall₂_congr fun a ha => value_eq_iff (f.args_isPlain hf a ha)

/-- Two lines are the same if the addresses are and the texts. -/
theorem line_eq_iff : disR5900FasmText code pc = disR5900FasmText code' pc' ↔
    pc = pc' ∧ ((disR5900Fasm code).P code).text code pc =
      ((disR5900Fasm code').P code').text code' pc' := by
  rw [← String.toList_inj, toList_disR5900FasmText, toList_disR5900FasmText]
  constructor
  · intro h
    -- The colon ends the address.
    have hends : ∀ s, EndsOperand Char.isAlphanum (':' :: s) := fun s => rfl
    obtain ⟨haddress, hrest⟩ :=
      append_inj_of_endsOperand lX_isAlphanum lX_isAlphanum (hends _) (hends _) h
    exact ⟨BitVec.eq_of_toNat_eq (lX_inj haddress),
      String.toList_inj.mp (List.cons.inj (List.cons.inj hrest).2).2⟩
  · rintro ⟨rfl, htext⟩
    rw [htext]

end Texts

/-! ### Reading back -/

/-- The same text is printed by the same call, for the same name. -/
def SameForm (x y : Op × Format) : Prop :=
  ∀ code pc code' pc', x.2.text code pc = y.2.text code' pc' →
    x.1.shownAs = y.1.shownAs ∧ x.2 = y.2

instance : Std.Symm SameForm where
  symm _ _ h code pc code' pc' htext :=
    let ⟨hname, hform⟩ := h code' pc' code pc htext.symm
    ⟨hname.symm, hform.symm⟩

/-- On the characters. -/
def Spelled.toldApart (x y : Spelled) : Bool :=
  Apart (items x.spelling.1) (items y.spelling.1) ||
    (x.op.shownAs = y.op.shownAs && x.form = y.form)

/-- The check on the spelled forms is that on the forms. -/
theorem Spelled.toldApart_eq (x y : Spelled) :
    Ps2Unpacker.toldApart x.call y.call = x.toldApart y := by
  unfold Ps2Unpacker.toldApart Spelled.toldApart Spelled.call
  rw [x.toList_format, y.toList_format]

/-- All pairs of forms are told apart. -/
theorem toldApart_spelled : Op.spelled.Pairwise fun x y => x.toldApart y = true := by
  -- Most pairs differ in the first or second character.
  decide +kernel

/-- **The names** of the instructions are different. -/
theorem toldApart_forms : Op.forms.Pairwise fun x y => toldApart x y = true := by
  rw [Op.forms_eq, List.pairwise_map]
  exact toldApart_spelled.imp fun h => (Spelled.toldApart_eq _ _).trans h

/-- **Forms that are told apart** do not print one text, for whatever words. -/
theorem sameForm_of_toldApart {x y : Op × Format} (hx : x.2.isPlain = true)
    (hy : y.2.isPlain = true) (h : toldApart x y = true) : SameForm x y := by
  intro code pc code' pc' htext
  rcases Bool.or_eq_true_iff.mp h with hapart | hsame
  · -- Their constant parts differ where both still read the same operands.
    exact absurd (text_eq.mp htext) (print_ne_of_apart (fun c hc => hc) hapart
      (x.2.separated hx) (y.2.separated hy) (x.2.fits hx _ _) (y.2.fits hy _ _)
      (x.2.within hx _ _) (y.2.within hy _ _))
  · obtain ⟨hname, hform⟩ := Bool.and_eq_true_iff.mp hsame
    exact ⟨of_decide_eq_true hname, of_decide_eq_true hform⟩

/-- So a text determines its form. -/
theorem sameForm_forms : ∀ x ∈ Op.forms, ∀ y ∈ Op.forms, SameForm x y := by
  intro x hx y hy
  have hself : ∀ x ∈ Op.forms, SameForm x x := fun x _ _ _ _ _ _ => ⟨rfl, rfl⟩
  -- Pairs of the list, and each form with itself.
  have hpairs : Op.forms.Pairwise SameForm := toldApart_forms.imp_of_mem fun ha hb h =>
    sameForm_of_toldApart (isPlain_forms _ ha) (isPlain_forms _ hb) h
  exact hpairs.forall_of_forall hself hx hy

/-- **Reading the report.** Lines for two words that the interpreter executes are the same exactly
if they are for the same address and instruction, and for words with the same fields as far as
these are shown. -/
theorem report_eq_iff {code code' pc pc' : U32} (ho : (decode code).isInstruction = true)
    (ho' : (decode code').isInstruction = true) :
    disR5900FasmText code pc = disR5900FasmText code' pc' ↔
      pc = pc' ∧ (decode code).shownAs = (decode code').shownAs ∧
        (disR5900Fasm code).P code = (disR5900Fasm code').P code' ∧
        ∀ a ∈ ((disR5900Fasm code).P code).args, a.shown code = a.shown code' := by
  have hmem := mem_forms ho code
  have hmem' := mem_forms ho' code'
  rw [line_eq_iff, disR5900Fasm_eq rfl ho, disR5900Fasm_eq rfl ho']
  have hplain := isPlain_forms _ hmem
  constructor
  · rintro ⟨rfl, htext⟩
    -- The text determines the form, and then the operands.
    obtain ⟨hname, hform⟩ := sameForm_forms _ hmem _ hmem' code pc code' pc htext
    refine ⟨rfl, hname, hform, (text_eq_iff hplain).mp (htext.trans ?_)⟩
    exact congrArg (fun f : Format => f.text code' pc) hform.symm
  · rintro ⟨rfl, hname, hform, hshown⟩
    refine ⟨rfl, ?_⟩
    rw [(text_eq_iff hplain).mpr hshown, hform]

/-- `madd zero, zero zero` is the line for two instructions, and for each of them with other unused
bits; `mult` has a line of its own. -/
theorem report_eq_iff_madd :
    disR5900FasmText 0x70000000 0x100 = disR5900FasmText 0x70000001 0x100 ∧
    decode 0x70000000 ≠ decode 0x70000001 ∧
    disR5900FasmText 0x70000000 0x100 = disR5900FasmText 0x70000040 0x100 ∧
    disR5900FasmText 0x70000000 0x100 ≠ disR5900FasmText 0x00000018 0x100 := by
  have hmaddu := @report_eq_iff 0x70000000 0x70000001 0x100 0x100 rfl rfl
  have hunused := @report_eq_iff 0x70000000 0x70000040 0x100 0x100 rfl rfl
  have hmult := @report_eq_iff 0x70000000 0x00000018 0x100 0x100 rfl rfl
  refine ⟨hmaddu.mpr ⟨rfl, rfl, rfl, by decide⟩, by decide,
    hunused.mpr ⟨rfl, rfl, rfl, by decide⟩, fun h => ?_⟩
  exact absurd (hmult.mp h).2.1 (by decide)

end Ps2Unpacker
