import Ps2Unpacker.Framework.Division
import Ps2Unpacker.Semantics.HiLo

/-!
# The divisions

The seven division instructions divide one, two or four lanes. A division whose divisor is zero is
left out and its lanes of `HI` and `LO` stay; nothing keeps the quotient of the least word by minus
one from being computed, which C does not define. A `DivLane` is one of the divisions of an
instruction, with its operands as integers.

* `Performs`: a part of an instruction carries out the division of one lane, from every processor
  with the same sources, or is undefined if the quotient overflows.
* `foldlM_of_performs`, `foldlM_eq_none`: a sequence of such parts.
* `Division.exact_or_overflow`: each instruction is one, so it is exact or undefined.
* `PABSW?_isSome_iff`, `PABSH?_eq`: where the absolute values are defined.
* `division_exact_iff`: which operands the instructions handle.
-/

namespace Ps2Unpacker

open Lanes CpuRegisters

/-! ### The lanes of an instruction -/

/-- Lane `k` of `HI` and of `LO` is the same. -/
def CpuRegisters.KeepsLane (w k : Nat) (r r' : CpuRegisters) : Prop :=
  lane w k r'.LO = lane w k r.LO ∧ lane w k r'.HI = lane w k r.HI

/-- A division that goes to lane `index` of `HI` and `LO`, in lanes of width `w`. -/
structure DivLane (w : Nat) where
  index : Nat
  dividend : Int
  divisor : Int

namespace DivLane

/-- The words `ss` of the sources, into doubleword `dd`. -/
def signed (r : CpuRegisters) (dd ss : Nat) : DivLane 64 :=
  ⟨dd, (UL ss (r.GPR r.rs)).toInt, (UL ss (r.GPR r.rt)).toInt⟩

def unsigned (r : CpuRegisters) (dd ss : Nat) : DivLane 64 :=
  ⟨dd, (UL ss (r.GPR r.rs)).toNat, (UL ss (r.GPR r.rt)).toNat⟩

/-- Word `n` of `rs` by halfword 0 of `rt`. -/
def byHalfword (r : CpuRegisters) (n : Nat) : DivLane 32 :=
  ⟨n, (UL n (r.GPR r.rs)).toInt, (US 0 (r.GPR r.rt)).toInt⟩

variable {w : Nat}

/-- The quotient is not a word. -/
def Overflows (l : DivLane w) : Prop := l.dividend = -2 ^ 31 ∧ l.divisor = -1

/-- The low words of the lanes are the quotient and the remainder; without a divisor the lanes stay.
-/
def Exact (l : DivLane w) (r r' : CpuRegisters) : Prop :=
  if l.divisor = 0 then KeepsLane w l.index r r'
  else ∃ m, Truncates l.dividend l.divisor (l.dividend.tdiv l.divisor) m ∧
    (lane w l.index r'.LO).setWidth 32 =
      BitVec.ofInt 32 (l.dividend.tdiv l.divisor) ∧
    (lane w l.index r'.HI).setWidth 32 = BitVec.ofInt 32 m

/-- A division that reads the lanes as they were and is read as it left them. -/
theorem Exact.of_keepsLane {l : DivLane w} {r₀ r r' r'' : CpuRegisters} (h : l.Exact r r')
    (hbefore : KeepsLane w l.index r₀ r) (hafter : KeepsLane w l.index r' r'') :
    l.Exact r₀ r'' := by
  unfold Exact at h ⊢
  unfold KeepsLane at hbefore hafter
  by_cases hd : l.divisor = 0
  · rw [if_pos hd] at h ⊢
    exact ⟨hafter.1.trans (h.1.trans hbefore.1), hafter.2.trans (h.2.trans hbefore.2)⟩
  · rw [if_neg hd] at h ⊢
    rwa [hafter.1, hafter.2]

/-- The truncated quotient and remainder are exact. -/
theorem exact_of_words {l : DivLane w} {r r' : CpuRegisters} (hd : l.divisor ≠ 0)
    (hLO : (lane w l.index r'.LO).setWidth 32 = BitVec.ofInt 32 (l.dividend.tdiv l.divisor))
    (hHI : (lane w l.index r'.HI).setWidth 32 = BitVec.ofInt 32 (l.dividend.tmod l.divisor)) :
    l.Exact r r' := by
  unfold Exact
  rw [if_neg hd]
  exact ⟨_, truncates_tdiv hd _, hLO, hHI⟩

end DivLane

/-! ### Parts of an instruction -/

/-- A lane is kept by doing nothing, and by two steps that keep it. -/
theorem CpuRegisters.KeepsLane.refl (w k : Nat) (r : CpuRegisters) : KeepsLane w k r r := ⟨rfl, rfl⟩

theorem CpuRegisters.KeepsLane.trans {w k : Nat} {r r' r'' : CpuRegisters} (h : KeepsLane w k r r')
    (h' : KeepsLane w k r' r'') : KeepsLane w k r r'' :=
  ⟨h'.1.trans h.1, h'.2.trans h.2⟩

/-- The two processors hold the same sources. -/
structure SameSources (r₀ r : CpuRegisters) : Prop where
  GPR : r.GPR = r₀.GPR
  code : r.code = r₀.code

/-- The division `l` has been carried out, and nothing else. -/
structure Divided {w : Nat} (l : DivLane w) (r r' : CpuRegisters) : Prop where
  sources : SameSources r r'
  exact : l.Exact r r'
  others : ∀ j, j ≠ l.index → KeepsLane w j r r'

/-- From the sources of `r₀`, `f` carries out the division `l` unless it overflows. -/
structure Performs {w : Nat} (r₀ : CpuRegisters) (f : CpuRegisters → Option CpuRegisters)
    (l : DivLane w) : Prop where
  defined : ∀ {r}, SameSources r₀ r → ¬l.Overflows → ∃ r', f r = some r' ∧ Divided l r r'
  overflow : ∀ {r}, SameSources r₀ r → l.Overflows → f r = none

/-- The sources stay over two steps. -/
theorem SameSources.trans {r₀ r r' : CpuRegisters} (h : SameSources r₀ r) (h' : SameSources r r') :
    SameSources r₀ r' :=
  ⟨h'.GPR.trans h.GPR, h'.code.trans h.code⟩

section Parts

variable {α : Type} {w : Nat} {r₀ : CpuRegisters} {f : α → CpuRegisters → Option CpuRegisters}
  {l : α → DivLane w}

/-- **A sequence of divisions** without an overflow: each lane is right in the end, and the others
stay. -/
theorem foldlM_of_performs (as : List α) :
    ∀ {r : CpuRegisters}, (∀ a ∈ as, Performs r₀ (f a) (l a)) → SameSources r₀ r →
      (as.map fun a => (l a).index).Nodup → (∀ a ∈ as, ¬(l a).Overflows) →
      ∃ r', as.foldlM (fun r a => f a r) r = some r' ∧ (∀ a ∈ as, (l a).Exact r r') ∧
        ∀ j, (∀ a ∈ as, j ≠ (l a).index) → KeepsLane w j r r' := by
  induction as with
  | nil =>
    intro r _ _ _ _
    exact ⟨r, rfl, by simp, fun j _ => KeepsLane.refl w j r⟩
  | cons a as ih =>
    intro r hf hr hnodup hover
    rw [List.map_cons, List.nodup_cons] at hnodup
    -- The first division is defined, and the others find the same sources behind it.
    obtain ⟨r₁, hrun, hdivided⟩ :=
      (hf a List.mem_cons_self).defined hr (hover a List.mem_cons_self)
    obtain ⟨r', hrest, hexact, hothers⟩ := ih (fun b hb => hf b (List.mem_cons_of_mem a hb))
      (hr.trans hdivided.sources) hnodup.2 fun b hb => hover b (List.mem_cons_of_mem a hb)
    -- No two divisions of the sequence go to the same lane.
    have hne : ∀ b ∈ as, (l b).index ≠ (l a).index := fun b hb heq =>
      hnodup.1 (List.mem_map.mpr ⟨b, hb, heq⟩)
    refine ⟨r', ?_, fun b hb => ?_, fun j hj => ?_⟩
    · rw [List.foldlM_cons, hrun]
      exact hrest
    · rcases List.mem_cons.mp hb with rfl | hb
      -- The later divisions do not touch this lane, nor this one theirs.
      · exact hdivided.exact.of_keepsLane (KeepsLane.refl _ _ _)
          (hothers _ fun c hc => (hne c hc).symm)
      · exact (hexact b hb).of_keepsLane (hdivided.others _ (hne b hb)) (KeepsLane.refl _ _ _)
    · exact (hdivided.others j (hj a List.mem_cons_self)).trans
        (hothers j fun b hb => hj b (List.mem_cons_of_mem a hb))

/-- One overflow makes the sequence undefined. -/
theorem foldlM_eq_none (as : List α) :
    ∀ {r : CpuRegisters}, (∀ a ∈ as, Performs r₀ (f a) (l a)) → SameSources r₀ r →
      (∃ a ∈ as, (l a).Overflows) → as.foldlM (fun r a => f a r) r = none := by
  -- Up to the first overflow the divisions are carried out.
  induction as with
  | nil =>
    rintro r _ _ ⟨a, ha, _⟩
    cases ha
  | cons a as ih =>
    rintro r hf hr ⟨b, hb, hover⟩
    rw [List.foldlM_cons]
    -- The first division overflows, or it is carried out and the overflow comes later.
    by_cases ha : (l a).Overflows
    · rw [(hf a List.mem_cons_self).overflow hr ha]
      rfl
    · obtain ⟨r₁, hrun, hdivided⟩ := (hf a List.mem_cons_self).defined hr ha
      have hmem : b ∈ as := by
        rcases List.mem_cons.mp hb with rfl | hb
        · exact absurd hover ha
        · exact hb
      rw [hrun]
      exact ih (fun b hb => hf b (List.mem_cons_of_mem a hb)) (hr.trans hdivided.sources)
        ⟨b, hmem, hover⟩

end Parts

/-! ### The three kinds of division -/

/-- The lanes of `HI` and `LO` that were written are read back, and no others change. -/
theorem divided_of_write {w : Nat} {l : DivLane w} {r : CpuRegisters} {q m : BitVec w}
    (hfit : w * l.index + w ≤ 128) (hd : l.divisor ≠ 0)
    (hq : q.setWidth 32 = BitVec.ofInt 32 (l.dividend.tdiv l.divisor))
    (hm : m.setWidth 32 = BitVec.ofInt 32 (l.dividend.tmod l.divisor)) :
    Divided l r ((r.setLOLane l.index q).setHILane l.index m) where
  sources := ⟨rfl, rfl⟩
  exact := by
    -- What was written to the lanes is read back.
    have hLO : lane w l.index (Lanes.setLane l.index q r.LO) = q := lane_setLane_self _ _ _ hfit
    have hHI : lane w l.index (Lanes.setLane l.index m r.HI) = m := lane_setLane_self _ _ _ hfit
    refine DivLane.exact_of_words hd ?_ ?_
    · change (lane w l.index (Lanes.setLane l.index q r.LO)).setWidth 32 = _
      rw [hLO, hq]
    · change (lane w l.index (Lanes.setLane l.index m r.HI)).setWidth 32 = _
      rw [hHI, hm]
  others j hj := ⟨lane_setLane_of_ne q r.LO hj, lane_setLane_of_ne m r.HI hj⟩

/-- A division by zero changes nothing, and asks for nothing. -/
theorem divided_of_zero {w : Nat} {l : DivLane w} (hd : l.divisor = 0) (r : CpuRegisters) :
    Divided l r r where
  sources := ⟨rfl, rfl⟩
  exact := (if_pos hd).mpr (KeepsLane.refl w l.index r)
  others j _ := KeepsLane.refl w j r

namespace Handler

/-- A word is zero if its value is. -/
theorem toInt_eq_zero_iff {w : Nat} (x : BitVec w) : x.toInt = 0 ↔ x = 0 := by
  rw [← BitVec.toInt_inj, BitVec.ofNat_eq_ofNat, BitVec.toInt_zero]

/-- The quotient that C leaves undefined. -/
theorem divides_iff (n d : U32) : divides n d = true ↔ ¬(n.toInt = -2 ^ 31 ∧ d.toInt = -1) := by
  have hn : n.toInt = -2 ^ 31 ↔ n = 0x80000000 := by
    rw [← BitVec.toInt_inj]
    exact Iff.rfl
  have hd : d.toInt = -1 ↔ d = 0xffffffff := by
    rw [← BitVec.toInt_inj]
    exact Iff.rfl
  unfold divides
  rw [hn, hd, Bool.not_eq_true', Bool.and_eq_false_iff, beq_eq_false_iff_ne, beq_eq_false_iff_ne]
  tauto

/-- The sources that the parts of an instruction read. -/
theorem source_words {r₀ r : CpuRegisters} (h : SameSources r₀ r) :
    r.GPR r.rs = r₀.GPR r₀.rs ∧ r.GPR r.rt = r₀.GPR r₀.rt := by
  unfold CpuRegisters.rs CpuRegisters.rt
  rw [h.GPR, h.code]
  exact ⟨rfl, rfl⟩

section Kinds

variable (r₀ : CpuRegisters) {dd : Nat} (hdd : dd < 2) (ss : Nat)
include hdd

/-- A signed division overflows for one pair of operands. -/
theorem performs_divideInto :
    Performs r₀ (fun r => divideInto r dd ss) (DivLane.signed r₀ dd ss) where
  defined := by
    intro r hr hover
    obtain ⟨hs, ht⟩ := source_words hr
    -- A zero divisor is tested for; any other divides unless the quotient overflows.
    by_cases hd : UL ss (r₀.GPR r₀.rt) = 0
    · refine ⟨r, divideInto_of_zero (by rw [ht, hd]), divided_of_zero ?_ r⟩
      exact (toInt_eq_zero_iff _).mpr hd
    · have hdiv := (divides_iff (UL ss (r₀.GPR r₀.rs)) (UL ss (r₀.GPR r₀.rt))).mpr hover
      rw [← hs, ← ht] at hdiv
      refine ⟨_, divideInto_of_divides (by rw [ht]; exact hd) hdiv, ?_⟩
      rw [hs, ht]
      refine divided_of_write (l := DivLane.signed r₀ dd ss) ?_
        (fun h0 => hd ((toInt_eq_zero_iff _).mp h0)) ?_ ?_
      · change 64 * dd + 64 ≤ 128
        omega
      · rw [setWidth_signExtend (by decide)]
        exact (ofInt_tdiv _ _).symm
      · rw [setWidth_signExtend (by decide)]
        exact (ofInt_tmod _ _).symm
  overflow := by
    intro r hr hover
    obtain ⟨hs, ht⟩ := source_words hr
    -- The divisor of an overflow is minus one, so it is not the one that is tested for.
    have hne : UL ss (r.GPR r.rt) ≠ 0 := by
      intro h0
      rw [ht] at h0
      have hzero := (toInt_eq_zero_iff _).mpr h0
      have hminus : (UL ss (r₀.GPR r₀.rt)).toInt = -1 := hover.2
      omega
    refine divideInto_of_not_divides hne ?_
    rw [hs, ht, divides_iff]
    exact not_not_intro hover

/-- An unsigned division never overflows. -/
theorem performs_divideIntoU :
    Performs r₀ (fun r => some (divideIntoU r dd ss)) (DivLane.unsigned r₀ dd ss) where
  defined := by
    intro r hr _
    obtain ⟨hs, ht⟩ := source_words hr
    -- As a number the divisor is zero if it is zero as a word.
    have hcast : ((UL ss (r₀.GPR r₀.rt)).toNat : Int) = 0 ↔ UL ss (r₀.GPR r₀.rt) = 0 := by
      rw [Int.natCast_eq_zero, ← BitVec.toNat_inj]
      rfl
    by_cases hd : UL ss (r₀.GPR r₀.rt) = 0
    · refine ⟨r, congrArg some (divideIntoU_of_zero (by rw [ht, hd])), divided_of_zero ?_ r⟩
      exact hcast.mpr hd
    · refine ⟨_, congrArg some (divideIntoU_of_ne (by rw [ht]; exact hd)), ?_⟩
      rw [hs, ht]
      refine divided_of_write (l := DivLane.unsigned r₀ dd ss) ?_ (fun h0 => hd (hcast.mp h0)) ?_ ?_
      · change 64 * dd + 64 ≤ 128
        omega
      · -- The results are stored extended, and read back as words.
        rw [BitVec.setWidth_setWidth_of_le _ (by decide), BitVec.setWidth_eq]
        exact (ofInt_tdiv_toNat _ _).symm
      · rw [BitVec.setWidth_setWidth_of_le _ (by decide), BitVec.setWidth_eq]
        exact (ofInt_tmod_toNat _ _).symm
  overflow := by
    intro r _ hover
    have hminus : ((UL ss (r₀.GPR r₀.rt)).toNat : Int) = -1 := hover.2
    omega

end Kinds

/-- The remainder by a halfword is not changed by cutting it to a halfword. -/
theorem performs_pdivbw {r₀ : CpuRegisters} (hd : US 0 (r₀.GPR r₀.rt) ≠ 0) {n : Nat} (hn : n < 4) :
    Performs r₀ (fun r => pdivbw r n) (DivLane.byHalfword r₀ n) where
  defined := by
    intro r hr hover
    obtain ⟨hs, ht⟩ := source_words hr
    have hne : (US 0 (r₀.GPR r₀.rt)).toInt ≠ 0 := fun h0 => hd ((toInt_eq_zero_iff _).mp h0)
    -- The divisor is a halfword, extended to the width of the division.
    have hext : ((US 0 (r₀.GPR r₀.rt)).signExtend 32).toInt = (US 0 (r₀.GPR r₀.rt)).toInt :=
      BitVec.toInt_signExtend_of_le (by decide)
    have hdiv : divides (UL n (r.GPR r.rs)) ((US 0 (r.GPR r.rt)).signExtend 32) = true := by
      rw [hs, ht, divides_iff, hext]
      exact hover
    refine ⟨_, if_pos hdiv, ?_⟩
    rw [hs, ht, signExtend_setWidth_srem _ (by decide) (by decide) hne]
    refine divided_of_write (l := DivLane.byHalfword r₀ n) ?_ hne ?_ ?_
    · change 32 * n + 32 ≤ 128
      omega
    · rw [BitVec.setWidth_eq, ← ofInt_tdiv, hext]
      rfl
    · rw [BitVec.setWidth_eq, ← ofInt_tmod, hext]
      rfl
  overflow := by
    intro r hr hover
    obtain ⟨hs, ht⟩ := source_words hr
    -- The overflow is that of the word by minus one.
    refine if_neg ?_
    rw [hs, ht, divides_iff, BitVec.toInt_signExtend_of_le (by decide)]
    exact not_not_intro hover

end Handler

/-! ### The instructions -/

/-- The division instructions. -/
inductive Division where
  | DIV | DIV1 | PDIVW | PDIVBW | DIVU | DIVU1 | PDIVUW

namespace Division

def op : Division → RegOp
  | DIV => .DIV
  | DIV1 => .DIV1
  | PDIVW => .PDIVW
  | PDIVBW => .PDIVBW
  | DIVU => .DIVU
  | DIVU1 => .DIVU1
  | PDIVUW => .PDIVUW

/-- The width of the lanes of `HI` and `LO` that the instruction writes. -/
def width : Division → Nat
  | PDIVBW => 32
  | _ => 64

/-- The divisions of the instruction, in their order. -/
def lanes (r : CpuRegisters) : (o : Division) → List (DivLane o.width)
  | DIV => [.signed r 0 0]
  | DIV1 => [.signed r 1 0]
  | PDIVW => [.signed r 0 0, .signed r 1 2]
  | PDIVBW => [0, 1, 2, 3].map (.byHalfword r)
  | DIVU => [.unsigned r 0 0]
  | DIVU1 => [.unsigned r 1 0]
  | PDIVUW => [.unsigned r 0 0, .unsigned r 1 2]

/-- From `r`, every division of the instruction is defined and exact. -/
def ExactFrom (o : Division) (r : CpuRegisters) : Prop :=
  ∃ r', o.op.run r = some r' ∧ ∀ l ∈ o.lanes r, l.Exact r r'

/-- No division of the instruction overflows. -/
def InRange (o : Division) (r : CpuRegisters) : Prop := ∀ l ∈ o.lanes r, ¬l.Overflows

/-- An instruction that is a sequence of divisions is exact, or undefined by an overflow. -/
theorem exact_or_overflow_of_performs {α : Type} {o : Division} {r : CpuRegisters}
    {f : α → CpuRegisters → Option CpuRegisters} {l : α → DivLane o.width} {as : List α}
    (hrun : o.op.run r = as.foldlM (fun r a => f a r) r) (hlanes : o.lanes r = as.map l)
    (hf : ∀ a ∈ as, Performs r (f a) (l a)) (hnodup : (as.map fun a => (l a).index).Nodup) :
    o.InRange r ∧ o.ExactFrom r ∨ ¬o.InRange r ∧ o.op.run r = none := by
  have hr : SameSources r r := ⟨rfl, rfl⟩
  unfold ExactFrom InRange
  rw [hrun, hlanes]
  simp only [List.forall_mem_map]
  -- Without an overflow all divisions are carried out, and with one the sequence stops there.
  by_cases hover : ∀ a ∈ as, ¬(l a).Overflows
  · obtain ⟨r', hfold, hexact, _⟩ := foldlM_of_performs as hf hr hnodup hover
    exact .inl ⟨hover, r', hfold, hexact⟩
  · refine .inr ⟨hover, foldlM_eq_none as hf hr ?_⟩
    push Not at hover
    exact hover

/-- Without a divisor `PDIVBW` does nothing. -/
theorem PDIVBW_of_zero {r : CpuRegisters} (hd : US 0 (r.GPR r.rt) = 0) :
    PDIVBW.InRange r ∧ PDIVBW.ExactFrom r := by
  have hzero : ∀ l ∈ PDIVBW.lanes r, l.divisor = 0 := by
    intro l hl
    obtain ⟨n, _, rfl⟩ := List.mem_map.mp hl
    exact (Handler.toInt_eq_zero_iff _).mpr hd
  refine ⟨fun l hl hover => ?_, r, if_pos hd, fun l hl => (divided_of_zero (hzero l hl) r).exact⟩
  have hminus : l.divisor = -1 := hover.2
  rw [hzero l hl] at hminus
  cases hminus

/-- The doublewords of a division instruction and the words that are divided into them. -/
def pairs : Division → List (Nat × Nat)
  | DIV | DIVU => [(0, 0)]
  | DIV1 | DIVU1 => [(1, 0)]
  | PDIVW | PDIVUW => [(0, 0), (1, 2)]
  | PDIVBW => []

/-- **The divisions** of an instruction are exact, or one of them overflows and the instruction is
undefined. -/
theorem exact_or_overflow (o : Division) (r : CpuRegisters) :
    o.InRange r ∧ o.ExactFrom r ∨ ¬o.InRange r ∧ o.op.run r = none := by
  -- The lanes of an instruction lie in `HI` and `LO` and are different.
  have hfit : ∀ a ∈ o.pairs, a.1 < 2 := by cases o <;> decide
  have hnodup : (o.pairs.map fun a => a.1).Nodup := by cases o <;> decide
  have hsigned : ∀ a ∈ o.pairs, Performs r (fun r => Handler.divideInto r a.1 a.2)
      (DivLane.signed r a.1 a.2) := fun a ha => Handler.performs_divideInto r (hfit a ha) a.2
  have hunsigned : ∀ a ∈ o.pairs, Performs r (fun r => some (Handler.divideIntoU r a.1 a.2))
      (DivLane.unsigned r a.1 a.2) := fun a ha => Handler.performs_divideIntoU r (hfit a ha) a.2
  cases o with
  | DIV | DIV1 => exact exact_or_overflow_of_performs (bind_pure _).symm rfl hsigned hnodup
  | PDIVW =>
    refine exact_or_overflow_of_performs ?_ rfl hsigned hnodup
    simp [op, RegOp.run, Handler.PDIVW, pairs]
  | DIVU | DIVU1 | PDIVUW => exact exact_or_overflow_of_performs rfl rfl hunsigned hnodup
  | PDIVBW =>
    by_cases hd : US 0 (r.GPR r.rt) = 0
    · exact .inl (PDIVBW_of_zero hd)
    · have hrange : ∀ n ∈ [0, 1, 2, 3], n < 4 := by decide
      have hindex : [0, 1, 2, 3].Nodup := by decide
      refine exact_or_overflow_of_performs ?_ rfl
        (fun n hn => Handler.performs_pdivbw hd (hrange n hn)) hindex
      -- The four divisions are behind one test of the divisor.
      change Handler.PDIVBW r = _
      unfold Handler.PDIVBW
      rw [if_neg hd]
      simp

/-- A division is exact exactly in range. -/
theorem exactFrom_iff (o : Division) (r : CpuRegisters) : o.ExactFrom r ↔ o.InRange r := by
  rcases o.exact_or_overflow r with ⟨hrange, hexact⟩ | ⟨hrange, hrun⟩
  · exact iff_of_true hexact hrange
  · -- Out of range there is no result.
    refine iff_of_false ?_ hrange
    rintro ⟨r', hsome, _⟩
    rw [hrun] at hsome
    cases hsome

/-- The divisions that are undefined. -/
theorem run_eq_none_iff (o : Division) (r : CpuRegisters) : o.op.run r = none ↔ ¬o.InRange r := by
  rcases o.exact_or_overflow r with ⟨hrange, r', hsome, _⟩ | ⟨hrange, hrun⟩
  · rw [hsome]
    exact iff_of_false (Option.some_ne_none r') (not_not_intro hrange)
  · exact iff_of_true hrun hrange

end Division

/-! ### Absolute values -/

namespace Handler

/-- One word has no absolute value in C. -/
theorem abs?_eq_none_iff (x : U32) : abs? x = none ↔ x = 0x80000000 := by
  unfold abs?
  split <;> simp_all

/-- Any other word has its own. -/
theorem abs?_of_ne {x : U32} (h : x ≠ 0x80000000) : abs? x = some x.abs := if_neg h

/-- Where it is defined, `PABSW?` is `PABSW`. -/
theorem PABSW?_eq {r : CpuRegisters} (h : ∀ k, k < 4 → UL k (r.GPR r.rt) ≠ 0x80000000) :
    PABSW? r = some (PABSW r) := by
  unfold PABSW? PABSW CpuRegisters.setRdPerLane
  split
  · rfl
  · exact perLane?_eq_some (g := fun _ t => t.abs) 4 fun k _ hk => abs?_of_ne (h k (by omega))

/-- `PABSW?` is defined where it writes nothing, or finds no such word. -/
theorem PABSW?_isSome_iff (r : CpuRegisters) :
    (PABSW? r).isSome ↔ r.rd = 0 ∨ ∀ k, k < 4 → UL k (r.GPR r.rt) ≠ 0x80000000 := by
  constructor
  · intro h
    refine or_iff_not_imp_left.mpr fun hrd k hk hleast => ?_
    unfold PABSW? at h
    rw [if_neg hrd, perLane?_eq_none 4 (Nat.zero_le k) (by omega) ((abs?_eq_none_iff _).mpr hleast)]
      at h
    cases h
  · rintro (hrd | h)
    · unfold PABSW?
      rw [if_pos hrd]
      rfl
    · rw [PABSW?_eq h]
      rfl

/-- A promoted halfword is never the least `int`. -/
theorem abs?_signExtend (t : U16) :
    (abs? (t.signExtend 32)).map (fun v => v.setWidth 16) = some t.abs := by
  -- A halfword is too small to be the least `int`.
  have hne : t.signExtend 32 ≠ 0x80000000 := by
    intro h
    have hint : t.toInt = -2147483648 := by
      rw [← BitVec.toInt_signExtend_of_le (w := 16) (v := 32) (by decide), h]
      rfl
    have hlo := t.le_toInt
    omega
  rw [abs?_of_ne hne, Option.map_some]
  have hmsb : (t.signExtend 32).msb = t.msb := BitVec.msb_signExtend
  have hcut := setWidth_signExtend (show 16 ≤ 32 by decide) t
  rw [BitVec.abs_eq, BitVec.abs_eq, hmsb]
  split
  · rw [BitVec.setWidth_neg_of_le (by decide), hcut]
  · rw [hcut]

/-- `PABSH?` is always defined, and is the handler that runs. -/
theorem PABSH?_eq (r : CpuRegisters) : PABSH? r = some (PABSH r) := by
  unfold PABSH? PABSH CpuRegisters.setRdPerLane
  split
  · rfl
  · exact perLane?_eq_some (g := fun _ t => t.abs) 8 fun _ _ _ => abs?_signExtend _

end Handler

/-- **Divisions and absolute values.** A division instruction is defined and exact in every lane if
and only if no quotient overflows, and `PABSW` is if and only if it takes no absolute value of the
least word; `PABSH` always is. -/
theorem division_exact_iff (r : CpuRegisters) :
    (∀ o : Division, o.ExactFrom r ↔ o.InRange r) ∧
      ((Handler.PABSW? r).isSome ↔ r.rd = 0 ∨ ∀ k, k < 4 → UL k (r.GPR r.rt) ≠ 0x80000000) ∧
      (Handler.PABSH? r).isSome := by
  refine ⟨fun o => o.exactFrom_iff r, Handler.PABSW?_isSome_iff r, ?_⟩
  rw [Handler.PABSH?_eq]
  rfl

/-- `DIV r2, r3` of the least word by minus one. -/
theorem not_division_exact :
    ¬∀ r : CpuRegisters, (∀ o : Division, o.ExactFrom r) ∧ (Handler.PABSW? r).isSome ∧
      (Handler.PABSH? r).isSome := by
  intro hall
  obtain ⟨r', hrun, _⟩ := (hall { CpuRegisters.zeroed 0 with
    code := 0x0043001a, GPR := fun j => if j = 2 then 0x80000000 else 0xffffffff }).1 .DIV
  cases hrun

end Ps2Unpacker
