import Ps2Unpacker.Properties.UnalignedLoads
import Ps2Unpacker.Semantics.PartialStores

/-!
# Stores to unaligned addresses

A word or doubleword is stored to any address by two instructions, one for the bytes in the aligned
block where it starts and one for those in the block where it ends. Each writes its whole block
back, and between them they assign every byte of the value and no other, so the order does not
matter.

* `Straddles.stored_right`, `Straddles.stored_left`: the bytes each instruction stores, by their
  place in the value.
* `pair_stores`: two instructions that store all bytes between them.
* `unaligned_stores`: both pairs leave the memory that the plain store leaves.
-/

namespace Ps2Unpacker

open CProg Lanes

/-- From `s`, two instructions one after the other leave `memory`. -/
def PairStores (first second : M Unit) (c₁ c₂ : U32) (memory : Fin MEMSIZE → U8) (s : Machine) :
    Prop :=
  ∃ s₁ s₂, first (s.withCode c₁) = .ok () s₁ ∧ second (s₁.withCode c₂) = .ok () s₂ ∧
    s₂.memory = memory

/-- A pair leaves, in either order, the memory that the plain store leaves, which differs from the
memory before only in the `n` bytes from `a` on. -/
def StoresAs (n : Nat) (plain right left : M Unit) (cp cr cl a : U32) (s : Machine) : Prop :=
  ∃ t, plain (s.withCode cp) = .ok () t ∧
    PairStores right left cr cl t.memory s ∧ PairStores left right cl cr t.memory s ∧
    ∀ m, (∀ j, j < n → foldAddr (a + BitVec.ofNat 32 j) ≠ some m) → t.memory m = s.memory m

/-! ### The two blocks -/

section Blocks

variable {n k l w : Nat} {a b₀ b₁ : U32} {cell block : Nat → Fin MEMSIZE} {s s' : Machine}
  {v : BitVec w}

/-- The bytes in the first block. -/
theorem Straddles.stored_right (hsplit : Straddles n a b₀ b₁ k l) (h : Denotes a n cell)
    (hblock : Denotes b₀ n block)
    (hstored : Stored n (k ≤ ·) block (fun i => lane 8 (i - k) v) s s') :
    Stored n (· + k < n) cell (fun i => lane 8 i v) s s' := by
  -- Byte `i` of the value is byte `i + k` of the block.
  have hcell : ∀ i, i + k < n → block (i + k) = cell i := by
    intro i hi
    have hfirst := hblock (i + k) hi
    rw [hsplit.right_address, h i (by omega)] at hfirst
    exact (Option.some.inj hfirst).symm
  -- The bytes stored to and the others, by their place in the block.
  refine ⟨hstored.cpu, hstored.memory.reindex (fun i _ hi => ?_) fun j hj hkj => ?_⟩
  · exact ⟨i + k, hi, by omega, hcell i hi, by rw [Nat.add_sub_cancel]⟩
  · refine ⟨j - k, by omega, by omega, ?_⟩
    rw [← hcell (j - k) (by omega), Nat.sub_add_cancel hkj]

/-- The bytes in the second block. -/
theorem Straddles.stored_left (hsplit : Straddles n a b₀ b₁ k l) (h : Denotes a n cell)
    (hblock : Denotes b₁ n block)
    (hstored : Stored n (· + (n - 1 - l) < n) block (fun i => lane 8 (i + (n - 1 - l)) v) s s') :
    Stored n (n - 1 - l ≤ ·) cell (fun i => lane 8 i v) s s' := by
  -- Byte `i` of the value is byte `i - (n - 1 - l)` of the block.
  have hcell : ∀ i, i < n → n - 1 - l ≤ i → block (i - (n - 1 - l)) = cell i := by
    intro i hi hle
    have hsecond := hblock (i - (n - 1 - l)) (by omega)
    rw [hsplit.left_address hle, h i hi] at hsecond
    exact (Option.some.inj hsecond).symm
  refine ⟨hstored.cpu, hstored.memory.reindex (fun i hi hle => ?_) fun j hj hlt => ?_⟩
  · refine ⟨i - (n - 1 - l), by omega, ?_, hcell i hi hle, by rw [Nat.sub_add_cancel hle]⟩
    omega
  · have hback := hcell (j + (n - 1 - l)) hlt (by omega)
    rw [Nat.add_sub_cancel] at hback
    exact ⟨j + (n - 1 - l), hlt, Nat.le_add_left _ _, hback.symm⟩

end Blocks

/-! ### Pairs -/

section Pairs

variable {n : Nat} {a : U32} {cell : Nat → Fin MEMSIZE} {value : Nat → U8} {s : Machine}
  {P Q : Nat → Prop}

/-- From every machine with the registers of `s`, the instruction `o` stores the bytes `i` with
`P i`. -/
def StoresPart (o : M Unit) (code : U32) (n : Nat) (P : Nat → Prop) (cell : Nat → Fin MEMSIZE)
    (value : Nat → U8) (s : Machine) : Prop :=
  ∀ t : Machine, t.cpu.GPR = s.cpu.GPR → ∃ t', o (t.withCode code) = .ok () t' ∧
    Stored n P cell value (t.withCode code) t'

/-- **Two instructions** that store all bytes between them. -/
theorem pair_stores {first second : M Unit} {c₁ c₂ : U32} (hdistinct : Distinct cell 0 n)
    (hcover : ∀ i, i < n → P i ∨ Q i) (hfirst : StoresPart first c₁ n P cell value s)
    (hsecond : StoresPart second c₂ n Q cell value s) {memory : Fin MEMSIZE → U8}
    (hall : Assigned n (fun _ => True) cell value s.memory memory) :
    PairStores first second c₁ c₂ memory s := by
  obtain ⟨s₁, h₁, hpart₁⟩ := hfirst s rfl
  obtain ⟨s₂, h₂, hpart₂⟩ := hsecond s₁ (by rw [hpart₁.cpu]; rfl)
  -- The two parts are all of the value, and what all of it leaves is determined.
  have hboth := hpart₁.memory.trans hpart₂.memory hdistinct
  exact ⟨s₁, s₂, h₁, h₂, (hboth.congr fun i hi => iff_of_true (hcover i hi) trivial).unique hall⟩

/-- **Two stores** that write all bytes between them leave what the plain store leaves. -/
theorem storesAs_of_parts {plain right left : M Unit} {cp cr cl : U32} (hn : n ≤ MEMSIZE)
    (h : Denotes a n cell) (hcover : ∀ i, i < n → P i ∨ Q i)
    (hplain : StoresPart plain cp n (fun _ => True) cell value s)
    (hright : StoresPart right cr n P cell value s) (hleft : StoresPart left cl n Q cell value s) :
    StoresAs n plain right left cp cr cl a s := by
  have hdistinct := h.distinct hn
  obtain ⟨t, hrun, hstored⟩ := hplain s rfl
  refine ⟨t, hrun, pair_stores hdistinct hcover hright hleft hstored.memory,
    pair_stores hdistinct (fun i hi => (hcover i hi).symm) hleft hright hstored.memory,
    -- Outside the value the plain store keeps memory.
    fun m hm => hstored.memory.miss m fun i hi _ heq => hm i hi ?_⟩
  rw [h i hi, heq]

end Pairs

/-! ### The instructions -/

section Instructions

variable {n w : Nat} {s : Machine} {code : U32} {rt rs : Reg} {a : U32}
  {cell : Nat → Fin MEMSIZE} {o : M Unit} (low : U32 → Fin n) (round : U32 → U32)

/-- Other registers do not change what the word names. -/
theorem Machine.Names.store_fields (h : s.Names code rt rs a) {t : Machine}
    (ht : t.cpu.GPR = s.cpu.GPR) :
    Handler.addressOut (t.withCode code).cpu = a ∧
      (t.withCode code).cpu.GPR (t.withCode code).cpu.rt = s.cpu.GPR rt := by
  have hnames := h.after (congrFun ht rs)
  refine ⟨(addressOut_eq _).trans hnames.address, ?_⟩
  rw [hnames.rt, withCode_GPR, ht]

/-- `SWR` and `SDR`. -/
theorem storesPart_right
    (hrun : ∀ {u : Machine} {block : Nat → Fin MEMSIZE},
      Denotes (round (Handler.addressOut u.cpu)) n block → ∃ u', o u = .ok () u' ∧
        Stored n ((low (Handler.addressOut u.cpu) : Nat) ≤ ·) block
          (fun i => lane 8 (i - low (Handler.addressOut u.cpu)) (lane w 0 (u.cpu.GPR u.cpu.rt)))
          u u')
    {b₁ : U32} {l : Nat} (hsplit : Straddles n a (round a) b₁ (low a) l) (h : s.Names code rt rs a)
    (hcell : Denotes a n cell) (hrange : ∀ j, j < n → Accepted (round a + BitVec.ofNat 32 j)) :
    StoresPart o code n (· + (low a : Nat) < n) cell
      (fun i => lane 8 i (lane w 0 (s.cpu.GPR rt))) s := by
  -- The block of the address lies in the memory map, so the handler runs.
  intro t ht
  obtain ⟨haddr, hvalue⟩ := h.store_fields ht
  obtain ⟨block, hblock⟩ := exists_denotes hrange
  obtain ⟨t', ho, hstored⟩ := hrun (u := t.withCode code) (by rw [haddr]; exact hblock)
  rw [haddr, hvalue] at hstored
  exact ⟨t', ho, hsplit.stored_right hcell hblock hstored⟩

/-- `SWL` and `SDL`. -/
theorem storesPart_left {last : U32}
    (hrun : ∀ {u : Machine} {block : Nat → Fin MEMSIZE},
      Denotes (round (Handler.addressOut u.cpu)) n block → ∃ u', o u = .ok () u' ∧
        Stored n (· + (n - 1 - (low (Handler.addressOut u.cpu) : Nat)) < n) block
          (fun i => lane 8 (i + (n - 1 - (low (Handler.addressOut u.cpu) : Nat)))
            (lane w 0 (u.cpu.GPR u.cpu.rt))) u u')
    {b₀ : U32} {k : Nat} (hsplit : Straddles n a b₀ (round last) k (low last))
    (h : s.Names code rt rs last) (hcell : Denotes a n cell)
    (hrange : ∀ j, j < n → Accepted (round last + BitVec.ofNat 32 j)) :
    StoresPart o code n (n - 1 - (low last : Nat) ≤ ·) cell
      (fun i => lane 8 i (lane w 0 (s.cpu.GPR rt))) s := by
  intro t ht
  obtain ⟨haddr, hvalue⟩ := h.store_fields ht
  obtain ⟨block, hblock⟩ := exists_denotes hrange
  obtain ⟨t', ho, hstored⟩ := hrun (u := t.withCode code) (by rw [haddr]; exact hblock)
  rw [haddr, hvalue] at hstored
  exact ⟨t', ho, hsplit.stored_left hcell hblock hstored⟩

/-- `SW` and `SD`. -/
theorem storesPart_plain (report : U32 → M Unit) (hn : n ≤ MEMSIZE) (h : s.Names code rt rs a)
    (hcell : Denotes a n cell) :
    StoresPart (do let r ← cpu
                   writeFrom report (Handler.addressOut r) (lane w 0 (r.GPR r.rt)) 0 n) code n
      (fun _ => True) cell (fun i => lane 8 i (lane w 0 (s.cpu.GPR rt))) s := by
  intro t ht
  obtain ⟨haddr, hvalue⟩ := h.store_fields ht
  obtain ⟨t', hrun, hstored⟩ := store_run (s := t.withCode code) report hn Handler.addressOut
    (fun r => lane w 0 (r.GPR r.rt)) (by rw [haddr]; exact hcell)
  rw [hvalue] at hstored
  exact ⟨t', hrun, hstored⟩

end Instructions

/-- **Unaligned stores.** `SWR` at `a` and `SWL` at `a + 3` leave the memory that `SW` at `a`
leaves, and `SDR` and `SDL` the memory that `SD` leaves, each in both orders and with no other byte
changed, whatever registers they name. -/
theorem unaligned_stores (report : U32 → M Unit) (s : Machine) (rt rs : Reg) (a : U32) :
    (∀ cp cr cl, s.Names cp rt rs a → s.Names cr rt rs a → s.Names cl rt rs (a + 3) →
      (∀ j, j < 4 → Accepted ((a &&& ~~~3) + BitVec.ofNat 32 j)) →
      (∀ j, j < 4 → Accepted (((a + 3) &&& ~~~3) + BitVec.ofNat 32 j)) →
      StoresAs 4 (Handler.SW report) (Handler.SWR report) (Handler.SWL report) cp cr cl a s) ∧
    (∀ cp cr cl, s.Names cp rt rs a → s.Names cr rt rs a → s.Names cl rt rs (a + 7) →
      (∀ j, j < 8 → Accepted ((a &&& ~~~7) + BitVec.ofNat 32 j)) →
      (∀ j, j < 8 → Accepted (((a + 7) &&& ~~~7) + BitVec.ofNat 32 j)) →
      StoresAs 8 (Handler.SD report) (Handler.SDR report) (Handler.SDL report) cp cr cl a s) := by
  constructor
  · -- Words.
    intro cp cr cl hp hr hl h₀ h₁
    have hsplit := straddles_word a
    obtain ⟨cell, hcell⟩ := exists_denotes (hsplit.accepted h₀ h₁)
    exact storesAs_of_parts (by decide) hcell hsplit.cover
      (storesPart_plain report (by decide) hp hcell)
      (storesPart_right Handler.low2 (· &&& ~~~3) (SWR_run report) hsplit hr hcell h₀)
      (storesPart_left Handler.low2 (· &&& ~~~3) (SWL_run report) hsplit hl hcell h₁)
  · -- Doublewords.
    intro cp cr cl hp hr hl h₀ h₁
    have hsplit := straddles_doubleword a
    obtain ⟨cell, hcell⟩ := exists_denotes (hsplit.accepted h₀ h₁)
    exact storesAs_of_parts (by decide) hcell hsplit.cover
      (storesPart_plain report (by decide) hp hcell)
      (storesPart_right Handler.low3 (· &&& ~~~7) (SDR_run report) hsplit hr hcell h₀)
      (storesPart_left Handler.low3 (· &&& ~~~7) (SDL_run report) hsplit hl hcell h₁)

/-- The pairs for `t0` at `1(v0)`. -/
theorem unaligned_stores_numbered :
    StoresAs 4 (Handler.SW (dumpasm 0)) (Handler.SWR (dumpasm 0)) (Handler.SWL (dumpasm 0))
      0xac480001 0xb8480001 0xa8480004 0x101 .numbered ∧
    StoresAs 8 (Handler.SD (dumpasm 0)) (Handler.SDR (dumpasm 0)) (Handler.SDL (dumpasm 0))
      0xfc480001 0xb4480001 0xb0480008 0x101 .numbered := by
  obtain ⟨hword, hdouble⟩ := unaligned_stores (dumpasm 0) .numbered 8 2 0x101
  exact ⟨hword _ _ _ ⟨by decide, by decide, by decide⟩ ⟨by decide, by decide, by decide⟩
      ⟨by decide, by decide, by decide⟩ (by decide) (by decide),
    hdouble _ _ _ ⟨by decide, by decide, by decide⟩ ⟨by decide, by decide, by decide⟩
      ⟨by decide, by decide, by decide⟩ (by decide) (by decide)⟩

end Ps2Unpacker
