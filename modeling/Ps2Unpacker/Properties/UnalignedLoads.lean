import Ps2Unpacker.Framework.Merge
import Ps2Unpacker.Properties.ByteStore
import Ps2Unpacker.Semantics.Loads

/-!
# Loads from unaligned addresses

A word or doubleword at any address is loaded by two instructions, one for the bytes in the aligned
block where it starts and one for those in the block where it ends. Each replaces some bytes of
`rt`; together they replace all of them, so the order does not matter.

* `Straddles`: the two aligned blocks around an address.
* `LWR_merged`, `LWL_merged`, `LDR_merged`, `LDL_merged`: the bytes each instruction replaces.
* `unaligned_loads_iff`: `LDR` and `LDL` always load what `LD` loads, and `LWR` and `LWL` what `LW`
  loads exactly if the word is not negative.
-/

namespace Ps2Unpacker

open CProg Lanes

/-- In `s`, the word `code` names the registers `rt` and `rs` and the address `a`. -/
structure Machine.Names (s : Machine) (code : U32) (rt rs : Reg) (a : U32) : Prop where
  rt : (s.withCode code).cpu.rt = rt
  rs : (s.withCode code).cpu.rs = rs
  address : Handler.address (s.withCode code).cpu = a

/-- From `s`, two instructions one after the other leave `v` in the low doubleword of `rt` and
memory as it was. -/
def PairLoads (first second : M Unit) (c₁ c₂ : U32) (rt : Reg) (v : U64) (s : Machine) : Prop :=
  ∃ s₁ s₂, first (s.withCode c₁) = .ok () s₁ ∧ second (s₁.withCode c₂) = .ok () s₂ ∧
    UD 0 (s₂.cpu.GPR rt) = v ∧ s₂.memory = s.memory

/-- A pair leaves in `rt`, in either order, what the plain load leaves there. -/
def LoadsAs (plain right left : M Unit) (cp cr cl : U32) (rt : Reg) (s : Machine) : Prop :=
  ∃ t, plain (s.withCode cp) = .ok () t ∧ t.memory = s.memory ∧
    PairLoads right left cr cl rt (UD 0 (t.cpu.GPR rt)) s ∧
    PairLoads left right cl cr rt (UD 0 (t.cpu.GPR rt)) s

/-! ### The two blocks -/

/-- The `n` bytes from `a` on start at offset `k` of the block `b₀` and end at offset `l` of the
block `b₁`. -/
structure Straddles (n : Nat) (a b₀ b₁ : U32) (k l : Nat) : Prop where
  start : a = b₀ + BitVec.ofNat 32 k
  stop : a + BitVec.ofNat 32 (n - 1) = b₁ + BitVec.ofNat 32 l
  lt : l < n
  cover : ∀ i, i < n → i + k < n ∨ n - 1 - l ≤ i

namespace Straddles

variable {n k l : Nat} {a b₀ b₁ : U32}

/-- The bytes in the first block. -/
theorem right_address (h : Straddles n a b₀ b₁ k l) (i : Nat) :
    b₀ + BitVec.ofNat 32 (i + k) = a + BitVec.ofNat 32 i := by
  rw [h.start, BitVec.add_assoc, ← BitVec.ofNat_add, Nat.add_comm]

/-- The bytes in the second block. -/
theorem left_address (h : Straddles n a b₀ b₁ k l) {i : Nat} (hi : n - 1 - l ≤ i) :
    b₁ + BitVec.ofNat 32 (i - (n - 1 - l)) = a + BitVec.ofNat 32 i := by
  have hstop := congrArg BitVec.toNat h.stop
  have hlt := h.lt
  apply BitVec.eq_of_toNat_eq
  simp only [BitVec.toNat_add, BitVec.toNat_ofNat] at hstop ⊢
  omega

/-- All bytes are accepted if those of the blocks are. -/
theorem accepted (h : Straddles n a b₀ b₁ k l)
    (h₀ : ∀ j, j < n → Accepted (b₀ + BitVec.ofNat 32 j))
    (h₁ : ∀ j, j < n → Accepted (b₁ + BitVec.ofNat 32 j)) :
    ∀ j, j < n → Accepted (a + BitVec.ofNat 32 j) := by
  intro j hj
  -- Each byte lies in one of the blocks, or in both.
  rcases h.cover j hj with hc | hc
  · rw [← h.right_address]
    exact h₀ _ hc
  · rw [← h.left_address hc]
    exact h₁ _ (by omega)

end Straddles

/-- An address is the start of its aligned block and an offset. -/
theorem split_address {p : Nat} {m : U32} (hm : m.toNat = 2 ^ p) (addr : U32) :
    addr = (addr &&& -m) + BitVec.ofNat 32 (addr.toNat % 2 ^ p) := by
  have hlt := addr.isLt
  have hmod : addr.toNat % 2 ^ p ≤ addr.toNat := Nat.mod_le _ _
  apply BitVec.eq_of_toNat_eq
  rw [BitVec.toNat_add, and_neg_toNat hm, BitVec.toNat_ofNat]
  omega

/-- The lower two bits are the remainder by 4. -/
theorem low2_val (addr : U32) : (Handler.low2 addr : Nat) = addr.toNat % 4 := by
  unfold Handler.low2
  change (addr.extractLsb' 0 2).toNat = _
  rw [BitVec.extractLsb'_toNat]
  rfl

/-- The lower three bits are the remainder by 8. -/
theorem low3_val (addr : U32) : (Handler.low3 addr : Nat) = addr.toNat % 8 := by
  unfold Handler.low3
  change (addr.extractLsb' 0 3).toNat = _
  rw [BitVec.extractLsb'_toNat]
  rfl

/-- **A word** at any address, in its two aligned words. -/
theorem straddles_word (a : U32) :
    Straddles 4 a (a &&& ~~~3) ((a + 3) &&& ~~~3) (Handler.low2 a) (Handler.low2 (a + 3)) where
  start := by
    rw [low2_val]
    exact split_address (m := 4) (p := 2) rfl a
  stop := by
    rw [low2_val]
    exact split_address (m := 4) (p := 2) rfl (a + 3)
  lt := (Handler.low2 (a + 3)).isLt
  cover i hi := by
    have hlt := a.isLt
    have hthree : (3 : U32).toNat = 3 := rfl
    -- The offset of the last byte, with and without a wrap of the address.
    rw [low2_val, low2_val, BitVec.toNat_add, hthree]
    omega

/-- **A doubleword** at any address, in its two aligned doublewords. -/
theorem straddles_doubleword (a : U32) :
    Straddles 8 a (a &&& ~~~7) ((a + 7) &&& ~~~7) (Handler.low3 a) (Handler.low3 (a + 7)) where
  start := by
    rw [low3_val]
    exact split_address (m := 8) (p := 3) rfl a
  stop := by
    rw [low3_val]
    exact split_address (m := 8) (p := 3) rfl (a + 7)
  lt := (Handler.low3 (a + 7)).isLt
  cover i hi := by
    have hlt := a.isLt
    have hseven : (7 : U32).toNat = 7 := rfl
    rw [low3_val, low3_val, BitVec.toNat_add, hseven]
    omega

/-! ### One instruction -/

/-- Bytes by address depend on memory alone. -/
theorem byteAt_congr {s s' : Machine} (h : s'.memory = s.memory) : s'.byteAt = s.byteAt := by
  funext mem
  unfold Machine.byteAt
  rw [h]

/-- The value combined is that of a list of bytes. -/
theorem combine_eq {w n : Nat} (s : Machine) (mem : U32) :
    s.combine w mem n = ofBytes w
      ((List.range n).map fun j => s.byteAt (mem + BitVec.ofNat 32 j)) := by
  unfold Machine.combine span
  rw [List.map_map, ← List.range_eq_range']
  rfl

/-- Its bytes are those at the addresses. -/
theorem lane_combine {w n j : Nat} (hw : w = 8 * n) (hj : j < n) (s : Machine) (mem : U32) :
    lane 8 j (s.combine w mem n) = s.byteAt (mem + BitVec.ofNat 32 j) := by
  rw [combine_eq]
  exact lane_ofBytes hw hj

/-- From `s` to `s'` the bytes of `rt` where `c` holds are replaced by those of `b`, among the `n`
bytes below bit `w`. Those bits are extended with zeros, and the other registers and memory stay. -/
structure Merged (w n : Nat) (rt : Reg) (c : Nat → Prop) (b : Nat → U8)
    (s s' : Machine) : Prop where
  memory : s'.memory = s.memory
  others : ∀ i, i ≠ rt → s'.cpu.GPR i = s.cpu.GPR i
  merged : ∃ y : BitVec w, UD 0 (s'.cpu.GPR rt) = y.setWidth 64 ∧
    Patch n c b (lane w 0 (s.cpu.GPR rt)) y

section Steps

variable {s s' : Machine} {code : U32} {rt rs : Reg} {a : U32}

/-- An instruction that leaves the base register alone leaves the address. -/
theorem Machine.Names.after (h : s.Names code rt rs a) (hrs : s'.cpu.GPR rs = s.cpu.GPR rs) :
    s'.Names code rt rs a where
  rt := h.rt
  rs := h.rs
  address := by
    -- The address is that of the word and the base register.
    have hbase : (s.withCode code).cpu.rs = rs := h.rs
    have hbase' : (s'.withCode code).cpu.rs = rs := h.rs
    rw [← h.address]
    unfold Handler.address
    rw [hbase, hbase', withCode_GPR, withCode_GPR, hrs]
    rfl

/-- **A load that merges** a block it read into `rt`. -/
theorem merge_run (report : U32 → M Unit) {w n : Nat} (hw : w = 8 * n) (block : CpuRegisters → U32)
    (merge : CpuRegisters → BitVec w → BitVec w → BitVec w) (ext : BitVec w → U64)
    (hext : ∀ y, ext y = y.setWidth 64) {c : Nat → Prop} {b : Nat → U8} (hrt : s.cpu.rt ≠ 0)
    (h : ∀ j, j < n → Accepted (block s.cpu + BitVec.ofNat 32 j))
    (hmerge : ∀ x, Patch n c b x (merge s.cpu x (s.combine w (block s.cpu) n))) :
    ∃ s', (do let r ← cpu
              if r.rt = 0 then pure ()
              else do
                let mem ← readFrom report (block r) 0 n (0 : BitVec w)
                modifyCpu fun r' => r'.setLane r'.rt 0
                  (ext (merge r (lane w 0 (r'.GPR r'.rt)) mem)))
        s = .ok () s' ∧ Merged w n s.cpu.rt c b s s' := by
  obtain ⟨cell, hcell⟩ := exists_denotes h
  obtain ⟨s₁, hread, hro⟩ := readFrom_denotes report hcell hw s
  rw [← combine_denotes hcell] at hread
  -- The read changes tags only, so what is merged into is still the old register.
  let y := merge s.cpu (lane w 0 (s.cpu.GPR s.cpu.rt)) (s.combine w (block s.cpu) n)
  refine ⟨{ s₁ with cpu := s.cpu.setLane s.cpu.rt 0 (ext y) }, ?_, hro.memory, fun i hi => ?_, y,
    ?_, hmerge _⟩
  · -- The handler reads the block and merges.
    rw [cpu_bind, if_neg hrt]
    refine (Prog.bind_ok_of hread).trans ?_
    change Outcome.ok () { s₁ with cpu := s₁.cpu.setLane s₁.cpu.rt 0 _ } = _
    rw [hro.cpu]
  · -- Only `rt` is written, and of it the lower half.
    exact CpuRegisters.setGPR_GPR_of_ne _ _ hi
  · change UD 0 ((s.cpu.setGPR s.cpu.rt _).GPR s.cpu.rt) = _
    rw [CpuRegisters.setGPR_GPR_self, ← hext y]
    exact lane_setLane_self 0 _ _

section Tables

variable (report : U32 → M Unit) {w n : Nat} (hw : w = 8 * n) (low : U32 → Fin n)
  (round : U32 → U32) (mask : Fin n → BitVec w) (shift : Fin n → Nat) (ext : BitVec w → U64)
  (hext : ∀ y, ext y = y.setWidth 64)

include hw hext

/-- `LWR` and `LDR`, for the tables of masks and shifts. -/
theorem right_run (hmask : ∀ k i, i < n → lane 8 i (mask k) = if i + k < n then 0#8 else 255#8)
    (hshift : ∀ k : Fin n, shift k = 8 * k) {b₁ : U32} {l : Nat}
    (hsplit : Straddles n a (round a) b₁ (low a) l) (h : s.Names code rt rs a) (hrt : rt ≠ 0)
    (hrange : ∀ j, j < n → Accepted (round a + BitVec.ofNat 32 j)) :
    ∃ s', (do let r ← cpu
              if r.rt = 0 then pure ()
              else do
                let mem ← readFrom report (round (Handler.address r)) 0 n (0 : BitVec w)
                modifyCpu fun r' => r'.setLane r'.rt 0
                  (ext ((lane w 0 (r'.GPR r'.rt) &&& mask (low (Handler.address r))) |||
                    mem >>> shift (low (Handler.address r)))))
        (s.withCode code) = .ok () s' ∧
      Merged w n rt (· + (low a : Nat) < n) (fun i => s.byteAt (a + BitVec.ofNat 32 i)) s s' := by
  obtain ⟨hcode, -, haddr⟩ := h
  obtain ⟨s', hrun, hmerged⟩ := merge_run (s := s.withCode code) report hw
    (fun r => round (Handler.address r))
    (fun r x mem => (x &&& mask (low (Handler.address r))) |||
      mem >>> shift (low (Handler.address r)))
    ext hext (c := (· + (low a : Nat) < n)) (b := fun i => s.byteAt (a + BitVec.ofNat 32 i))
    (by rwa [hcode]) (by rwa [haddr]) fun x => by
      rw [haddr, hshift]
      -- Byte `i` of the register is byte `i + low a` of the block.
      refine (patch_right hw x _ (hmask _)).congr fun i hi hc => ?_
      rw [lane_combine hw hc, hsplit.right_address]
      rfl
  rw [hcode] at hmerged
  exact ⟨s', hrun, hmerged.memory, hmerged.others, hmerged.merged⟩

/-- `LWL` and `LDL`. -/
theorem left_run (hmask : ∀ k i, i < n → lane 8 i (mask k) = if n - 1 - k ≤ i then 0#8 else 255#8)
    (hshift : ∀ k : Fin n, shift k = 8 * (n - 1 - k)) {b₀ last : U32} {k : Nat}
    (hsplit : Straddles n a b₀ (round last) k (low last)) (h : s.Names code rt rs last)
    (hrt : rt ≠ 0)
    (hrange : ∀ j, j < n → Accepted (round last + BitVec.ofNat 32 j)) :
    ∃ s', (do let r ← cpu
              if r.rt = 0 then pure ()
              else do
                let mem ← readFrom report (round (Handler.address r)) 0 n (0 : BitVec w)
                modifyCpu fun r' => r'.setLane r'.rt 0
                  (ext ((lane w 0 (r'.GPR r'.rt) &&& mask (low (Handler.address r))) |||
                    mem <<< shift (low (Handler.address r)))))
        (s.withCode code) = .ok () s' ∧
      Merged w n rt (n - 1 - (low last : Nat) ≤ ·)
        (fun i => s.byteAt (a + BitVec.ofNat 32 i)) s s' := by
  obtain ⟨hcode, -, haddr⟩ := h
  obtain ⟨s', hrun, hmerged⟩ := merge_run (s := s.withCode code) report hw
    (fun r => round (Handler.address r))
    (fun r x mem => (x &&& mask (low (Handler.address r))) |||
      mem <<< shift (low (Handler.address r)))
    ext hext (c := (n - 1 - (low last : Nat) ≤ ·)) (b := fun i => s.byteAt (a + BitVec.ofNat 32 i))
    (by rwa [hcode]) (by rwa [haddr]) fun x => by
      rw [haddr, hshift]
      -- Here the last byte of the register is the one at the offset of the address.
      refine (patch_left hw x _ (hmask _)).congr fun i hi hc => ?_
      rw [lane_combine hw (by omega), hsplit.left_address hc]
      rfl
  rw [hcode] at hmerged
  exact ⟨s', hrun, hmerged.memory, hmerged.others, hmerged.merged⟩

end Tables

/-! ### The four instructions -/

section Instructions

variable (report : U32 → M Unit)

/-- The word `LWR` leaves, with the bytes it replaced. -/
theorem LWR_merged (h : s.Names code rt rs a) (hrt : rt ≠ 0)
    (hrange : ∀ j, j < 4 → Accepted ((a &&& ~~~3) + BitVec.ofNat 32 j)) :
    ∃ s', Handler.LWR report (s.withCode code) = .ok () s' ∧
      Merged 32 4 rt (· + (Handler.low2 a : Nat) < 4)
        (fun i => s.byteAt (a + BitVec.ofNat 32 i)) s s' :=
  right_run report rfl Handler.low2 (· &&& ~~~3) (fun k => Handler.LWR_MASK[k])
    (fun k => Handler.LWR_SHIFT[k]) (fun y => y.setWidth 64) (fun _ => rfl) (by decide) (by decide)
    (straddles_word a) h hrt hrange

/-- The word `LWL` leaves. -/
theorem LWL_merged (h : s.Names code rt rs (a + 3)) (hrt : rt ≠ 0)
    (hrange : ∀ j, j < 4 → Accepted (((a + 3) &&& ~~~3) + BitVec.ofNat 32 j)) :
    ∃ s', Handler.LWL report (s.withCode code) = .ok () s' ∧
      Merged 32 4 rt (3 - (Handler.low2 (a + 3) : Nat) ≤ ·)
        (fun i => s.byteAt (a + BitVec.ofNat 32 i)) s s' :=
  left_run report rfl Handler.low2 (· &&& ~~~3) (fun k => Handler.LWL_MASK[k])
    (fun k => Handler.LWL_SHIFT[k]) (fun y => y.setWidth 64) (fun _ => rfl) (by decide) (by decide)
    (straddles_word a) h hrt hrange

/-- The doubleword `LDR` leaves. -/
theorem LDR_merged (h : s.Names code rt rs a) (hrt : rt ≠ 0)
    (hrange : ∀ j, j < 8 → Accepted ((a &&& ~~~7) + BitVec.ofNat 32 j)) :
    ∃ s', Handler.LDR report (s.withCode code) = .ok () s' ∧
      Merged 64 8 rt (· + (Handler.low3 a : Nat) < 8)
        (fun i => s.byteAt (a + BitVec.ofNat 32 i)) s s' :=
  right_run report rfl Handler.low3 (· &&& ~~~7) (fun k => Handler.LDR_MASK[k])
    (fun k => Handler.LDR_SHIFT[k]) id (fun y => (BitVec.setWidth_eq y).symm) (by decide)
      (by decide)
    (straddles_doubleword a) h hrt hrange

/-- The doubleword `LDL` leaves. -/
theorem LDL_merged (h : s.Names code rt rs (a + 7)) (hrt : rt ≠ 0)
    (hrange : ∀ j, j < 8 → Accepted (((a + 7) &&& ~~~7) + BitVec.ofNat 32 j)) :
    ∃ s', Handler.LDL report (s.withCode code) = .ok () s' ∧
      Merged 64 8 rt (7 - (Handler.low3 (a + 7) : Nat) ≤ ·)
        (fun i => s.byteAt (a + BitVec.ofNat 32 i)) s s' :=
  left_run report rfl Handler.low3 (· &&& ~~~7) (fun k => Handler.LDL_MASK[k])
    (fun k => Handler.LDL_SHIFT[k]) id (fun y => (BitVec.setWidth_eq y).symm) (by decide)
      (by decide)
    (straddles_doubleword a) h hrt hrange

end Instructions

end Steps

/-! ### Pairs -/

section Pairs

variable {w n : Nat} {s s₁ s₂ : Machine} {rt rs : Reg} {a : U32}

/-- Two merges that replace every byte leave the combination of the bytes in memory. -/
theorem Merged.pair {c c' : Nat → Prop} {b : Nat → U8} (h : Merged w n rt c b s s₁)
    (h' : Merged w n rt c' b s₁ s₂) (hw : w = 8 * n) (hle : w ≤ 64)
    (hcover : ∀ i, i < n → c i ∨ c' i) :
    UD 0 (s₂.cpu.GPR rt) = (ofBytes w ((List.range n).map b)).setWidth 64 := by
  obtain ⟨y, hy, hpatch⟩ := h.merged
  obtain ⟨z, hz, hpatch'⟩ := h'.merged
  -- The second merge starts from what the first one left.
  have hbetween : lane w 0 (s₁.cpu.GPR rt) = y := by
    rw [← setWidth_lane_zero _ hle]
    change (UD 0 (s₁.cpu.GPR rt)).setWidth w = y
    rw [hy, BitVec.setWidth_setWidth_of_le _ hle, BitVec.setWidth_eq]
  rw [hbetween] at hpatch'
  -- Each byte was replaced by the first merge or by the second one.
  rw [hz, hpatch.eq_ofBytes hpatch' hw hcover]

/-- **Two instructions** that replace all bytes of `rt` between them load the value at `a`. -/
theorem pair_loads {first second : M Unit} {code₁ code₂ : U32} {a₁ a₂ : U32} {c₁ c₂ : Nat → Prop}
    (hw : w = 8 * n) (hle : w ≤ 64) (hrs : rs ≠ rt)
    (h₁ : s.Names code₁ rt rs a₁) (h₂ : s.Names code₂ rt rs a₂)
    (hfirst : ∀ t : Machine, t.Names code₁ rt rs a₁ → ∃ t', first (t.withCode code₁) = .ok () t' ∧
      Merged w n rt c₁ (fun i => t.byteAt (a + BitVec.ofNat 32 i)) t t')
    (hsecond : ∀ t : Machine, t.Names code₂ rt rs a₂ → ∃ t', second (t.withCode code₂) = .ok () t' ∧
      Merged w n rt c₂ (fun i => t.byteAt (a + BitVec.ofNat 32 i)) t t')
    (hcover : ∀ i, i < n → c₁ i ∨ c₂ i) :
    PairLoads first second code₁ code₂ rt ((s.combine w a n).setWidth 64) s := by
  obtain ⟨t, hrun, hmerged⟩ := hfirst s h₁
  -- The base register is not the destination, so the second address is unchanged.
  obtain ⟨t', hrun', hmerged'⟩ := hsecond t (h₂.after (hmerged.others rs hrs))
  rw [byteAt_congr hmerged.memory] at hmerged'
  refine ⟨t, t', hrun, hrun', ?_, hmerged'.memory.trans hmerged.memory⟩
  rw [hmerged.pair hmerged' hw hle hcover, combine_eq]

/-- The pairs in terms of the value at `a`. -/
theorem loadsAs_iff {plain right left : M Unit} {cp cr cl : U32} {v : U64} {t : Machine}
    (hplain : plain (s.withCode cp) = .ok () t) (hmem : t.memory = s.memory)
    (hright : PairLoads right left cr cl rt v s) (hleft : PairLoads left right cl cr rt v s) :
    LoadsAs plain right left cp cr cl rt s ↔ v = UD 0 (t.cpu.GPR rt) := by
  constructor
  · -- Each of the three runs is determined.
    rintro ⟨t', hplain', -, ⟨s₁, s₂, h₁, h₂, hv, -⟩, -⟩
    obtain ⟨s₁', s₂', h₁', h₂', hv', -⟩ := hright
    have ht := hplain.symm.trans hplain'
    cases ht
    have hs₁ := h₁.symm.trans h₁'
    cases hs₁
    have hs₂ := h₂.symm.trans h₂'
    cases hs₂
    exact hv'.symm.trans hv
  · rintro rfl
    exact ⟨t, hplain, hmem, hright, hleft⟩

end Pairs

/-! ### The plain loads -/

section Plain

variable (report : U32 → M Unit) {s : Machine} {code : U32} {rt rs : Reg} {a : U32}

/-- A load into a register other than `r0`. -/
theorem plain_run {w n : Nat} (hw : w = 8 * n) (addr : CpuRegisters → U32) (ext : BitVec w → U64)
    (haddr : addr (s.withCode code).cpu = a) (hcode : (s.withCode code).cpu.rt = rt) (hrt : rt ≠ 0)
    (hrange : ∀ j, j < n → Accepted (a + BitVec.ofNat 32 j)) :
    ∃ t, (do let val ← readFrom report (addr (← cpu)) 0 n (0 : BitVec w)
             Handler.loadRt (ext val)) (s.withCode code) = .ok () t ∧ t.memory = s.memory ∧
      UD 0 (t.cpu.GPR rt) = ext (s.combine w a n) := by
  obtain ⟨cell, hcell⟩ := exists_denotes hrange
  obtain ⟨t, hrun, hmem, hcpu⟩ := load_run (s := s.withCode code) report addr
    (fun val r => r.setRt (ext val)) (by rwa [haddr]) hw
  refine ⟨t, hrun, hmem, ?_⟩
  -- The value read is that of the bytes at the address.
  rw [hcpu, withCode_memory, ← combine_denotes hcell]
  unfold CpuRegisters.setRt
  rw [hcode, if_neg hrt]
  change UD 0 ((((s.withCode code).cpu).setGPR rt _).GPR rt) = _
  rw [CpuRegisters.setGPR_GPR_self]
  exact lane_setLane_self 0 _ _

/-- What `LW` leaves, sign extended. -/
theorem LW_loads (h : s.Names code rt rs a) (hrt : rt ≠ 0)
    (hrange : ∀ j, j < 4 → Accepted (a + BitVec.ofNat 32 j)) :
    ∃ t, Handler.LW report (s.withCode code) = .ok () t ∧ t.memory = s.memory ∧
      UD 0 (t.cpu.GPR rt) = (s.combine 32 a 4).signExtend 64 :=
  plain_run report (w := 32) (n := 4) rfl Handler.addressOut (fun val => val.signExtend 64)
    ((addressOut_eq _).trans h.address) h.rt hrt hrange

/-- What `LD` leaves. -/
theorem LD_loads (h : s.Names code rt rs a) (hrt : rt ≠ 0)
    (hrange : ∀ j, j < 8 → Accepted (a + BitVec.ofNat 32 j)) :
    ∃ t, Handler.LD report (s.withCode code) = .ok () t ∧ t.memory = s.memory ∧
      UD 0 (t.cpu.GPR rt) = s.combine 64 a 8 :=
  plain_run report (w := 64) (n := 8) rfl Handler.address id h.address h.rt hrt hrange

end Plain

/-! ### Pairs and plain loads -/

section Compare

variable {s : Machine} {a : U32}

/-- Bit 31 of a word is the top bit of its last byte. -/
theorem combine_msb (s : Machine) (a : U32) : (s.combine 32 a 4).msb = (s.byteAt (a + 3)).msb := by
  have hbyte : lane 8 3 (s.combine 32 a 4) = s.byteAt (a + 3) :=
    lane_combine (n := 4) (j := 3) rfl (by decide) s a
  rw [← hbyte, BitVec.msb_eq_getLsbD_last, BitVec.msb_eq_getLsbD_last, getLsbD_lane]
  rfl

/-- The two extensions agree on words that are not negative. -/
theorem setWidth_eq_signExtend_iff (x : U32) : x.setWidth 64 = x.signExtend 64 ↔ x.msb = false := by
  refine ⟨fun h => ?_, fun h => (BitVec.signExtend_eq_setWidth_of_msb_false h).symm⟩
  -- Bit 63 tells them apart.
  have hzero : (x.setWidth 64).getLsbD 63 = false := by
    rw [BitVec.getLsbD_setWidth, BitVec.getLsbD_of_ge x 63 (by decide)]
    rfl
  have hsign : (x.signExtend 64).getLsbD 63 = x.msb := BitVec.getLsbD_signExtend x
  rw [← hsign, ← h, hzero]

variable {rt rs : Reg} {cp cr cl : U32} (report : U32 → M Unit)

/-- `LWR` and `LWL` leave the word extended with zeros, `LW` with its sign. -/
theorem word_loadsAs_iff (hrt : rt ≠ 0) (hrs : rs ≠ rt) (hp : s.Names cp rt rs a)
    (hr : s.Names cr rt rs a) (hl : s.Names cl rt rs (a + 3))
    (h₀ : ∀ j, j < 4 → Accepted ((a &&& ~~~3) + BitVec.ofNat 32 j))
    (h₁ : ∀ j, j < 4 → Accepted (((a + 3) &&& ~~~3) + BitVec.ofNat 32 j)) :
    LoadsAs (Handler.LW report) (Handler.LWR report) (Handler.LWL report) cp cr cl rt s ↔
      (s.byteAt (a + 3)).msb = false := by
  have hsplit := straddles_word a
  obtain ⟨t, hplain, hmem, hv⟩ := LW_loads report hp hrt (hsplit.accepted h₀ h₁)
  -- The two orders differ in which bytes come first.
  have hright := pair_loads (a := a) rfl (by decide) hrs hr hl
    (fun t ht => LWR_merged report ht hrt h₀) (fun t ht => LWL_merged report ht hrt h₁) hsplit.cover
  have hleft := pair_loads (a := a) rfl (by decide) hrs hl hr
    (fun t ht => LWL_merged report ht hrt h₁) (fun t ht => LWR_merged report ht hrt h₀)
    fun i hi => (hsplit.cover i hi).symm
  -- The pairs leave the word extended with zeros.
  rw [loadsAs_iff hplain hmem hright hleft, hv, setWidth_eq_signExtend_iff, combine_msb]

/-- A doubleword has no upper half to extend. -/
theorem doubleword_loadsAs (hrt : rt ≠ 0) (hrs : rs ≠ rt) (hp : s.Names cp rt rs a)
    (hr : s.Names cr rt rs a) (hl : s.Names cl rt rs (a + 7))
    (h₀ : ∀ j, j < 8 → Accepted ((a &&& ~~~7) + BitVec.ofNat 32 j))
    (h₁ : ∀ j, j < 8 → Accepted (((a + 7) &&& ~~~7) + BitVec.ofNat 32 j)) :
    LoadsAs (Handler.LD report) (Handler.LDR report) (Handler.LDL report) cp cr cl rt s := by
  have hsplit := straddles_doubleword a
  obtain ⟨t, hplain, hmem, hv⟩ := LD_loads report hp hrt (hsplit.accepted h₀ h₁)
  have hright := pair_loads (a := a) rfl (by decide) hrs hr hl
    (fun t ht => LDR_merged report ht hrt h₀) (fun t ht => LDL_merged report ht hrt h₁) hsplit.cover
  have hleft := pair_loads (a := a) rfl (by decide) hrs hl hr
    (fun t ht => LDL_merged report ht hrt h₁) (fun t ht => LDR_merged report ht hrt h₀)
    fun i hi => (hsplit.cover i hi).symm
  rw [loadsAs_iff hplain hmem hright hleft, hv, BitVec.setWidth_eq]

/-- **Unaligned loads.** `LWR` and `LWL` leave in `rt` what `LW` leaves there if and only if the
word is not negative, and `LDR` and `LDL` always leave what `LD` leaves, each in both orders and
with memory unchanged. -/
theorem unaligned_loads_iff (s : Machine) (rt rs : Reg) (a : U32) (hrt : rt ≠ 0) (hrs : rs ≠ rt) :
    (∀ cp cr cl, s.Names cp rt rs a → s.Names cr rt rs a → s.Names cl rt rs (a + 3) →
      (∀ j, j < 4 → Accepted ((a &&& ~~~3) + BitVec.ofNat 32 j)) →
      (∀ j, j < 4 → Accepted (((a + 3) &&& ~~~3) + BitVec.ofNat 32 j)) →
      (LoadsAs (Handler.LW report) (Handler.LWR report) (Handler.LWL report) cp cr cl rt s ↔
        (s.byteAt (a + 3)).msb = false)) ∧
    (∀ cp cr cl, s.Names cp rt rs a → s.Names cr rt rs a → s.Names cl rt rs (a + 7) →
      (∀ j, j < 8 → Accepted ((a &&& ~~~7) + BitVec.ofNat 32 j)) →
      (∀ j, j < 8 → Accepted (((a + 7) &&& ~~~7) + BitVec.ofNat 32 j)) →
      LoadsAs (Handler.LD report) (Handler.LDR report) (Handler.LDL report) cp cr cl rt s) :=
  ⟨fun _ _ _ hp hr hl h₀ h₁ => word_loadsAs_iff report hrt hrs hp hr hl h₀ h₁,
    fun _ _ _ hp hr hl h₀ h₁ => doubleword_loadsAs report hrt hrs hp hr hl h₀ h₁⟩

end Compare

/-- Each byte of memory is the last byte of its address, `v0` is `0x100` and `t0` holds a value. -/
def Machine.numbered : Machine :=
  { Machine.start (fun m => BitVec.ofNat 8 m.val) 4 false with
    cpu := { CpuRegisters.zeroed 4 with
      GPR := fun i => if i = 2 then 0x100 else if i = 8 then 0xf8e7d6c5b4a39281 else 0 } }

/-- The pairs for `t0` at `1(v0)`. -/
theorem unaligned_loads_numbered :
    LoadsAs (Handler.LW (dumpasm 0)) (Handler.LWR (dumpasm 0)) (Handler.LWL (dumpasm 0))
      0x8c480001 0x98480001 0x88480004 8 .numbered ∧
    LoadsAs (Handler.LD (dumpasm 0)) (Handler.LDR (dumpasm 0)) (Handler.LDL (dumpasm 0))
      0xdc480001 0x6c480001 0x68480008 8 .numbered := by
  obtain ⟨hword, hdouble⟩ := unaligned_loads_iff (dumpasm 0) .numbered 8 2 0x101 (by decide)
    (by decide)
  refine ⟨(hword _ _ _ ⟨by decide, by decide, by decide⟩ ⟨by decide, by decide, by decide⟩
      ⟨by decide, by decide, by decide⟩ (by decide) (by decide)).mpr (by decide),
    hdouble _ _ _ ⟨by decide, by decide, by decide⟩ ⟨by decide, by decide, by decide⟩
      ⟨by decide, by decide, by decide⟩ (by decide) (by decide)⟩

/-- The pair for `t0` at `0x101(r0)` with the word `0x80000000` there. -/
theorem not_unaligned_loads :
    ¬∀ (report : U32 → M Unit) (s : Machine) (rt rs : Reg) (a cp cr cl : U32), rt ≠ 0 → rs ≠ rt →
      s.Names cp rt rs a → s.Names cr rt rs a → s.Names cl rt rs (a + 3) →
      (∀ j, j < 4 → Accepted ((a &&& ~~~3) + BitVec.ofNat 32 j)) →
      (∀ j, j < 4 → Accepted (((a + 3) &&& ~~~3) + BitVec.ofNat 32 j)) →
      LoadsAs (Handler.LW report) (Handler.LWR report) (Handler.LWL report) cp cr cl rt s := by
  intro hall
  let s : Machine := Machine.start (fun m => if m.val = 0x104 then 0x80 else 0) 4 false
  have hp : s.Names 0x8c080101 8 0 0x101 := ⟨by decide, by decide, by decide⟩
  have hr : s.Names 0x98080101 8 0 0x101 := ⟨by decide, by decide, by decide⟩
  have hl : s.Names 0x88080104 8 0 (0x101 + 3) := ⟨by decide, by decide, by decide⟩
  have hloads := hall (dumpasm 0) s 8 0 0x101 _ _ _ (by decide) (by decide) hp hr hl (by decide)
    (by decide)
  have hbyte := (word_loadsAs_iff (dumpasm 0) (by decide) (by decide) hp hr hl (by decide)
    (by decide)).mp hloads
  exact absurd hbyte (by decide)

end Ps2Unpacker
