import Ps2Unpacker.Framework.BitFields
import Ps2Unpacker.Framework.Merge
import Ps2Unpacker.Semantics.Shuffles

/-!
# Packing undoes extending

The instructions that rearrange the lanes of a register, or the colour fields of its words, come in
pairs that undo each other, and in ones that undo themselves. Each handler is a list of assignments
written by hand; here the functions that they compute are composed.

* `packs_of_shuffle`, `hasOrder_of_shuffle`: what is to be shown of shuffles is a statement about
  their positions, which is evaluated.
* `packsPixels`: that about `PEXT5` and `PPAC5` is one about their masks.
* `packing_undoes_extending`: all pairs.
-/

namespace Ps2Unpacker

open Lanes CpuRegisters

/-! ### Statements -/

/-- `pac` undoes `extU` and `extL`: from the upper and the lower half of two interleaved registers
it gives back the one that was in `rt`. -/
def Packs (pac extU extL : RegOp) : Prop :=
  ∃ p u l, pac.Computes p ∧ extU.Computes u ∧ extL.Computes l ∧ ∀ s t, p (u s t) (l s t) = t

/-- `PPAC5` gives back the lower half of each word that was extended by `PEXT5`, and `PEXT5` gives
back what it has itself extended. -/
def PacksPixels : Prop :=
  ∃ e p : U128 → U128,
    RegOp.PEXT5.Computes (fun _ t => e t) ∧ RegOp.PPAC5.Computes (fun _ t => p t) ∧
    (∀ x, p (e x) = x &&& 0x0000ffff0000ffff0000ffff0000ffff) ∧ ∀ y ∈ Set.range e, e (p y) = y

/-- `PMFHL.LW`, with `HI` and `LO` as `PMTHL.LW` leaves them, gives back the register that was moved
there, whichever registers the two instructions name. -/
def MovesBack : Prop :=
  ∀ r c : CpuRegisters, r.saField = 0 → c.saField = 0 → c.rd ≠ 0 →
    ∃ r', RegOp.PMTHL.run r = some r' ∧
      (c.HI = r'.HI → c.LO = r'.LO → RegOp.PMFHL.run c = some (c.setGPR c.rd (r.GPR r.rs)))

/-- The instruction computes a function of `rt` that gives back every register when it is applied
`n` times, and not before; executed `n` times in place it restores the processor. -/
def RegOp.HasOrder (o : RegOp) (n : Nat) : Prop :=
  (∃ f : U128 → U128, o.Computes (fun _ t => f t) ∧ f^[n] = id ∧
    ∀ k, 0 < k → k < n → f^[k] ≠ id) ∧
  ∀ r : CpuRegisters, r.rd ≠ 0 → r.rt = r.rd → o.runTimes n r = some r

/-- **What packing undoes.** -/
structure PackingUndoesExtending : Prop where
  words : Packs .PPACW .PEXTUW .PEXTLW
  halfwords : Packs .PPACH .PEXTUH .PEXTLH
  bytes : Packs .PPACB .PEXTUB .PEXTLB
  pixels : PacksPixels
  hiLo : MovesBack
  involutions : ∀ o ∈ [RegOp.PEXEH, .PEXEW, .PREVH, .PEXCH, .PEXCW], o.HasOrder 2
  rotation : RegOp.PROT3W.HasOrder 3

/-! ### Shuffles -/

section Shuffles

variable {w m n : Nat} {js us ls : List Nat}

/-- Two instructions that interleave their sources, and one that takes every other lane. -/
theorem packs_of_shuffle {pac extU extL : RegOp} (hpac : pac.shuffle = some ⟨w, js⟩)
    (hextU : extU.shuffle = some ⟨w, us⟩) (hextL : extL.shuffle = some ⟨w, ls⟩)
    (hw : 128 = w * m) (hus : us.length = m) (hls : ls.length = m)
    (hlt : ∀ j ∈ js, j < (ls ++ us).length) (hback : compose js (ls ++ us) = List.range m) :
    Packs pac extU extL := by
  refine ⟨_, _, _, RegOp.computes_shuffle hpac, RegOp.computes_shuffle hextU,
    RegOp.computes_shuffle hextL, fun s t => ?_⟩
  exact shuffle_back (hus ▸ hw) (hls ▸ hw) hback hw hlt s t

/-- A shuffle of one source computes a function of it. -/
theorem computes_of_one_source {o : RegOp} (ho : o.shuffle = some ⟨w, js⟩)
    (hw : 128 = w * js.length) (hlt : ∀ j ∈ js, j < js.length) :
    o.Computes fun _ t => (shuffle w js : U128 → U128) t := by
  intro r hrd
  -- All positions are below those of `rs`.
  rw [RegOp.computes_shuffle ho r hrd]
  unfold Shuffle.apply
  rw [shuffle_low hw _ _ hlt]

/-- A shuffle of one source has the order of its positions. -/
theorem hasOrder_of_shuffle {o : RegOp} (ho : o.shuffle = some ⟨w, js⟩) (hw : 128 = w * js.length)
    (hlt : ∀ j ∈ js, j < js.length) (hn : 0 < n)
    (hpower : ∀ k ≤ n, 0 < k → (power js k = List.range js.length ↔ k = n)) : o.HasOrder n := by
  have hcomputes := computes_of_one_source ho hw hlt
  have hpos : 0 < w := Nat.pos_of_ne_zero (by rintro rfl; omega)
  -- The repeated shuffle is the identity if its positions are in order.
  have hid : ∀ k, (shuffle w js : U128 → U128)^[k] = id ↔ power js k = List.range js.length := by
    intro k
    rw [iterate_shuffle hw hlt, shuffle_eq_id_iff hpos (by rw [length_power]; exact hw),
      length_power]
  have hlast : (shuffle w js : U128 → U128)^[n] = id :=
    (hid n).mpr ((hpower n (Nat.le_refl n) hn).mpr rfl)
  refine ⟨⟨_, hcomputes, hlast, fun k hk hkn heq => ?_⟩, fun r hrd hrt => ?_⟩
  · -- An earlier power that is the identity would have its positions in order too.
    exact Nat.ne_of_lt hkn ((hpower k (Nat.le_of_lt hkn) hk).mp ((hid k).mp heq))
  · rw [hcomputes.runTimes n hrd hrt, hlast]
    exact congrArg some (setGPR_self r r.rd)

end Shuffles

/-! ### Pixels -/

/-- The fields of a 16-bit pixel, three of five bits and one of a single bit, each of which is moved
to the top of a byte. -/
def pixelFields : List (BitField 32) :=
  [⟨0x0000001F, 3⟩, ⟨0x000003E0, 6⟩, ⟨0x00007C00, 9⟩, ⟨0x00008000, 16⟩]

/-- The four fields of a pixel do not overlap, before the move and after it. -/
theorem pixelFields_separated : Separated pixelFields := by decide

/-- The function `f` on each word. -/
def mapWords (f : U32 → U32) (x : U128) : U128 := mapLanes (fun _ u => f u) 0 4 x x x

/-- A word of the result depends on that word alone. -/
theorem UL_mapWords (f : U32 → U32) (x : U128) {k : Nat} (hk : k < 4) :
    UL k (mapWords f x) = f (UL k x) := by
  have hlane := lane_mapLanes (fun _ u => f u) 4 x x x (k := 0) (j := k) (by decide) (by omega)
  rwa [if_neg (Nat.not_lt_zero k)] at hlane

/-- `PEXT5` moves the fields apart. -/
theorem computes_PEXT5 : RegOp.PEXT5.Computes fun _ t => mapWords (extend pixelFields) t := by
  intro r hrd
  have hfun : ∀ t : U32, ((t &&& 0x0000001F) <<< 3) ||| ((t &&& 0x000003E0) <<< 6) |||
      ((t &&& 0x00007C00) <<< 9) ||| ((t &&& 0x00008000) <<< 16) = extend pixelFields t := by
    -- The four terms of the macro are the fields, in their order.
    intro t
    simp only [extend, pixelFields, BitField.moveUp, BitVec.or_assoc]
    exact congrArg _ (congrArg _ (congrArg _ BitVec.or_zero.symm))
  change some (r.setRdPerLane 32 _ 0 4) = _
  rw [setRdPerLane_eq hrd _ rfl]
  simp only [hfun]
  rfl

/-- `PPAC5` moves them together. -/
theorem computes_PPAC5 : RegOp.PPAC5.Computes fun _ t => mapWords (pack pixelFields) t := by
  intro r hrd
  have hfun : ∀ t : U32, ((t >>> 3) &&& 0x0000001F) ||| ((t >>> 6) &&& 0x000003E0) |||
      ((t >>> 9) &&& 0x00007C00) ||| ((t >>> 16) &&& 0x00008000) = pack pixelFields t := by
    intro t
    simp only [pack, pixelFields, BitField.moveDown, BitVec.or_assoc]
    exact congrArg _ (congrArg _ (congrArg _ BitVec.or_zero.symm))
  change some (r.setRdPerLane 32 _ 0 4) = _
  rw [setRdPerLane_eq hrd _ rfl]
  simp only [hfun]
  rfl

/-- **The pixels.** -/
theorem packsPixels : PacksPixels := by
  refine ⟨_, _, computes_PEXT5, computes_PPAC5, fun x => ?_, ?_⟩
  · -- Packing undoes extending up to the bits no field keeps.
    refine ext_lanes (w := 32) (m := 4) rfl fun k hk => ?_
    have hmask : UL k 0x0000ffff0000ffff0000ffff0000ffff = masks pixelFields := by
      have hall : ∀ k < 4, UL k 0x0000ffff0000ffff0000ffff0000ffff = masks pixelFields := by decide
      exact hall k hk
    calc UL k (mapWords (pack pixelFields) (mapWords (extend pixelFields) x))
        = pack pixelFields (extend pixelFields (UL k x)) := by
          rw [UL_mapWords _ _ hk, UL_mapWords _ _ hk]
      -- Word by word, by the general fact on separated fields.
      _ = UL k x &&& masks pixelFields := pack_extend pixelFields_separated _
      _ = UL k (x &&& 0x0000ffff0000ffff0000ffff0000ffff) := by
          rw [← hmask]
          exact (lane_and k x _).symm
  · -- What was extended has no bits outside the fields.
    rintro _ ⟨x, rfl⟩
    refine ext_lanes (w := 32) (m := 4) rfl fun k hk => ?_
    simp only [UL_mapWords _ _ hk, extend_pack_extend pixelFields_separated]

/-! ### `HI` and `LO` -/

/-- **`HI` and `LO`.** -/
theorem movesBack : MovesBack := by
  intro r c hsa hsa' hrd
  refine ⟨_, rfl, fun hHI hLO => ?_⟩
  have hmove : Handler.PMTHL r = (((r.setLOLane 0 (UL 0 (r.GPR r.rs))).setHILane 0
      (UL 1 (r.GPR r.rs))).setLOLane 2 (UL 2 (r.GPR r.rs))).setHILane 2 (UL 3 (r.GPR r.rs)) := by
    unfold Handler.PMTHL
    rw [if_neg (not_not.mpr hsa)]
  rw [hmove] at hHI hLO
  -- Words 0 and 2 of `LO` and of `HI` hold the register; the other two are not looked at.
  have hpair : ∀ (v u : U32) (x : U128),
      UL 0 (Lanes.setLane 2 u (Lanes.setLane 0 v x)) = v ∧
        UL 2 (Lanes.setLane 2 u (Lanes.setLane 0 v x)) = u := by
    intro v u x
    refine ⟨?_, lane_setLane_self 2 u _⟩
    exact (lane_setLane_of_ne u _ (by decide)).trans (lane_setLane_self 0 v x)
  obtain ⟨hL₀, hL₂⟩ := hpair (UL 0 (r.GPR r.rs)) (UL 2 (r.GPR r.rs)) r.LO
  obtain ⟨hH₀, hH₂⟩ := hpair (UL 1 (r.GPR r.rs)) (UL 3 (r.GPR r.rs)) r.HI
  have hwords : [UL 0 c.LO, UL 0 c.HI, UL 2 c.LO, UL 2 c.HI] =
      (List.range 4).map fun k => UL k (r.GPR r.rs) := by
    rw [hLO, hHI]
    exact congrArg₂ List.cons hL₀ (congrArg₂ List.cons hH₀
      (congrArg₂ List.cons hL₂ (congrArg₂ List.cons hH₂ rfl)))
  change some (Handler.PMFHL c) = _
  unfold Handler.PMFHL
  rw [if_pos hsa', hwords, setRdLanes_eq hrd rfl]
  exact congrArg (fun v => some (c.setGPR c.rd v))
    (shuffle_range (n := 128) (w := 32) rfl (r.GPR r.rs))

/-! ### All pairs -/

/-- **Packing undoes extending.** -/
theorem packing_undoes_extending : PackingUndoesExtending where
  words := packs_of_shuffle (w := 32) (m := 4) rfl rfl rfl rfl rfl rfl (by decide) rfl
  halfwords := packs_of_shuffle (w := 16) (m := 8) rfl rfl rfl rfl rfl rfl (by decide) rfl
  bytes := packs_of_shuffle (w := 8) (m := 16) rfl rfl rfl rfl rfl rfl (by decide) rfl
  pixels := packsPixels
  hiLo := movesBack
  involutions := by
    -- The positions of each instruction are a permutation of order two.
    simp only [List.forall_mem_cons]
    exact ⟨hasOrder_of_shuffle rfl rfl (by decide) (by decide) (by decide),
      hasOrder_of_shuffle rfl rfl (by decide) (by decide) (by decide),
      hasOrder_of_shuffle rfl rfl (by decide) (by decide) (by decide),
      hasOrder_of_shuffle rfl rfl (by decide) (by decide) (by decide),
      hasOrder_of_shuffle rfl rfl (by decide) (by decide) (by decide), nofun⟩
  rotation := hasOrder_of_shuffle rfl rfl (by decide) (by decide) (by decide)

end Ps2Unpacker
