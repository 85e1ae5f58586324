import Ps2Unpacker.Framework.Shuffle
import Ps2Unpacker.Semantics.Lanewise

/-!
# Instructions as functions of their sources

Many of the multimedia instructions do nothing but assign to `rd` a function of the contents of `rs`
and `rt`. `RegOp.Computes` says so of one of them, for every destination other than `r0`, be it a
source or not. Then what a sequence of such instructions does, on whatever registers, is what the
functions do one after the other.

The handlers that rearrange lanes assign them one by one, from copies of their sources.
`RegOp.shuffle` lists the positions they are taken from, and `RegOp.computes_shuffle` says that the
handlers compute the shuffles at these positions.
-/

namespace Ps2Unpacker

open Lanes CpuRegisters

/-! ### Destinations that are assigned lane by lane -/

section Assignments

variable {w m : Nat} {r : CpuRegisters}

/-- Nothing but the register is assigned. -/
theorem setLanes_eq_setGPR (i : Reg) (vs : List (BitVec w)) :
    ∀ (k : Nat) (r : CpuRegisters),
      r.setLanes i k vs = r.setGPR i ((r.setLanes i k vs).GPR i) := by
  induction vs with
  | nil => exact fun _ r => (setGPR_self r i).symm
  | cons v vs ih =>
    intro k r
    unfold CpuRegisters.setLanes
    rw [ih (k + 1) (r.setLane i k v)]
    change (r.setGPR i _).setGPR i _ = r.setGPR i (((r.setGPR i _).setGPR i _).GPR i)
    rw [setGPR_setGPR, setGPR_GPR_self]

/-- Lanes that fill the destination. -/
theorem setRdLanes_eq (hrd : r.rd ≠ 0) {vs : List (BitVec w)} (hfit : 128 = w * vs.length) :
    r.setRdLanes vs = r.setGPR r.rd (ofLanes 128 vs) := by
  have hvalue : (r.setRdLanes vs).GPR r.rd = ofLanes 128 vs := by
    refine ext_lanes hfit fun k hk => ?_
    obtain ⟨v, hv⟩ : ∃ v, vs[k]? = some v := ⟨_, List.getElem?_eq_getElem hk⟩
    rw [lane_GPR_setRdLanes r hrd (Nat.le_of_eq hfit.symm) hv,
      lane_ofLanes (Nat.le_of_eq hfit.symm) hv]
  rw [← hvalue]
  unfold CpuRegisters.setRdLanes
  rw [if_neg hrd]
  exact setLanes_eq_setGPR r.rd vs 0 r

/-- An element-wise macro on all lanes. -/
theorem setRdPerLane_eq (hrd : r.rd ≠ 0) (f : BitVec w → BitVec w → BitVec w)
    (hfit : 128 = w * m) :
    r.setRdPerLane w f 0 m =
      r.setGPR r.rd (mapLanes f 0 m (r.GPR r.rs) (r.GPR r.rt) (r.GPR r.rt)) := by
  unfold CpuRegisters.setRdPerLane
  rw [if_neg hrd, perLane_eq, mapLanes_dest f hfit _ _ (r.GPR r.rd) (r.GPR r.rt)]

end Assignments

/-! ### Functions of the sources -/

/-- With a destination other than `r0`, be it a source or not, the instruction assigns to it the
function `f` of the contents of `rs` and `rt`, and changes nothing else. -/
def RegOp.Computes (o : RegOp) (f : U128 → U128 → U128) : Prop :=
  ∀ r : CpuRegisters, r.rd ≠ 0 →
    o.run r = some (r.setGPR r.rd (f (r.GPR r.rs) (r.GPR r.rt)))

/-- The instruction executed `n` times in a row. -/
def RegOp.runTimes (o : RegOp) : Nat → CpuRegisters → Option CpuRegisters
  | 0, r => some r
  | n + 1, r => o.run r >>= o.runTimes n

namespace RegOp

variable {o : RegOp}

/-- Executed in place, an instruction of one source repeats its function. -/
theorem Computes.runTimes {f : U128 → U128} (h : o.Computes fun _ t => f t) (n : Nat) :
    ∀ {r : CpuRegisters}, r.rd ≠ 0 → r.rt = r.rd →
      o.runTimes n r = some (r.setGPR r.rd (f^[n] (r.GPR r.rd))) := by
  induction n with
  | zero =>
    intro r _ _
    exact congrArg some (setGPR_self r r.rd).symm
  | succ n ih =>
    intro r hrd hrt
    -- The instruction word stays, so the next execution has the same registers.
    have hrest := ih (r := r.setGPR r.rd (f (r.GPR r.rd))) hrd hrt
    unfold RegOp.runTimes
    rw [h r hrd, hrt, Option.bind_eq_bind, Option.bind_some, hrest]
    change some ((r.setGPR r.rd _).setGPR r.rd (f^[n] ((r.setGPR r.rd _).GPR r.rd))) = _
    rw [setGPR_setGPR, setGPR_GPR_self, Function.iterate_succ_apply]

end RegOp

/-! ### Shuffles -/

/-- The lanes that a handler writes, from the lowest on, as positions in its sources: those of `rt`
come first, then those of `rs`. -/
structure Shuffle where
  width : Nat
  positions : List Nat

/-- The register that is written. -/
def Shuffle.apply (p : Shuffle) (s t : U128) : U128 := Lanes.shuffle p.width p.positions (s ++ t)

/-- The handlers that assign lanes of copies of their sources. -/
def RegOp.shuffle : RegOp → Option Shuffle
  -- two sources, interleaved
  | PEXTLW => some ⟨32, [0, 4, 1, 5]⟩
  | PEXTUW => some ⟨32, [2, 6, 3, 7]⟩
  | PEXTLH => some ⟨16, [0, 8, 1, 9, 2, 10, 3, 11]⟩
  | PEXTUH => some ⟨16, [4, 12, 5, 13, 6, 14, 7, 15]⟩
  | PEXTLB => some ⟨8, [0, 16, 1, 17, 2, 18, 3, 19, 4, 20, 5, 21, 6, 22, 7, 23]⟩
  | PEXTUB => some ⟨8, [8, 24, 9, 25, 10, 26, 11, 27, 12, 28, 13, 29, 14, 30, 15, 31]⟩
  | PINTH => some ⟨16, [0, 12, 1, 13, 2, 14, 3, 15]⟩
  | PINTEH => some ⟨16, [0, 8, 2, 10, 4, 12, 6, 14]⟩
  -- every other lane of two sources
  | PPACW => some ⟨32, [0, 2, 4, 6]⟩
  | PPACH => some ⟨16, [0, 2, 4, 6, 8, 10, 12, 14]⟩
  | PPACB => some ⟨8, [0, 2, 4, 6, 8, 10, 12, 14, 16, 18, 20, 22, 24, 26, 28, 30]⟩
  -- one source
  | PEXEH => some ⟨16, [2, 1, 0, 3, 6, 5, 4, 7]⟩
  | PREVH => some ⟨16, [3, 2, 1, 0, 7, 6, 5, 4]⟩
  | PEXEW => some ⟨32, [2, 1, 0, 3]⟩
  | PROT3W => some ⟨32, [1, 2, 0, 3]⟩
  | PEXCH => some ⟨16, [0, 2, 1, 3, 4, 6, 5, 7]⟩
  | PCPYH => some ⟨16, [0, 0, 0, 0, 4, 4, 4, 4]⟩
  | PEXCW => some ⟨32, [0, 2, 1, 3]⟩
  | _ => none

/-- Lane `j` of the sources, of which there are `m` in each. -/
def CpuRegisters.sourceLane (w m : Nat) (r : CpuRegisters) (j : Nat) : BitVec w :=
  if j < m then lane w j (r.GPR r.rt) else lane w (j - m) (r.GPR r.rs)

/-- A handler that assigns lanes of its sources. -/
theorem RegOp.computes_of_lanes {o : RegOp} {w m : Nat} {js : List Nat} (hw : 128 = w * m)
    (hlen : js.length = m) (hrun : ∀ r, o.run r = some (r.setRdLanes (js.map (r.sourceLane w m)))) :
    o.Computes (Shuffle.apply ⟨w, js⟩) := by
  intro r hrd
  have hfit : 128 = w * (js.map (r.sourceLane w m)).length := by
    rw [List.length_map, hlen]
    exact hw
  rw [hrun, setRdLanes_eq hrd hfit]
  have hlanes : r.sourceLane w m = fun j => lane w j (r.GPR r.rs ++ r.GPR r.rt) := by
    funext j
    exact (lane_append hw _ _ j).symm
  rw [hlanes]
  rfl

/-- **The shuffles** of `MMI.c`. -/
theorem RegOp.computes_shuffle {o : RegOp} {p : Shuffle} (ho : o.shuffle = some p) :
    o.Computes p.apply := by
  cases o with
  | PEXTLW | PEXTUW | PPACW | PEXEW | PROT3W | PEXCW =>
    cases ho
    exact computes_of_lanes (m := 4) rfl rfl fun r => rfl
  | PEXTLH | PEXTUH | PINTH | PINTEH | PPACH | PEXEH | PREVH | PEXCH | PCPYH =>
    cases ho
    exact computes_of_lanes (m := 8) rfl rfl fun r => rfl
  | PEXTLB | PEXTUB | PPACB =>
    cases ho
    exact computes_of_lanes (m := 16) rfl rfl fun r => rfl
  | _ => cases ho

end Ps2Unpacker
