import Ps2Unpacker.Machine.InterTables

/-!
# What a multimedia instruction computes from

A handler of `MMI.c` that writes its destination `rd` in pieces reads its sources again after each
piece. `SameView d r c` says that two processors, possibly with different register numbers in the
instruction word, hold the same values wherever such a handler looks; `Agree d r c` says that they
hold the same values in the destination `d`, in `HI` and in `LO`.

* `perLane_eq`: the element-wise macros compute each lane from the registers before the instruction,
  also if the destination is one of the sources.
* `lane_GPR_setLane`: a read of bits that were not yet written does not see the destination.
* `RegOp.run_agree`: an instruction of the multimedia set takes processors with the same view to
  agreeing ones, if `AliasSafe` holds for both: the destination is not a source of the few handlers
  that read bits they have already written.
-/

namespace Ps2Unpacker

open Lanes CpuRegisters

/-! ### Reads after writes -/

section Reads

variable {w w' : Nat} (r : CpuRegisters)

/-- A lane that shares no bit with the one written. -/
theorem lane_GPR_setLane (i m : Reg) (k j : Nat) (v : BitVec w)
    (hdis : w' * j + w' ≤ w * k ∨ w * k + w ≤ w' * j) :
    lane w' j ((r.setLane i k v).GPR m) = lane w' j (r.GPR m) := by
  unfold CpuRegisters.setLane
  rw [setGPR_GPR]
  split
  · rename_i hm
    subst hm
    exact lane_setLane_of_disjoint k j v _ hdis
  · rfl

/-- A write to a lane of `rd` leaves the lanes apart from it. -/
theorem lane_GPR_setRdAt (m : Reg) (k j : Nat) (v : BitVec w)
    (hdis : w' * j + w' ≤ w * k ∨ w * k + w ≤ w' * j) :
    lane w' j ((r.setRdAt k v).GPR m) = lane w' j (r.GPR m) := by
  unfold CpuRegisters.setRdAt
  split
  · rfl
  · exact lane_GPR_setLane r r.rd m k j v hdis

theorem setRdAt_code (k : Nat) (v : BitVec w) : (r.setRdAt k v).code = r.code := by
  unfold CpuRegisters.setRdAt
  split <;> rfl

theorem setRdAt_rd (k : Nat) (v : BitVec w) : (r.setRdAt k v).rd = r.rd :=
  congrArg (fun code => code.extractLsb' 11 5) (setRdAt_code r k v)

theorem setRdAt_rs (k : Nat) (v : BitVec w) : (r.setRdAt k v).rs = r.rs :=
  congrArg (fun code => code.extractLsb' 21 5) (setRdAt_code r k v)

theorem setRdAt_rt (k : Nat) (v : BitVec w) : (r.setRdAt k v).rt = r.rt :=
  congrArg (fun code => code.extractLsb' 16 5) (setRdAt_code r k v)

theorem setRdAt_saField (k : Nat) (v : BitVec w) : (r.setRdAt k v).saField = r.saField :=
  congrArg (fun code => code.extractLsb' 6 5) (setRdAt_code r k v)

theorem setRdAt_sa (k : Nat) (v : BitVec w) : (r.setRdAt k v).sa = r.sa := by
  unfold CpuRegisters.setRdAt
  split <;> rfl

theorem setRdAt_LO (k : Nat) (v : BitVec w) :
    (r.setRdAt k v).LO = r.LO := by
  unfold CpuRegisters.setRdAt
  split <;> rfl

theorem setRdAt_HI (k : Nat) (v : BitVec w) :
    (r.setRdAt k v).HI = r.HI := by
  unfold CpuRegisters.setRdAt
  split <;> rfl

/-- A register other than the destination. -/
theorem setRdAt_GPR_of_ne {m : Reg} (hm : m ≠ r.rd) (k : Nat) (v : BitVec w) :
    (r.setRdAt k v).GPR m = r.GPR m := by
  unfold CpuRegisters.setRdAt
  split
  · rfl
  · exact setGPR_GPR_of_ne _ r hm

/-- Of two writes to a register the second one stays. -/
theorem setGPR_setGPR (i : Reg) (v u : U128) : (r.setGPR i v).setGPR i u = r.setGPR i u := by
  unfold CpuRegisters.setGPR
  congr 1
  funext j
  by_cases hj : j = i
  · simp [hj]
  · simp [hj]

/-- A register that is written its own value stays. -/
theorem setGPR_self (i : Reg) : r.setGPR i (r.GPR i) = r := by
  have hG : (fun j => if j = i then r.GPR i else r.GPR j) = r.GPR := by
    funext j
    by_cases hj : j = i
    · simp [hj]
    · simp [hj]
  unfold CpuRegisters.setGPR
  rw [hG]

/-- The lanes still to be read are above the one just written. -/
theorem lane_setLane_above (i m : Reg) {k j : Nat} (hj : k + 1 ≤ j) (v : BitVec w) :
    lane w j ((r.setLane i k v).GPR m) = lane w j (r.GPR m) := by
  refine lane_GPR_setLane r i m k j v (.inr ?_)
  have := Nat.mul_le_mul_left w hj
  rwa [Nat.mul_succ] at this

/-- **The element-wise macros** compute from the registers before the instruction. -/
theorem perLane_eq (f : BitVec w → BitVec w → BitVec w) (n : Nat) :
    ∀ (k : Nat) (r : CpuRegisters), r.perLane w f k n =
      r.setGPR r.rd (mapLanes f k n (r.GPR r.rs) (r.GPR r.rt) (r.GPR r.rd)) := by
  induction n with
  | zero =>
    intro k r
    exact (setGPR_self r r.rd).symm
  | succ n ih =>
    intro k r
    unfold CpuRegisters.perLane
    -- Two writes to `rd` are one, and the second one reads lanes that the first did not touch.
    rw [ih]
    change (r.setGPR r.rd _).setGPR r.rd _ = _
    rw [setGPR_setGPR]
    congr 1
    change mapLanes f (k + 1) n _ _ ((r.setGPR r.rd _).GPR r.rd) = _
    rw [setGPR_GPR_self]
    exact mapLanes_congr f n _ (fun _ hj => lane_setLane_above r _ _ hj _)
      fun _ hj => lane_setLane_above r _ _ hj _

/-- The partial macros where every lane is defined. -/
theorem perLane?_eq_some {f : BitVec w → BitVec w → Option (BitVec w)}
    {g : BitVec w → BitVec w → BitVec w} (n : Nat) :
    ∀ {k : Nat} {r : CpuRegisters},
      (∀ j, k ≤ j → j < k + n → f (lane w j (r.GPR r.rs)) (lane w j (r.GPR r.rt)) =
        some (g (lane w j (r.GPR r.rs)) (lane w j (r.GPR r.rt)))) →
      r.perLane? w f k n = some (r.perLane w g k n) := by
  induction n with
  | zero => exact fun _ => rfl
  | succ n ih =>
    intro k r h
    unfold CpuRegisters.perLane? CpuRegisters.perLane
    rw [h k (Nat.le_refl k) (by omega), Option.bind_eq_bind, Option.bind_some]
    refine ih fun j hkj hj => ?_
    -- The lanes behind `k` are read from the registers with lane `k` replaced, and are the same.
    have hlane := h j (by omega) (by omega)
    rw [← lane_setLane_above r r.rd r.rs hkj (g (lane w k (r.GPR r.rs)) (lane w k (r.GPR r.rt))),
      ← lane_setLane_above r r.rd r.rt hkj (g (lane w k (r.GPR r.rs)) (lane w k (r.GPR r.rt)))]
      at hlane
    exact hlane

/-- The partial macros where one lane is not. -/
theorem perLane?_eq_none {f : BitVec w → BitVec w → Option (BitVec w)} (n : Nat) :
    ∀ {k j : Nat} {r : CpuRegisters}, k ≤ j → j < k + n →
      f (lane w j (r.GPR r.rs)) (lane w j (r.GPR r.rt)) = none → r.perLane? w f k n = none := by
  induction n with
  | zero => omega
  | succ n ih =>
    intro k j r hkj hj h
    unfold CpuRegisters.perLane?
    -- An earlier lane may stop the macro first.
    rcases hv : f (lane w k (r.GPR r.rs)) (lane w k (r.GPR r.rt)) with _ | v
    · rfl
    · have hne : k ≠ j := by
        rintro rfl
        rw [h] at hv
        cases hv
      have hlt : k + 1 ≤ j := by omega
      rw [← lane_setLane_above r r.rd r.rs hlt v, ← lane_setLane_above r r.rd r.rt hlt v] at h
      exact ih hlt (by omega) h

/-- A lane of the destination of an element-wise macro. -/
theorem lane_GPR_setRdPerLane (hrd : r.rd ≠ 0) (f : BitVec w → BitVec w → BitVec w) {k n : Nat}
    (hfit : w * n ≤ 128) (hk : k < n) :
    lane w k ((r.setRdPerLane w f 0 n).GPR r.rd) =
      f (lane w k (r.GPR r.rs)) (lane w k (r.GPR r.rt)) := by
  unfold CpuRegisters.setRdPerLane
  rw [if_neg hrd, perLane_eq, setGPR_GPR_self, lane_mapLanes f n _ _ _ (by rwa [Nat.zero_add])
    (by omega)]
  exact if_neg (Nat.not_lt_zero k)

/-- The lanes below those still to be assigned stay. -/
theorem lane_GPR_setLanes_of_lt (i : Reg) (vs : List (BitVec w)) :
    ∀ {r : CpuRegisters} {k j : Nat}, j < k →
      lane w j ((r.setLanes i k vs).GPR i) = lane w j (r.GPR i) := by
  induction vs with
  | nil => exact fun _ => rfl
  | cons v vs ih =>
    intro r k j hj
    unfold CpuRegisters.setLanes
    rw [ih (by omega)]
    change lane w j ((r.setGPR i _).GPR i) = _
    rw [setGPR_GPR_self, lane_setLane_of_ne _ _ (by omega)]

/-- A lane that is assigned. -/
theorem lane_GPR_setLanes (i : Reg) (vs : List (BitVec w)) :
    ∀ {r : CpuRegisters} {k j : Nat} {v : BitVec w}, w * (k + vs.length) ≤ 128 →
      vs[j]? = some v → lane w (k + j) ((r.setLanes i k vs).GPR i) = v := by
  induction vs with
  | nil =>
    intro r k j v _ hv
    cases hv
  | cons u vs ih =>
    intro r k j v hfit hv
    have hstep : k + 1 + vs.length = k + (u :: vs).length := by
      rw [List.length_cons]
      omega
    unfold CpuRegisters.setLanes
    cases j with
    | zero =>
      obtain rfl : u = v := by simpa using hv
      -- The lanes behind it are assigned later, and leave it.
      have hle := Nat.mul_le_mul_left w (show k + 1 ≤ k + (u :: vs).length by omega)
      rw [Nat.mul_succ] at hle
      rw [Nat.add_zero, lane_GPR_setLanes_of_lt i vs (Nat.lt_succ_self k)]
      change lane w k ((r.setGPR i _).GPR i) = _
      rw [setGPR_GPR_self, lane_setLane_self _ _ _ (by omega)]
    | succ j =>
      have hrest := ih (r := r.setLane i k u) (k := k + 1) (j := j) (v := v)
        (by rw [hstep]; exact hfit) (by simpa using hv)
      rwa [Nat.add_assoc, Nat.add_comm 1 j] at hrest

/-- A lane of the destination of a shuffle. -/
theorem lane_GPR_setRdLanes (hrd : r.rd ≠ 0) {vs : List (BitVec w)} (hfit : w * vs.length ≤ 128)
    {k : Nat} {v : BitVec w} (hv : vs[k]? = some v) :
    lane w k ((r.setRdLanes vs).GPR r.rd) = v := by
  have hlane := lane_GPR_setLanes r.rd vs (r := r) (k := 0) (j := k) (by rwa [Nat.zero_add]) hv
  unfold CpuRegisters.setRdLanes
  rwa [if_neg hrd, ← Nat.zero_add k]

end Reads

/-! ### Views -/

/-- The two processors hold the same values in the destination `d`, in `HI` and in `LO`. -/
structure Agree (d : Reg) (r c : CpuRegisters) : Prop where
  GPR : r.GPR d = c.GPR d
  HI : r.HI = c.HI
  LO : r.LO = c.LO

/-- Moreover, from bit `b` on they hold the same sources of an instruction with the destination `d`.
-/
structure ViewFrom (b : Nat) (d : Reg) (r c : CpuRegisters) : Prop extends Agree d r c where
  rd : r.rd = d
  rd' : c.rd = d
  nonzero : d ≠ 0
  rs : ∀ i, b ≤ i → (r.GPR r.rs).getLsbD i = (c.GPR c.rs).getLsbD i
  rt : ∀ i, b ≤ i → (r.GPR r.rt).getLsbD i = (c.GPR c.rt).getLsbD i

/-- The two processors hold the same values wherever a multimedia instruction with the destination
`d` looks. -/
structure SameView (d : Reg) (r c : CpuRegisters) : Prop extends ViewFrom 0 d r c where
  saField : r.saField = c.saField
  sa : r.sa = c.sa

/-- Moreover, in neither of them the destination is a source. -/
structure ApartView (d : Reg) (r c : CpuRegisters) : Prop extends SameView d r c where
  rs_ne : r.rs ≠ d
  rt_ne : r.rt ≠ d
  rs_ne' : c.rs ≠ d
  rt_ne' : c.rt ≠ d

namespace Agree

variable {d : Reg} {r c : CpuRegisters} {w : Nat}

/-- The same write on both sides keeps the agreement. -/
theorem setLane (h : Agree d r c) (k : Nat) {v u : BitVec w} (hv : v = u) :
    Agree d (r.setLane d k v) (c.setLane d k u) where
  GPR := by
    unfold CpuRegisters.setLane
    rw [setGPR_GPR_self, setGPR_GPR_self, h.GPR, hv]
  HI := h.HI
  LO := h.LO

theorem setHILane (h : Agree d r c) (k : Nat) {v u : BitVec w} (hv : v = u) :
    Agree d (r.setHILane k v) (c.setHILane k u) where
  GPR := h.GPR
  HI := by
    unfold CpuRegisters.setHILane
    rw [setHI_HI, setHI_HI, h.HI, hv]
  LO := h.LO

theorem setLOLane (h : Agree d r c) (k : Nat) {v u : BitVec w} (hv : v = u) :
    Agree d (r.setLOLane k v) (c.setLOLane k u) where
  GPR := h.GPR
  HI := h.HI
  LO := by
    unfold CpuRegisters.setLOLane
    rw [setLO_LO, setLO_LO, h.LO, hv]

/-- So do several lanes in turn, and guarded ones. -/
theorem setLanes (vs : List (BitVec w)) :
    ∀ {r c : CpuRegisters} (_ : Agree d r c) (k : Nat),
      Agree d (r.setLanes d k vs) (c.setLanes d k vs) := by
  induction vs with
  | nil => exact fun h _ => h
  | cons v vs ih => exact fun h k => ih (h.setLane k rfl) (k + 1)

theorem setRdAt (h : Agree d r c) (hr : r.rd = d) (hc : c.rd = d) (k : Nat) {v u : BitVec w}
    (hv : v = u) : Agree d (r.setRdAt k v) (c.setRdAt k u) := by
  unfold CpuRegisters.setRdAt
  rw [hr, hc]
  split
  · exact h
  · exact h.setLane k hv

end Agree

namespace ViewFrom

variable {b : Nat} {d : Reg} {r c : CpuRegisters} {w : Nat}

/-- A lane of the first source. -/
theorem lane_rs (h : ViewFrom b d r c) {j : Nat} (hb : b ≤ w * j) :
    lane w j (r.GPR r.rs) = lane w j (c.GPR c.rs) := by
  apply BitVec.eq_of_getLsbD_eq
  intro i _
  rw [getLsbD_lane, getLsbD_lane, h.rs (w * j + i) (by omega)]

/-- A lane of the second source. -/
theorem lane_rt (h : ViewFrom b d r c) {j : Nat} (hb : b ≤ w * j) :
    lane w j (r.GPR r.rt) = lane w j (c.GPR c.rt) := by
  apply BitVec.eq_of_getLsbD_eq
  intro i _
  rw [getLsbD_lane, getLsbD_lane, h.rt (w * j + i) (by omega)]

theorem setHILane (h : ViewFrom b d r c) (k : Nat) {v u : BitVec w} (hv : v = u) :
    ViewFrom b d (r.setHILane k v) (c.setHILane k u) :=
  { h with toAgree := h.toAgree.setHILane k hv }

theorem setLOLane (h : ViewFrom b d r c) (k : Nat) {v u : BitVec w} (hv : v = u) :
    ViewFrom b d (r.setLOLane k v) (c.setLOLane k u) :=
  { h with toAgree := h.toAgree.setLOLane k hv }

/-- The pair of writes to `LO` and `HI`. -/
theorem setHiLo (h : ViewFrom b d r c) (k : Nat) (lo hi : BitVec w) :
    ViewFrom b d ((r.setLOLane k lo).setHILane k hi) ((c.setLOLane k lo).setHILane k hi) :=
  (h.setLOLane k rfl).setHILane k rfl

/-- A write that ends before bit `b'`. -/
theorem setRdAt {b' : Nat} (h : ViewFrom b d r c) (hb : b ≤ b') (k : Nat) {v u : BitVec w}
    (hv : v = u) (hk : w * k + w ≤ b') : ViewFrom b' d (r.setRdAt k v) (c.setRdAt k u) := by
  -- Bits from `b'` on are one-bit lanes that the write does not touch.
  have hkeep : ∀ (x : CpuRegisters) (y : BitVec w) (m : Reg) (i : Nat), b' ≤ i →
      ((x.setRdAt k y).GPR m).getLsbD i = (x.GPR m).getLsbD i := by
    intro x y m i hi
    have hlane : lane 1 i ((x.setRdAt k y).GPR m) = lane 1 i (x.GPR m) :=
      lane_GPR_setRdAt x m k i y (.inr (by omega))
    have hbit := congrArg (fun z => z.getLsbD 0) hlane
    simpa only [getLsbD_lane, Nat.lt_one_iff, decide_true, Bool.true_and, Nat.one_mul,
      Nat.add_zero] using hbit
  refine ⟨h.toAgree.setRdAt h.rd h.rd' k hv, (setRdAt_rd r k v).trans h.rd,
    (setRdAt_rd c k u).trans h.rd', h.nonzero, fun i hi => ?_, fun i hi => ?_⟩
  · rw [setRdAt_rs, setRdAt_rs, hkeep r v _ i hi, hkeep c u _ i hi, h.rs i (Nat.le_trans hb hi)]
  · rw [setRdAt_rt, setRdAt_rt, hkeep r v _ i hi, hkeep c u _ i hi, h.rt i (Nat.le_trans hb hi)]

/-- An element-wise macro that starts at bit `b` or behind it. -/
theorem setRdPerLane (h : ViewFrom b d r c) {f g : BitVec w → BitVec w → BitVec w} (hf : f = g)
    (k n : Nat) (hb : b ≤ w * k) :
    ViewFrom (w * (k + n)) d (r.setRdPerLane w f k n) (c.setRdPerLane w g k n) := by
  subst hf
  -- The lanes computed are equal, since they are read from bit `b` on.
  have hmap : mapLanes f k n (r.GPR r.rs) (r.GPR r.rt) (r.GPR d) =
      mapLanes f k n (c.GPR c.rs) (c.GPR c.rt) (c.GPR d) := by
    rw [h.GPR]
    refine mapLanes_congr f n _ (fun j hj => h.lane_rs ?_) fun j hj => h.lane_rt ?_
    · exact Nat.le_trans hb (Nat.mul_le_mul_left w hj)
    · exact Nat.le_trans hb (Nat.mul_le_mul_left w hj)
  -- Behind the last lane the registers are as before.
  have hkeep : ∀ (x : CpuRegisters) (m : Reg) (i : Nat), w * (k + n) ≤ i →
      ((x.setGPR d (mapLanes f k n (x.GPR x.rs) (x.GPR x.rt) (x.GPR d))).GPR m).getLsbD i =
        (x.GPR m).getLsbD i := by
    intro x m i hi
    rw [setGPR_GPR]
    split
    · rename_i hm
      rw [getLsbD_mapLanes_of_le f n _ _ _ hi, hm]
    · rfl
  have hle : b ≤ w * (k + n) := Nat.le_trans hb (Nat.mul_le_mul_left w (Nat.le_add_right k n))
  unfold CpuRegisters.setRdPerLane
  rw [h.rd, h.rd', if_neg h.nonzero, if_neg h.nonzero, perLane_eq, perLane_eq, h.rd, h.rd']
  refine ⟨⟨?_, h.HI, h.LO⟩, h.rd, h.rd', h.nonzero, fun i hi => ?_, fun i hi => ?_⟩
  · rw [setGPR_GPR_self, setGPR_GPR_self, hmap]
  · change ((r.setGPR d _).GPR r.rs).getLsbD i = ((c.setGPR d _).GPR c.rs).getLsbD i
    rw [hkeep r _ i hi, hkeep c _ i hi, h.rs i (Nat.le_trans hle hi)]
  · change ((r.setGPR d _).GPR r.rt).getLsbD i = ((c.setGPR d _).GPR c.rt).getLsbD i
    rw [hkeep r _ i hi, hkeep c _ i hi, h.rt i (Nat.le_trans hle hi)]

end ViewFrom

namespace SameView

variable {d : Reg} {r c : CpuRegisters} {w : Nat}

/-- Both sides read the same from `rs` and `rt`. -/
theorem rs_eq (h : SameView d r c) : r.GPR r.rs = c.GPR c.rs :=
  BitVec.eq_of_getLsbD_eq fun i _ => h.rs i (Nat.zero_le i)

theorem rt_eq (h : SameView d r c) : r.GPR r.rt = c.GPR c.rt :=
  BitVec.eq_of_getLsbD_eq fun i _ => h.rt i (Nat.zero_le i)

theorem setRdAt (h : SameView d r c) (k : Nat) {v u : BitVec w} (hv : v = u) :
    Agree d (r.setRdAt k v) (c.setRdAt k u) :=
  h.toAgree.setRdAt h.rd h.rd' k hv

theorem setRdLanes (h : SameView d r c) {vs us : List (BitVec w)} (hv : vs = us) :
    Agree d (r.setRdLanes vs) (c.setRdLanes us) := by
  unfold CpuRegisters.setRdLanes
  rw [h.rd, h.rd', if_neg h.nonzero, if_neg h.nonzero, hv]
  exact h.toAgree.setLanes us 0

theorem setRdPerLane (h : SameView d r c) {f g : BitVec w → BitVec w → BitVec w} (hf : f = g)
    (n : Nat) : Agree d (r.setRdPerLane w f 0 n) (c.setRdPerLane w g 0 n) :=
  (h.toViewFrom.setRdPerLane hf 0 n (Nat.zero_le _)).toAgree

end SameView

namespace ApartView

variable {d : Reg} {r c : CpuRegisters} {w : Nat}

/-- The destination may be written, the sources stay. -/
theorem setRdAt (h : ApartView d r c) (k : Nat) {v u : BitVec w} (hv : v = u) :
    ApartView d (r.setRdAt k v) (c.setRdAt k u) where
  toAgree := h.toAgree.setRdAt h.rd h.rd' k hv
  rd := (setRdAt_rd r k v).trans h.rd
  rd' := (setRdAt_rd c k u).trans h.rd'
  nonzero := h.nonzero
  rs i _ := by
    rw [setRdAt_rs, setRdAt_rs, setRdAt_GPR_of_ne r (by rw [h.rd]; exact h.rs_ne),
      setRdAt_GPR_of_ne c (by rw [h.rd']; exact h.rs_ne'), h.rs_eq]
  rt i _ := by
    rw [setRdAt_rt, setRdAt_rt, setRdAt_GPR_of_ne r (by rw [h.rd]; exact h.rt_ne),
      setRdAt_GPR_of_ne c (by rw [h.rd']; exact h.rt_ne'), h.rt_eq]
  saField := by rw [setRdAt_saField, setRdAt_saField, h.saField]
  sa := by rw [setRdAt_sa, setRdAt_sa, h.sa]
  rs_ne := by rw [setRdAt_rs]; exact h.rs_ne
  rt_ne := by rw [setRdAt_rt]; exact h.rt_ne
  rs_ne' := by rw [setRdAt_rs]; exact h.rs_ne'
  rt_ne' := by rw [setRdAt_rt]; exact h.rt_ne'

theorem setLane (h : ApartView d r c) (k : Nat) {v u : BitVec w} (hv : v = u) :
    ApartView d (r.setLane d k v) (c.setLane d k u) := by
  have hset := h.setRdAt k hv
  unfold CpuRegisters.setRdAt at hset
  rwa [h.rd, h.rd', if_neg h.nonzero, if_neg h.nonzero] at hset

theorem setHILane (h : ApartView d r c) (k : Nat) {v u : BitVec w} (hv : v = u) :
    ApartView d (r.setHILane k v) (c.setHILane k u) :=
  { h with toAgree := h.toAgree.setHILane k hv }

theorem setLOLane (h : ApartView d r c) (k : Nat) {v u : BitVec w} (hv : v = u) :
    ApartView d (r.setLOLane k v) (c.setLOLane k u) :=
  { h with toAgree := h.toAgree.setLOLane k hv }

end ApartView

/-! ### The handlers that read their sources again -/

namespace Handler

variable {b k : Nat} {d : Reg} {r c : CpuRegisters}

/-- The scalar multiplications write once. -/
theorem storeProduct_agree (h : SameView d r c) (k : Nat) {v u : U64} (hv : v = u) :
    Agree d (storeProduct r k v) (storeProduct c k u) := by
  subst hv
  have hhilo := h.toViewFrom.setHiLo k ((v.setWidth 32).signExtend 64)
    (((v >>> 32).setWidth 32).signExtend 64)
  exact hhilo.toAgree.setRdAt hhilo.rd hhilo.rd' 0 (congrArg (UD k) hhilo.LO)

/-- The wide operations: doubleword 0 of the destination from the words 0, then doubleword 1 from
the words 2. -/
theorem storeWide_agree {v : CpuRegisters → Nat → U64}
    (hv : ∀ {r c : CpuRegisters} {k : Nat}, r.LO = c.LO → r.HI = c.HI →
      UL k (r.GPR r.rs) = UL k (c.GPR c.rs) → UL k (r.GPR r.rt) = UL k (c.GPR c.rt) →
      v r k = v c k)
    (h : SameView d r c) :
    Agree d (storeWide (storeWide r 0 (v r 0)) 1 (v (storeWide r 0 (v r 0)) 2))
      (storeWide (storeWide c 0 (v c 0)) 1 (v (storeWide c 0 (v c 0)) 2)) := by
  have hzero : v r 0 = v c 0 := hv h.LO h.HI (h.lane_rs (Nat.zero_le _)) (h.lane_rt (Nat.zero_le _))
  -- After the first half only the upper 64 bits of the sources are as before.
  have hhigh : ViewFrom 64 d (storeWide r 0 (v r 0)) (storeWide c 0 (v c 0)) := by
    rw [hzero]
    exact (h.toViewFrom.setHiLo 0 _ _).setRdAt (Nat.zero_le 64) 0 rfl (Nat.le_refl 64)
  have htwo := hv hhigh.LO hhigh.HI (hhigh.lane_rs (j := 2) (Nat.le_refl 64))
    (hhigh.lane_rt (j := 2) (Nat.le_refl 64))
  rw [htwo]
  have hhilo := hhigh.setHiLo 1 (((v (storeWide c 0 (v c 0)) 2).setWidth 32).signExtend 64)
    (((v (storeWide c 0 (v c 0)) 2 >>> 32).setWidth 32).signExtend 64)
  exact hhilo.toAgree.setRdAt hhilo.rd hhilo.rd' 1 rfl

/-- The variable shifts, the same without `HI` and `LO`. -/
theorem setRdAt_setRdAt_agree {v : U128 → U128 → Nat → U64}
    (hv : ∀ {s t s' t' : U128} {k : Nat}, UL k s = UL k s' → UL k t = UL k t' →
      v s t k = v s' t' k)
    (h : SameView d r c) :
    Agree d
      ((r.setRdAt 0 (v (r.GPR r.rs) (r.GPR r.rt) 0)).setRdAt 1
        (v ((r.setRdAt 0 (v (r.GPR r.rs) (r.GPR r.rt) 0)).GPR r.rs)
          ((r.setRdAt 0 (v (r.GPR r.rs) (r.GPR r.rt) 0)).GPR r.rt) 2))
      ((c.setRdAt 0 (v (c.GPR c.rs) (c.GPR c.rt) 0)).setRdAt 1
        (v ((c.setRdAt 0 (v (c.GPR c.rs) (c.GPR c.rt) 0)).GPR c.rs)
          ((c.setRdAt 0 (v (c.GPR c.rs) (c.GPR c.rt) 0)).GPR c.rt) 2)) := by
  -- The second half reads the words 2 of the sources, which the first half does not touch.
  have hkeep : ∀ (x : CpuRegisters) (y : U64) (m : Reg),
      UL 2 ((x.setRdAt 0 y).GPR m) = UL 2 (x.GPR m) :=
    fun x y m => lane_GPR_setRdAt x m 0 2 y (.inr (by decide))
  rw [h.rs_eq, h.rt_eq]
  refine (h.setRdAt 0 rfl).setRdAt ((setRdAt_rd r 0 _).trans h.rd)
    ((setRdAt_rd c 0 _).trans h.rd') 1
    (hv ?_ ?_)
  · rw [hkeep, hkeep, h.rs_eq]
  · rw [hkeep, hkeep, h.rt_eq]

/-- Both sides read the same word from `HI` or `LO`. -/
theorem read_eq (h : Agree d r c) (hlr : HiLo) : hlr.read r = hlr.read c := by
  cases hlr with
  | HI => exact h.HI
  | LO => exact h.LO

/-- A write to one of them keeps the view and leaves the sources alone. -/
theorem write_view (h : ViewFrom b d r c) (hlr : HiLo) (k : Nat) {v u : U32} (hv : v = u) :
    ViewFrom b d (hlr.write k v r) (hlr.write k u c) := by
  cases hlr with
  | HI => exact h.setHILane k hv
  | LO => exact h.setLOLane k hv

theorem write_apart (h : ApartView d r c) (hlr : HiLo) (k : Nat) {v u : U32} (hv : v = u) :
    ApartView d (hlr.write k v r) (hlr.write k u c) := by
  cases hlr with
  | HI => exact h.setHILane k hv
  | LO => exact h.setLOLane k hv

/-- A product of halfwords that are still as before. -/
theorem productH_eq (h : ViewFrom b d r c) {n : Nat} (hb : b ≤ 16 * n) :
    productH r n = productH c n := by
  have hs : US n (r.GPR r.rs) = US n (c.GPR c.rs) := h.lane_rs hb
  have ht : US n (r.GPR r.rt) = US n (c.GPR c.rt) := h.lane_rt hb
  unfold productH
  rw [hs, ht]

/-- One assignment of the horizontal handlers, if the products come from word `k` of the sources. -/
theorem horizontalH_view (h : ViewFrom (32 * k) d r c) (op : U32 → U32 → U32) (hlr : HiLo)
    (dd : Nat) :
    ViewFrom (32 * (k + 1)) d (horizontalH op hlr dd (2 * k) k r)
      (horizontalH op hlr dd (2 * k) k c) := by
  have htemp : op (productH r (2 * k + 1)) (productH r (2 * k)) =
      op (productH c (2 * k + 1)) (productH c (2 * k)) := by
    rw [productH_eq h (by omega), productH_eq h (by omega)]
  exact (write_view h hlr dd htemp).setRdAt (by omega) k htemp (by omega)

/-- One assignment of the horizontal handlers, if the destination is not a source. -/
theorem horizontalH_apart (h : ApartView d r c) (op : U32 → U32 → U32) (hlr : HiLo) (dd n k : Nat) :
    ApartView d (horizontalH op hlr dd n k r) (horizontalH op hlr dd n k c) := by
  have htemp : op (productH r (n + 1)) (productH r n) = op (productH c (n + 1)) (productH c n) := by
    rw [productH_eq h.toViewFrom (Nat.zero_le _), productH_eq h.toViewFrom (Nat.zero_le _)]
  exact (write_apart h hlr dd htemp).setRdAt k htemp

/-- One assignment of the accumulating halfword handlers, if the destination is not a source. -/
theorem accumulateH_apart (h : ApartView d r c) (op : U32 → U32 → U32) (hlr : HiLo) (k n : Nat)
    (rdd : Option Nat) :
    ApartView d (accumulateH op hlr k n rdd r) (accumulateH op hlr k n rdd c) := by
  have htemp : op (UL k (hlr.read r)) (productH r n) = op (UL k (hlr.read c)) (productH c n) := by
    rw [read_eq h.toAgree, productH_eq h.toViewFrom (Nat.zero_le _)]
  have hwrite := write_apart h hlr k htemp
  cases rdd with
  | none => exact hwrite
  | some j => exact hwrite.setRdAt j htemp

/-- The eight accumulations, whose sources are no destination. -/
theorem accumulateAllH_apart (h : ApartView d r c) (op : U32 → U32 → U32) :
    ApartView d (accumulateAllH op r) (accumulateAllH op c) := by
  have h₁ := accumulateH_apart h op .LO 0 0 (some 0)
  have h₂ := accumulateH_apart h₁ op .LO 1 1 none
  have h₃ := accumulateH_apart h₂ op .HI 0 2 (some 1)
  have h₄ := accumulateH_apart h₃ op .HI 1 3 none
  have h₅ := accumulateH_apart h₄ op .LO 2 4 (some 2)
  have h₆ := accumulateH_apart h₅ op .LO 3 5 none
  have h₇ := accumulateH_apart h₆ op .HI 2 6 (some 3)
  exact accumulateH_apart h₇ op .HI 3 7 none

/-- `PHMADH` reads halfwords that it has overwritten, so its sources have to be apart from `rd`. -/
theorem PHMADH_apart (h : ApartView d r c) : ApartView d (PHMADH r) (PHMADH c) := by
  have h₁ := horizontalH_apart h (fun p q => p + q) .LO 0 0 0
  have h₂ := horizontalH_apart h₁ (fun p q => p + q) .HI 0 1 1
  have h₃ := horizontalH_apart h₂ (fun p q => p + q) .LO 2 2 2
  exact horizontalH_apart h₃ (fun p q => p + q) .HI 2 3 3

/-- `PHMSBH`, in place too. -/
theorem PHMSBH_agree (h : SameView d r c) : Agree d (PHMSBH r) (PHMSBH c) := by
  -- Each assignment reads the word of the sources that it then overwrites.
  have h₁ := horizontalH_view (k := 0) h.toViewFrom (fun p q => p - q) .LO 0
  have h₂ := horizontalH_view (k := 1) h₁ (fun p q => p - q) .HI 0
  have h₃ := horizontalH_view (k := 2) h₂ (fun p q => p - q) .LO 2
  exact (horizontalH_view (k := 3) h₃ (fun p q => p - q) .HI 2).toAgree

/-- `PCPYLD` writes the upper half first, and reads the lower one of `rt` behind it. -/
theorem PCPYLD_agree (h : SameView d r c) : Agree d (PCPYLD r) (PCPYLD c) := by
  have hlow : ∀ (x : CpuRegisters) (v : U64), UD 0 ((x.setRdAt 1 v).GPR x.rt) = UD 0 (x.GPR x.rt) :=
    fun x v => lane_GPR_setRdAt x x.rt 1 0 v (.inl (by decide))
  have h₁ := h.setRdAt 1 (h.lane_rs (w := 64) (j := 0) (Nat.zero_le _))
  refine h₁.setRdAt ((setRdAt_rd r 1 _).trans h.rd) ((setRdAt_rd c 1 _).trans h.rd') 0 ?_
  rw [hlow, hlow, h.rt_eq]

/-- `PCPYUD` does it the other way round. -/
theorem PCPYUD_agree (h : SameView d r c) : Agree d (PCPYUD r) (PCPYUD c) := by
  have hhigh : ∀ (x : CpuRegisters) (v : U64),
      UD 1 ((x.setRdAt 0 v).GPR x.rt) = UD 1 (x.GPR x.rt) :=
    fun x v => lane_GPR_setRdAt x x.rt 0 1 v (.inr (by decide))
  have h₁ := h.setRdAt 0 (h.lane_rs (w := 64) (j := 1) (Nat.zero_le _))
  refine h₁.setRdAt ((setRdAt_rd r 0 _).trans h.rd) ((setRdAt_rd c 0 _).trans h.rd') 1 ?_
  rw [hhigh, hhigh, h.rt_eq]

/-- `PMFHL`, in all its forms. -/
theorem PMFHL_agree (h : SameView d r c) : Agree d (PMFHL r) (PMFHL c) := by
  -- The form is selected by the same field, and all of them read `HI` and `LO` alone.
  unfold PMFHL PMFHL_SLW accumulator
  rw [h.saField, h.HI, h.LO]
  repeat' split
  all_goals first | exact h.setRdLanes rfl | exact h.toAgree

/-- The funnel shift by zero copies `rt`. -/
theorem QFSRV_zero_agree (h : SameView d r c) (hsa : r.sa = 0) :
    ∃ r' c', QFSRV r = some r' ∧ QFSRV c = some c' ∧ Agree d r' c' := by
  have hrd : r.rd ≠ 0 := h.rd ▸ h.nonzero
  have hrd' : c.rd ≠ 0 := h.rd' ▸ h.nonzero
  have hsa' : c.sa = 0 := h.sa ▸ hsa
  unfold QFSRV
  rw [if_neg hrd, if_neg hrd', if_pos hsa, if_pos hsa', h.rd, h.rd']
  refine ⟨_, _, rfl, rfl, (h.toAgree.setLane 0 (by rw [h.rt_eq])).setLane 1 ?_⟩
  -- The upper half of the second source is read after the lower half was written.
  calc UD 1 ((r.setLane d 0 (UD 0 (r.GPR r.rt))).GPR r.rt) = UD 1 (r.GPR r.rt) :=
        lane_GPR_setLane r d r.rt 0 1 _ (.inr (by decide))
    _ = UD 1 (c.GPR c.rt) := by rw [h.rt_eq]
    _ = UD 1 ((c.setLane d 0 (UD 0 (c.GPR c.rt))).GPR c.rt) :=
        (lane_GPR_setLane c d c.rt 0 1 _ (.inr (by decide))).symm

/-- Below 64 the handler writes `rd` four times, and reads the sources between. -/
theorem QFSRV_low_agree (h : ApartView d r c) (hne : r.sa ≠ 0) (hsa : r.sa < 64) :
    ∃ r' c', QFSRV r = some r' ∧ QFSRV c = some c' ∧ Agree d r' c' := by
  have hrd : r.rd ≠ 0 := h.rd ▸ h.nonzero
  have hrd' : c.rd ≠ 0 := h.rd' ▸ h.nonzero
  unfold QFSRV
  rw [← h.sa, if_neg hrd, if_neg hrd', if_neg hne, if_neg hne, if_pos hsa, if_pos hsa, h.rd, h.rd']
  -- One assignment after the other; each reads registers that agree by then.
  have h₁ := h.setLane 0 (v := UD 0 (r.GPR r.rt) >>> r.sa.toNat)
    (u := UD 0 (c.GPR c.rt) >>> r.sa.toNat) (by rw [h.rt_eq])
  have h₂ := h₁.setLane 1 (congrArg (fun x => UD 1 x >>> r.sa.toNat) h₁.rt_eq)
  have h₃ := h₂.setLane 0 (congrArg₂ (fun x y => UD 0 x ||| UD 1 y <<< (64 - r.sa).toNat)
    h₂.GPR h₂.rt_eq)
  have h₄ := h₃.setLane 1 (congrArg₂ (fun x y => UD 1 x ||| UD 0 y <<< (64 - r.sa).toNat)
    h₃.GPR h₃.rs_eq)
  exact ⟨_, _, rfl, rfl, h₄.toAgree⟩

/-- From 64 on the second source is read before anything is written. -/
theorem QFSRV_high_agree (h : SameView d r c) (hrs : r.rs ≠ d) (hrs' : c.rs ≠ d) (hlo : 64 < r.sa)
    (hhi : r.sa < 128) : ∃ r' c', QFSRV r = some r' ∧ QFSRV c = some c' ∧ Agree d r' c' := by
  have hrd : r.rd ≠ 0 := h.rd ▸ h.nonzero
  have hrd' : c.rd ≠ 0 := h.rd' ▸ h.nonzero
  have hne : r.sa ≠ 0 := by bv_omega
  have hnlt : ¬r.sa < 64 := by bv_omega
  have hkeep : ∀ (x : CpuRegisters) (k : Nat) (v : U64) {m : Reg}, m ≠ d →
      (x.setLane d k v).GPR m = x.GPR m := fun x k v m hm => setGPR_GPR_of_ne _ x hm
  unfold QFSRV
  rw [← h.sa, if_neg hrd, if_neg hrd', if_neg hne, if_neg hne, if_neg hnlt, if_neg hnlt,
    if_pos ⟨hlo, hhi⟩, if_pos ⟨hlo, hhi⟩, h.rd, h.rd']
  simp only [hkeep _ _ _ hrs, hkeep _ _ _ hrs']
  rw [h.rs_eq, h.rt_eq]
  -- The values written come from the registers before the instruction, or from `rd` itself.
  have h₁ := h.toAgree.setLane 0 (v := UD 1 (c.GPR c.rt) >>> (r.sa - 64).toNat) rfl
  have h₂ := h₁.setLane 1 (v := UD 0 (c.GPR c.rs) >>> (r.sa - 64).toNat) rfl
  have h₃ := h₂.setLane 0
    (congrArg (fun x => UD 0 x ||| UD 0 (c.GPR c.rs) <<< (128 - r.sa).toNat) h₂.GPR)
  have h₄ := h₃.setLane 1
    (congrArg (fun x => UD 1 x ||| UD 1 (c.GPR c.rs) <<< (128 - r.sa).toNat) h₃.GPR)
  exact ⟨_, _, rfl, rfl, h₄⟩

end Handler

/-! ### The multimedia set -/

open Handler

/-- The instructions of the multimedia tables that write a general register. -/
def RegOp.multimedia : RegOp → Bool
  | MADD | MADDU | PLZCW | MFHI1 | MFLO1 | MULT1 | MULTU1 | MADD1 | MADDU1 | PMFHL
  | PSLLH | PSRLH | PSRAH | PSLLW | PSRLW | PSRAW
  | PADDW | PSUBW | PCGTW | PMAXW | PADDH | PSUBH | PCGTH | PMAXH | PADDB | PSUBB | PCGTB | PADDSW
  | PSUBSW | PEXTLW | PPACW | PADDSH | PSUBSH | PEXTLH | PPACH | PADDSB | PSUBSB | PEXTLB | PPACB
  | PEXT5 | PPAC5
  | PABSW | PCEQW | PMINW | PADSBH | PABSH | PCEQH | PMINH | PCEQB | PADDUW | PSUBUW | PEXTUW
  | PADDUH | PSUBUH | PEXTUH | PADDUB | PSUBUB | PEXTUB | QFSRV
  | PMADDW | PSLLVW | PSRLVW | PMSUBW | PMFHI | PMFLO | PINTH | PMULTW | PCPYLD | PMADDH | PHMADH
  | PAND | PXOR | PMSUBH | PHMSBH | PEXEH | PREVH | PMULTH | PEXEW | PROT3W
  | PMADDUW | PSRAVW | PINTEH | PMULTUW | PCPYUD | POR | PNOR | PEXCH | PCPYH | PEXCW => true
  | _ => false

/-- The instruction does not read a part of a source that it has already written: the handlers that
would do so have a destination other than their sources. -/
def RegOp.AliasSafe (o : RegOp) (r : CpuRegisters) : Prop :=
  match o with
  | PMADDH | PMSUBH | PMULTH | PHMADH => r.rs ≠ r.rd ∧ r.rt ≠ r.rd
  | QFSRV =>
    -- At 64 a doubleword would be shifted by 64 bits; behind it `rt` is read first.
    r.sa = 0 ∨ r.sa < 64 ∧ r.rs ≠ r.rd ∧ r.rt ≠ r.rd ∨ 64 < r.sa ∧ r.rs ≠ r.rd
  | _ => True

/-- Two processors with the same view, in neither of which the destination is a source. -/
theorem ApartView.of_ne {d : Reg} {r c : CpuRegisters} (h : SameView d r c)
    (hr : r.rs ≠ r.rd ∧ r.rt ≠ r.rd) (hc : c.rs ≠ c.rd ∧ c.rt ≠ c.rd) : ApartView d r c := by
  rw [h.rd] at hr
  rw [h.rd'] at hc
  exact ⟨h, hr.1, hr.2, hc.1, hc.2⟩

/-- The funnel shift: the amount, which both processors share, decides which sources matter. -/
theorem QFSRV_agree {d : Reg} {r c : CpuRegisters} (h : SameView d r c) (hsa : r.sa < 128)
    (hr : RegOp.QFSRV.AliasSafe r) (hc : RegOp.QFSRV.AliasSafe c) :
    ∃ r' c', QFSRV r = some r' ∧ QFSRV c = some c' ∧ Agree d r' c' := by
  -- By the shift amount, and with it by what the other processor is promised.
  rcases hr with hzero | ⟨hlt, hs⟩ | ⟨hgt, hs⟩
  · exact QFSRV_zero_agree h hzero
  · by_cases hzero : r.sa = 0
    · exact QFSRV_zero_agree h hzero
    · have hs' : c.rs ≠ c.rd ∧ c.rt ≠ c.rd := by
        rcases hc with h0 | ⟨-, hs'⟩ | ⟨hgt, -⟩
        · exact absurd (h.sa.trans h0) hzero
        · exact hs'
        · rw [← h.sa] at hgt
          bv_omega
      exact QFSRV_low_agree (.of_ne h hs hs') hzero hlt
  · have hs' : c.rs ≠ c.rd := by
      rcases hc with h0 | ⟨hlt, -⟩ | ⟨-, hs'⟩
      · rw [← h.sa] at h0
        bv_omega
      · rw [← h.sa] at hlt
        bv_omega
      · exact hs'
    exact QFSRV_high_agree h (h.rd ▸ hs) (h.rd' ▸ hs') hgt hsa

/-- **The multimedia instructions** take processors with the same view to agreeing ones. -/
theorem RegOp.run_agree {o : RegOp} {d : Reg} {r c : CpuRegisters} (ho : o.multimedia)
    (h : SameView d r c) (hsa : r.sa < 128) (hr : o.AliasSafe r) (hc : o.AliasSafe c) :
    ∃ r' c', o.run r = some r' ∧ o.run c = some c' ∧ Agree d r' c' := by
  have hrs := h.rs_eq
  have hrt := h.rt_eq
  have hprod : product r 0 = product c 0 := by unfold product; rw [hrs, hrt]
  have hprodU : productU r 0 = productU c 0 := by unfold productU; rw [hrs, hrt]
  have hacc : ∀ k, accumulator r k = accumulator c k := by
    intro k
    unfold accumulator
    rw [h.HI, h.LO]
  have hsa4 : sa4 r = sa4 c := by unfold sa4; rw [h.saField]
  cases o with
  -- the scalar multiplications
  | MULT1 => exact ⟨_, _, rfl, rfl, storeProduct_agree h 1 hprod⟩
  | MULTU1 => exact ⟨_, _, rfl, rfl, storeProduct_agree h 1 hprodU⟩
  | MADD => exact ⟨_, _, rfl, rfl, storeProduct_agree h 0 (by rw [hacc, hprod])⟩
  | MADDU => exact ⟨_, _, rfl, rfl, storeProduct_agree h 0 (by rw [hacc, hprodU])⟩
  | MADD1 => exact ⟨_, _, rfl, rfl, storeProduct_agree h 1 (by rw [hacc, hprod])⟩
  | MADDU1 => exact ⟨_, _, rfl, rfl, storeProduct_agree h 1 (by rw [hacc, hprodU])⟩
  -- moves from `HI` and `LO`
  | MFHI1 => exact ⟨_, _, rfl, rfl, h.setRdAt 0 (by rw [h.HI])⟩
  | MFLO1 => exact ⟨_, _, rfl, rfl, h.setRdAt 0 (by rw [h.LO])⟩
  | PMFHI => exact ⟨_, _, rfl, rfl, h.setRdLanes (by rw [h.HI])⟩
  | PMFLO => exact ⟨_, _, rfl, rfl, h.setRdLanes (by rw [h.LO])⟩
  | PMFHL => exact ⟨_, _, rfl, rfl, PMFHL_agree h⟩
  -- the element-wise macros
  | PLZCW | PADDW | PSUBW | PCGTW | PMAXW | PADDH | PSUBH | PCGTH | PMAXH | PADDB | PSUBB | PCGTB
  | PADDSW | PSUBSW | PADDSH | PSUBSH | PADDSB | PSUBSB | PEXT5 | PPAC5 | PABSW | PCEQW | PMINW
  | PABSH | PCEQH | PMINH | PCEQB | PADDUW | PSUBUW | PADDUH | PSUBUH | PADDUB | PSUBUB | PAND
  | PXOR | POR | PNOR =>
    -- Every lane is computed from lanes that are written later.
    exact ⟨_, _, rfl, rfl, h.setRdPerLane rfl _⟩
  | PSLLH | PSRLH | PSRAH => exact ⟨_, _, rfl, rfl, h.setRdPerLane (by rw [hsa4]) _⟩
  | PSLLW | PSRLW | PSRAW => exact ⟨_, _, rfl, rfl, h.setRdPerLane (by rw [h.saField]) _⟩
  | PADSBH =>
    -- Differences in the lower half, then sums in the upper one.
    have hlow := h.toViewFrom.setRdPerLane (f := fun s t : U16 => s - t) rfl 0 4 (Nat.le_refl _)
    exact ⟨_, _, rfl, rfl, (hlow.setRdPerLane rfl 4 4 (Nat.le_refl _)).toAgree⟩
  -- the shuffles
  | PEXTLW | PPACW | PEXTLH | PPACH | PEXTLB | PPACB | PEXTUW | PEXTUH | PEXTUB | PINTH | PINTEH =>
    exact ⟨_, _, rfl, rfl, h.setRdLanes (by rw [hrs, hrt])⟩
  | PEXEH | PREVH | PEXEW | PROT3W | PEXCH | PCPYH | PEXCW =>
    exact ⟨_, _, rfl, rfl, h.setRdLanes (by rw [hrt])⟩
  | PCPYLD => exact ⟨_, _, rfl, rfl, PCPYLD_agree h⟩
  | PCPYUD => exact ⟨_, _, rfl, rfl, PCPYUD_agree h⟩
  -- the wide operations
  | PMADDW =>
    exact ⟨_, _, rfl, rfl, storeWide_agree (v := fun r k => accumulatorS r k + product r k)
      (fun hL hH hs ht => by simp only [accumulatorS, product, hL, hH, hs, ht]) h⟩
  | PMSUBW =>
    exact ⟨_, _, rfl, rfl, storeWide_agree (v := fun r k => accumulatorS r k - product r k)
      (fun hL hH hs ht => by simp only [accumulatorS, product, hL, hH, hs, ht]) h⟩
  | PMULTW =>
    exact ⟨_, _, rfl, rfl, storeWide_agree (v := fun r k => product r k)
      (fun _ _ hs ht => by simp only [product, hs, ht]) h⟩
  | PMADDUW =>
    exact ⟨_, _, rfl, rfl, storeWide_agree (v := fun r k => accumulator r k + productU r k)
      (fun hL hH hs ht => by simp only [accumulator, productU, hL, hH, hs, ht]) h⟩
  | PMULTUW =>
    exact ⟨_, _, rfl, rfl, storeWide_agree (v := fun r k => productU r k)
      (fun _ _ hs ht => by simp only [productU, hs, ht]) h⟩
  | PSLLVW =>
    exact ⟨_, _, rfl, rfl, setRdAt_setRdAt_agree
      (v := fun s t k => (UL k t <<< (UL k s &&& 0x1F).toNat).signExtend 64)
      (fun hs ht => by simp only [hs, ht]) h⟩
  | PSRLVW =>
    exact ⟨_, _, rfl, rfl, setRdAt_setRdAt_agree
      (v := fun s t k => (UL k t >>> (UL k s &&& 0x1F).toNat).setWidth 64)
      (fun hs ht => by simp only [hs, ht]) h⟩
  | PSRAVW =>
    exact ⟨_, _, rfl, rfl, setRdAt_setRdAt_agree
      (v := fun s t k => ((UL k t).sshiftRight (UL k s &&& 0x1F).toNat).signExtend 64)
      (fun hs ht => by simp only [hs, ht]) h⟩
  -- the halfword products
  | PMADDH | PMSUBH | PMULTH =>
    exact ⟨_, _, rfl, rfl, (accumulateAllH_apart (.of_ne h hr hc) _).toAgree⟩
  | PHMADH => exact ⟨_, _, rfl, rfl, (PHMADH_apart (.of_ne h hr hc)).toAgree⟩
  | PHMSBH => exact ⟨_, _, rfl, rfl, PHMSBH_agree h⟩
  | QFSRV => exact QFSRV_agree h hsa hr hc
  | _ => cases ho

end Ps2Unpacker
