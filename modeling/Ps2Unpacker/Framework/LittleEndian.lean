import Ps2Unpacker.Framework.Lanes

/-!
# Little-endian fields of a byte string

A C program that lays a structure over a byte buffer reads its members as little-endian values at
fixed offsets. `toBytes n x` are the `n` low bytes of `x`, least significant first, `ofBytes` puts
bytes together again, and `peek w bytes offset` is the member of `w` bits at `offset`, if it lies
inside the buffer. The offset is an integer, since pointer arithmetic can lead in front of the
buffer.

* `ofBytes_toBytes`: the two are inverse.
* `peek_behind`, `peek_toBytes`: a member behind other members is looked for in the rest, and a
  member at the front reads back.
* `peek_isSome_iff`: the members that lie inside the buffer.
-/

namespace Lanes

variable {w n : Nat}

/-- The `n` low bytes of `x`, least significant first. -/
def toBytes (n : Nat) (x : BitVec w) : List (BitVec 8) := (List.range n).map fun k => lane 8 k x

/-- The value with the given bytes, least significant first. -/
def ofBytes (w : Nat) : List (BitVec 8) → BitVec w
  | [] => 0
  | b :: bs => b.setWidth w ||| ofBytes w bs <<< 8

/-- The member of `w` bits at `offset`. -/
def peek (w : Nat) (bytes : List (BitVec 8)) (offset : Int) : Option (BitVec w) :=
  if 0 ≤ offset ∧ offset + (w / 8 : Nat) ≤ bytes.length then
    some (ofBytes w ((bytes.drop offset.toNat).take (w / 8)))
  else none

@[simp] theorem length_toBytes (n : Nat) (x : BitVec w) : (toBytes n x).length = n := by
  simp [toBytes]

/-- The bytes are the lanes of the value. -/
theorem ofBytes_eq_ofLanes (bs : List (BitVec 8)) : ofBytes w bs = ofLanes w bs := by
  induction bs with
  | nil => rfl
  | cons b bs ih => rw [ofBytes, ofLanes, ih]

/-- The bytes put together are the bytes of the value. -/
theorem lane_ofBytes (hw : w = 8 * n) {b : Nat → BitVec 8} {j : Nat} (hj : j < n) :
    lane 8 j (ofBytes w ((List.range n).map b)) = b j := by
  rw [ofBytes_eq_ofLanes]
  refine lane_ofLanes ?_ ?_
  · rw [List.length_map, List.length_range]
    exact Nat.le_of_eq hw.symm
  · rw [List.getElem?_map, List.getElem?_range hj, Option.map_some]

/-- **The round trip** of a value through its bytes. -/
theorem ofBytes_toBytes (x : BitVec w) (hw : w = 8 * n) : ofBytes w (toBytes n x) = x :=
  ext_lanes hw fun _ hk => lane_ofBytes hw hk

/-- The value is determined by its bytes. -/
theorem eq_ofBytes (hw : w = 8 * n) {x : BitVec w} {b : Nat → BitVec 8}
    (h : ∀ j, j < n → lane 8 j x = b j) : x = ofBytes w ((List.range n).map b) := by
  have hbytes : toBytes n x = (List.range n).map b := by
    unfold toBytes
    exact List.map_congr_left fun j hj => h j (List.mem_range.mp hj)
  rw [← hbytes, ofBytes_toBytes x hw]

/-- A member is there if it lies inside the bytes. -/
theorem peek_isSome_iff {bytes : List (BitVec 8)} {offset : Int} :
    (peek w bytes offset).isSome ↔ 0 ≤ offset ∧ offset + (w / 8 : Nat) ≤ bytes.length := by
  unfold peek
  split
  · rename_i h
    exact ⟨fun _ => h, fun _ => rfl⟩
  · rename_i h
    exact ⟨fun hsome => (Bool.noConfusion hsome), fun hin => absurd hin h⟩

/-- A member behind the bytes `pre` is a member of the rest. -/
theorem peek_behind {pre post : List (BitVec 8)} {offset : Int} (hpre : pre.length ≤ offset) :
    peek w (pre ++ post) offset = peek w post (offset - pre.length) := by
  obtain ⟨k, rfl⟩ : ∃ k : Nat, offset = (pre.length + k : Nat) :=
    ⟨offset.toNat - pre.length, by omega⟩
  have hsub : ((pre.length + k : Nat) : Int) - pre.length = (k : Nat) := by omega
  have hfit : (0 ≤ ((pre.length + k : Nat) : Int) ∧
      ((pre.length + k : Nat) : Int) + (w / 8 : Nat) ≤ (pre ++ post).length) ↔
      (0 ≤ (k : Int) ∧ (k : Int) + (w / 8 : Nat) ≤ post.length) := by
    rw [List.length_append]
    omega
  unfold peek
  rw [hsub, Int.toNat_natCast, Int.toNat_natCast, List.drop_length_add_append]
  exact if_congr hfit rfl rfl

/-- A member at the front reads back. -/
theorem peek_toBytes {post : List (BitVec 8)} (x : BitVec w) (hw : w = 8 * n) :
    peek w (toBytes n x ++ post) 0 = some x := by
  have hn : w / 8 = n := by omega
  have hfit : 0 ≤ (0 : Int) ∧ (0 : Int) + (w / 8 : Nat) ≤ (toBytes n x ++ post).length := by
    rw [hn, List.length_append, length_toBytes]
    omega
  have htake : (toBytes n x ++ post).take n = toBytes n x := by
    rw [List.take_append_of_le_length (by simp), List.take_of_length_le (by simp)]
  unfold peek
  rw [if_pos hfit, Int.toNat_zero, List.drop_zero, hn, htake, ofBytes_toBytes x hw]

end Lanes
