import Ps2Unpacker.Properties.Endless

/-!
# What the program computes

The program as it is meant: load the file, let the processor run until it first knows an entry
point, and write the nonzero part of the block of written bytes around that point. Nothing of the
interpreter, its recursions or its searches is left in this description, and for orderly programs it
describes exactly the runs that write a file.

* `Arch.Extent`: the range to write.
* `findRange_iff`: the searches find it.
* `unpacks_iff`: the program writes a file exactly as described.
-/

namespace Ps2Unpacker

open CProg Lanes Prog

/-! ### The range -/

namespace Arch

/-- Byte `i` of memory exists and has been stored to. -/
def WrittenAt (a : Arch) (i : Nat) : Prop := ∃ h : i < MEMSIZE, a.written ⟨i, h⟩ = true

/-- Byte `i` of memory exists and is not zero. -/
def NonzeroAt (a : Arch) (i : Nat) : Prop := ∃ h : i < MEMSIZE, a.memory ⟨i, h⟩ ≠ 0

/-- The block of written bytes below the entry point starts at `B`. -/
structure BlockStart (a : Arch) (B : Nat) : Prop where
  le : B ≤ a.entry.toNat
  written : ∀ i, B ≤ i → i < a.entry.toNat → a.WrittenAt i
  inside : 0 < B ∧ B ≤ MEMSIZE
  below : ¬a.WrittenAt (B - 1)

/-- The block of written bytes above the entry point ends before `u`. -/
structure BlockEnd (a : Arch) (u : Nat) : Prop where
  le : (a.entry + 1).toNat ≤ u
  written : ∀ i, (a.entry + 1).toNat ≤ i → i < u → a.WrittenAt i
  inside : u < MEMSIZE
  above : ¬a.WrittenAt u

/-- From `lo` to `hi` is what the options ask for. Without `-l`, `lo` is the aligned address of the
first byte of the block that is not zero; without `-i`, `hi` is behind the last byte that is not
zero, not counting the last one of the block. -/
structure Extent (a : Arch) (opts : Options) (lo hi : U32) : Prop where
  low : if opts.lo = 0 then ∃ (B : Nat) (z : U32), a.BlockStart B ∧ B ≤ z.toNat ∧
      (∀ i, B ≤ i → i < z.toNat → ¬a.NonzeroAt i) ∧ a.NonzeroAt z.toNat ∧
        lo = alignLo opts.align z
    else lo = opts.lo
  high : if opts.hi = 0 then ∃ u, a.BlockEnd u ∧ 0 < hi.toNat ∧ hi.toNat ≤ u - 1 ∧
      (∀ i, hi.toNat ≤ i → i < u - 1 → ¬a.NonzeroAt i) ∧ a.NonzeroAt (hi.toNat - 1)
    else hi = opts.hi
  range : IsRange lo hi

end Arch

section Search

variable {s : Machine} {opts : Options} {lo hi : U32}

/-- What the machine wrote is what the tags say. -/
theorem writtenAt_arch (s : Machine) (i : Nat) : s.arch.WrittenAt i ↔ s.WrittenAt i :=
  exists_congr fun _ => decide_eq_true_iff

/-- The block starts where the first loop stops. -/
theorem blockStart_iff {B : Nat} : s.arch.BlockStart B ↔ StopsBelow s s.bouncePc.toNat B := by
  constructor
  · rintro ⟨le, written, ⟨pos, inside⟩, below⟩
    simp only [writtenAt_arch] at written below
    exact ⟨le, written, pos, inside, below⟩
  · rintro ⟨le, written, pos, inside, below⟩
    simp only [← writtenAt_arch] at written below
    exact ⟨le, written, ⟨pos, inside⟩, below⟩

/-- It ends where the third loop stops. -/
theorem blockEnd_iff {u : Nat} : s.arch.BlockEnd u ↔ StopsAbove s (s.bouncePc + 1).toNat u := by
  constructor
  · rintro ⟨le, written, inside, above⟩
    simp only [writtenAt_arch] at written above
    exact ⟨le, written, inside, above⟩
  · rintro ⟨le, written, inside, above⟩
    simp only [← writtenAt_arch] at written above
    exact ⟨le, written, inside, above⟩

/-- The low end of the range, in terms of the machine. -/
theorem lowBase_iff : LowBase opts s lo ↔
    if opts.lo = 0 then ∃ (B : Nat) (z : U32), s.arch.BlockStart B ∧ B ≤ z.toNat ∧
      (∀ i, B ≤ i → i < z.toNat → ¬s.arch.NonzeroAt i) ∧ s.arch.NonzeroAt z.toNat ∧
        lo = alignLo opts.align z
    else lo = opts.lo := by
  unfold LowBase
  split
  · constructor
    · rintro ⟨B, z, hstart, ⟨le, zero, nonzero⟩, hlo⟩
      exact ⟨B, z, blockStart_iff.mpr hstart, le, zero, nonzero, hlo⟩
    · rintro ⟨B, z, hstart, le, zero, nonzero, hlo⟩
      exact ⟨B, z, blockStart_iff.mp hstart, ⟨le, zero, nonzero⟩, hlo⟩
  · exact Iff.rfl

/-- The end of the range that is searched, with turns for every word. -/
theorem findHi_iff {fuel : Nat} (hfuel : 2 ^ 32 ≤ fuel) : findHi opts fuel s.bouncePc s = .ok hi s ↔
    if opts.hi = 0 then ∃ u, s.arch.BlockEnd u ∧ 0 < hi.toNat ∧ hi.toNat ≤ u - 1 ∧
      (∀ i, hi.toNat ≤ i → i < u - 1 → ¬s.arch.NonzeroAt i) ∧ s.arch.NonzeroAt (hi.toNat - 1)
    else hi = opts.hi := by
  unfold findHi
  split
  · constructor
    · intro h
      -- On any fuel the result is the one specified.
      obtain ⟨-, u, hstop, pos, le, zero, nonzero⟩ := scanHi_of_ok h
      exact ⟨u, blockEnd_iff.mpr hstop, pos, le, zero, nonzero⟩
    · rintro ⟨u, hstop, pos, le, zero, nonzero⟩
      have hscan := scanHi_of_stops (blockEnd_iff.mp hstop) ⟨pos, le, zero, nonzero⟩
      -- It is found with turns for every word, and more turns change nothing.
      have hbelow : (scanHi (2 ^ 32) s.bouncePc).Below (scanHi fuel s.bouncePc) :=
        below_bind (below_scan _ _ hfuel _) fun hi => below_scan _ _ hfuel hi
      exact (hbelow (hscan.trans_ne nofun)).trans hscan
  · constructor
    · exact fun h => (pure_eq_ok.mp h).1.symm
    · rintro rfl
      rfl

/-- **The searches** find the range, given turns for every word. -/
theorem findRange_iff {fuel : Nat} (hfuel : 2 ^ 32 ≤ fuel) :
    findRange opts fuel s = .ok (lo, hi) s ∧ IsRange lo hi ↔ s.arch.Extent opts lo hi := by
  constructor
  · rintro ⟨h, hrange⟩
    unfold findRange at h
    rw [get_bind] at h
    obtain ⟨x, s₁, hlo, h⟩ := bind_eq_ok.mp h
    obtain ⟨rfl, hlow⟩ := lowBase_of_findLo hlo
    obtain ⟨y, s₂, hhi, h⟩ := bind_eq_ok.mp h
    cases h
    -- Both ends, one after the other.
    exact ⟨lowBase_iff.mp hlow, (findHi_iff hfuel).mp hhi, hrange⟩
  · rintro ⟨hlow, hhigh, hrange⟩
    have hlo := findLo_of_lowBase (lowBase_iff.mpr hlow)
    have hbelow : (findLo opts (2 ^ 32) s.bouncePc).Below (findLo opts fuel s.bouncePc) := by
      unfold findLo
      split
      · exact below_bind (below_bind (below_scan _ _ hfuel _) fun lo => below_scan _ _ hfuel lo)
          fun _ => below_refl _
      · exact below_refl _
    refine ⟨?_, hrange⟩
    unfold findRange
    rw [get_bind, bind_ok_of ((hbelow (hlo.trans_ne nofun)).trans hlo),
      bind_ok_of ((findHi_iff hfuel).mpr hhigh)]
    rfl

end Search

/-! ### The whole program -/

/-- **The program computes** exactly what it is meant to. It writes the file `out` after an orderly
run, without `-n`, if and only if: the command line names two files and its options are read; the
input is read and loaded; the processor first knows an entry point in some state `a`, looked at
between leaps; the options and the bytes written in `a` give a range; the output can be written; and
`out` is the ELF file with the memory of `a` in that range and that entry point. -/
theorem unpacks_iff (host : Host) (args : List Opt) (names : List String) (files : Files)
    (out : List U8) :
    (.norun ∉ args ∧
      ∃ fuel s, main host fuel args names files Machine.static = .ok out s ∧ s.Orderly) ↔
    ∃ file outname opts trace image pc a lo hi, files.Input names file outname ∧
      Starts args file opts trace (Machine.start image pc trace) ∧ opts.norun = false ∧
      (Relation.ReflTransGen Arch.LoopStep (Arch.start image pc) a ∧ a.entry ≠ 0) ∧
      a.Extent opts lo hi ∧ files.Writes outname lo hi ∧
      out = dumpFile lo hi a.entry (bytesOf a.memory lo hi) := by
  -- From the program to the machine.
  constructor
  · rintro ⟨hnorun, fuel, s, h, hs⟩
    -- With more fuel, enough for the searches, it writes the same file.
    have hmore := main_below host args names files (Nat.le_add_right fuel (2 ^ 32))
      (h.trans_ne nofun)
    rw [h] at hmore
    obtain ⟨outname, opts, file, trace, hinput, hn, hopts, hunpack⟩ := main_eq_ok hmore
    obtain ⟨image, pc, lo, hi, hload, hin, hwrites, rfl, hphase⟩ := unpackFile_eq_ok hunpack
    have hrunning : opts.norun = false := Bool.eq_false_iff.mpr fun hon => hnorun (hn.mp hon)
    rw [if_neg (by rw [hrunning]; nofun)] at hphase
    obtain ⟨hrun, hrange⟩ := hphase
    exact ⟨file, outname, opts, trace, image, pc, s.arch, lo, hi, hinput, ⟨hopts, hload⟩, hrunning,
      loopSteps_of_emulate hrun hs, (findRange_iff (Nat.le_add_left _ _)).mp ⟨hrange, hin⟩,
      hwrites, rfl⟩
  · -- From the machine to the program.
    rintro ⟨file, outname, opts, trace, image, pc, a, lo, hi, ⟨elfname, rfl, hreads⟩,
      ⟨hopts, hload⟩, hrunning, ⟨hsteps, hentry⟩, hextent, hwrites, rfl⟩
    obtain ⟨turns, s, hrun, hs, rfl⟩ := emulate_of_loopSteps host trace hsteps hentry
    have hnorun : .norun ∉ args := fun hmem =>
      Bool.eq_false_iff.mp hrunning ((getOptions_ensures args {} hopts).2.mpr (.inr hmem))
    -- Fuel for the calls, for the turns and for the searches.
    have hfuel : 2 ^ 32 ≤ 2 ^ 32 + (turns + 2) := Nat.le_add_right _ _
    have hrun' : emulate host (2 ^ 32 + (turns + 2)) (2 ^ 32 + (turns + 2)) (2 ^ 32 + (turns + 2))
        (Machine.start image pc trace) = .ok () s :=
      (emulate_below host (Nat.zero_le _) (by omega) (by omega) (hrun.trans_ne nofun)).trans hrun
    obtain ⟨hrange, hin⟩ := (findRange_iff hfuel).mpr hextent
    have hread : readElf files elfname (Machine.start (fun _ => 0) 0 trace) =
        .ok file (Machine.start (fun _ => 0) 0 trace) := readElf_eq_ok.mpr ⟨hreads, rfl⟩
    refine ⟨hnorun, 2 ^ 32 + (turns + 2), s, ?_, hs⟩
    -- Phase by phase: the options, the file, the run, the range and the output.
    rw [main_eq, bind_ok_of hopts]
    change (readElf files elfname >>= unpackFile host _ files outname opts) _ = _
    rw [bind_ok_of hread, unpackFile_of_run hload hrunning, bind_ok_of hrun', bind_ok_of hrange]
    exact writeElf_eq_ok.mpr ⟨hwrites, dump_eq_ok.mpr ⟨hin, rfl, rfl⟩⟩

end Ps2Unpacker
