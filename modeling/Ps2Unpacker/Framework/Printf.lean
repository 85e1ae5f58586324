import Mathlib.Data.Nat.Digits.Lemmas
import Mathlib.Data.List.TakeWhile

/-!
# Formatted text

The part of `sprintf` that a program printing names and addresses uses: characters that stand for
themselves, `%s`, and `%0wlX` with a one-digit width. A format is read once into a list of `Item`s,
and `print` fills in the arguments.

Text that two calls with the same format have in common determines the arguments, provided that the
place where each operand ends can be seen: the operands consist of characters of a class that does
not contain the character behind them (`Separated`, `print_inj`). Two such formats are told apart by
the first character in which they differ (`Apart`, `print_ne_of_apart`).
-/

namespace CPrintf

/-- A character of a format, or a conversion. -/
inductive Item where
  | char (c : Char)
  | str
  | hex (width : Nat)
  deriving DecidableEq

/-- An argument. -/
inductive Value where
  | str (s : String)
  | num (n : Nat)
  deriving DecidableEq

/-- The items of a format. -/
def items : List Char → List Item
  | '%' :: 's' :: f => .str :: items f
  | '%' :: '0' :: w :: 'l' :: 'X' :: f => .hex (w.toNat - '0'.toNat) :: items f
  | c :: f => .char c :: items f
  | [] => []

/-- The digit `d` in upper case. -/
def hexDigit (d : Nat) : Char := Char.ofNat (if d < 10 then 48 + d else 55 + d)

/-- `%0wlX`: the hexadecimal digits of `n`, at least `w` of them. -/
def lX (w n : Nat) : List Char := ((Nat.digitsAppend 16 w n).map hexDigit).reverse

/-- The text of a conversion or character, in front of the text behind it. What C leaves undefined,
an argument that does not fit its conversion or none at all, prints nothing. -/
def print : List Item → List Value → List Char
  | [], _ => []
  | .char c :: f, vs => c :: print f vs
  | .str :: f, .str s :: vs => s.toList ++ print f vs
  | .hex w :: f, .num n :: vs => lX w n ++ print f vs
  | _ :: f, vs => print f vs

/-- `sprintf(buf, format, args…)`: what is in `buf` afterwards. -/
def sprintf (format : String) (args : List Value) : String :=
  String.ofList (print (items format.toList) args)

/-- The arguments are those the conversions ask for. -/
def Fits : List Item → List Value → Bool
  | [], vs => vs.isEmpty
  | .char _ :: f, vs => Fits f vs
  | .str :: f, .str _ :: vs => Fits f vs
  | .hex _ :: f, .num _ :: vs => Fits f vs
  | _ :: _, _ => false

/-- A character prints itself. -/
theorem print_char (c : Char) (f : List Item) (vs : List Value) :
    print (.char c :: f) vs = c :: print f vs := rfl

/-- `%s` prints its argument. -/
theorem print_str (s : String) (f : List Item) (vs : List Value) :
    print (.str :: f) (.str s :: vs) = s.toList ++ print f vs := rfl

/-- A hexadecimal conversion prints the digits of its argument. -/
theorem print_hex (w n : Nat) (f : List Item) (vs : List Value) :
    print (.hex w :: f) (.num n :: vs) = lX w n ++ print f vs := rfl

/-! ### Hexadecimal numbers -/

/-- The digit read back. -/
def hexValue (c : Char) : Nat := if c.toNat < 65 then c.toNat - 48 else c.toNat - 55

/-- A digit is read back. -/
theorem hexValue_hexDigit : ∀ d < 16, hexValue (hexDigit d) = d := by decide

/-- A digit is alphanumeric. -/
theorem hexDigit_isAlphanum : ∀ d < 16, (hexDigit d).isAlphanum = true := by decide

/-- **The number read back.** -/
theorem ofDigits_lX (w n : Nat) : Nat.ofDigits 16 ((lX w n).reverse.map hexValue) = n := by
  have hread : ((Nat.digitsAppend 16 w n).map hexDigit).map hexValue = Nat.digitsAppend 16 w n := by
    rw [List.map_map]
    refine (List.map_congr_left fun d hd => ?_).trans (List.map_id _)
    exact hexValue_hexDigit d (Nat.lt_of_mem_digitsAppend (by decide) w d hd)
  rw [lX, List.reverse_reverse, hread, Nat.digitsAppend, Nat.ofDigits_append_replicate_zero,
    Nat.ofDigits_digits]

/-- Different numbers print different digits, at any width. -/
theorem lX_inj {w n m : Nat} (h : lX w n = lX w m) : n = m := by
  rw [← ofDigits_lX w n, h, ofDigits_lX]

/-- All that a hexadecimal conversion prints is alphanumeric. -/
theorem lX_isAlphanum {w n : Nat} : ∀ c ∈ lX w n, c.isAlphanum = true := by
  intro c hc
  obtain ⟨d, hd, rfl⟩ := List.mem_map.mp (List.mem_reverse.mp hc)
  exact hexDigit_isAlphanum d (Nat.lt_of_mem_digitsAppend (by decide) w d hd)

/-! ### Reading operands off -/

section Operands

variable {p : Char → Bool}

/-- The text ends, or goes on with a character outside of the class. -/
def EndsOperand (p : Char → Bool) (s : List Char) : Prop := s.takeWhile p = []

/-- Where an operand ends is seen from what follows it. -/
theorem append_inj_of_endsOperand {a b u v : List Char} (ha : ∀ c ∈ a, p c = true)
    (hb : ∀ c ∈ b, p c = true) (hu : EndsOperand p u) (hv : EndsOperand p v)
    (h : a ++ u = b ++ v) : a = b ∧ u = v := by
  have hfront : a ++ u.takeWhile p = b ++ v.takeWhile p := by
    rw [← List.takeWhile_append_of_pos ha, h, List.takeWhile_append_of_pos hb]
  rw [hu, hv, List.append_nil, List.append_nil] at hfront
  subst hfront
  exact ⟨rfl, List.append_cancel_left h⟩

/-- The format ends, or goes on with a character outside of the class. -/
def endsOperand (p : Char → Bool) : List Item → Bool
  | [] => true
  | .char c :: _ => !p c
  | _ :: _ => false

/-- Every conversion has its end seen from the format. -/
def Separated (p : Char → Bool) : List Item → Bool
  | [] => true
  | .char _ :: f => Separated p f
  | _ :: f => endsOperand p f && Separated p f

/-- An operand of characters of the class. -/
def Value.Within (p : Char → Bool) : Value → Prop
  | .str s => ∀ c ∈ s.toList, p c = true
  | .num _ => True

/-- Where the format ends or goes on with a character outside of the class, so does the text. -/
theorem print_endsOperand {f : List Item} (h : endsOperand p f = true) (vs : List Value) :
    EndsOperand p (print f vs) := by
  cases f with
  | nil => rfl
  | cons i f =>
    cases i with
    | char c =>
      have hc : p c = false := by simpa [endsOperand] using h
      rw [EndsOperand, print_char, List.takeWhile_cons, hc]
      rfl
    | str | hex => cases h

/-- **Reading back.** What two calls with the same format print determines their arguments. -/
theorem print_inj {f : List Item} (hp : ∀ c : Char, c.isAlphanum = true → p c = true)
    (hf : Separated p f = true) : ∀ {vs ws : List Value}, Fits f vs = true → Fits f ws = true →
      (∀ v ∈ vs, v.Within p) → (∀ w ∈ ws, w.Within p) → print f vs = print f ws → vs = ws := by
  -- On the format. The first operand ends where the class does, so both texts have the same one;
  -- the rest is left to the induction hypothesis.
  induction f with
  | nil =>
    intro vs ws hvs hws _ _ _
    rw [List.isEmpty_iff.mp hvs, List.isEmpty_iff.mp hws]
  | cons i f ih =>
    intro vs ws hvs hws hv hw h
    cases i with
    -- Both texts start with the character.
    | char c => exact ih hf hvs hws hv hw (List.cons.inj h).2
    | str =>
      obtain ⟨hend, hsep⟩ := Bool.and_eq_true_iff.mp hf
      match vs, ws, hvs, hws with
      | .str s :: vs, .str t :: ws, hvs, hws =>
        obtain ⟨hst, hrest⟩ := append_inj_of_endsOperand (hv _ List.mem_cons_self)
          (hw _ List.mem_cons_self) (print_endsOperand hend vs) (print_endsOperand hend ws) h
        rw [String.toList_inj.mp hst, ih hsep hvs hws (fun v h => hv v (List.mem_cons_of_mem _ h))
          (fun w h => hw w (List.mem_cons_of_mem _ h)) hrest]
    | hex w =>
      obtain ⟨hend, hsep⟩ := Bool.and_eq_true_iff.mp hf
      match vs, ws, hvs, hws with
      | .num n :: vs, .num m :: ws, hvs, hws =>
        obtain ⟨hnm, hrest⟩ := append_inj_of_endsOperand (fun c h => hp c (lX_isAlphanum c h))
          (fun c h => hp c (lX_isAlphanum c h)) (print_endsOperand hend vs)
          (print_endsOperand hend ws) h
        rw [lX_inj hnm, ih hsep hvs hws (fun v h => hv v (List.mem_cons_of_mem _ h))
          (fun w h => hw w (List.mem_cons_of_mem _ h)) hrest]

/-- A conversion, rather than a character. -/
def Item.isConversion : Item → Bool
  | .char _ => false
  | _ => true

/-- Behind the same characters, with operands at the same places, the formats go on with different
characters, or one of them ends. -/
def Apart : List Item → List Item → Bool
  | .char c :: f, .char d :: g => c != d || Apart f g
  | .char _ :: _, [] => true
  | [], .char _ :: _ => true
  | i :: f, j :: g => i.isConversion && j.isConversion && Apart f g
  | _, _ => false

/-- A conversion prints an operand of the class. -/
theorem print_conversion (hp : ∀ c : Char, c.isAlphanum = true → p c = true) {i : Item}
    {f : List Item} {vs : List Value} (hi : i.isConversion = true) (hfits : Fits (i :: f) vs = true)
    (hv : ∀ v ∈ vs, v.Within p) :
    ∃ a vs', print (i :: f) vs = a ++ print f vs' ∧ (∀ c ∈ a, p c = true) ∧
      Fits f vs' = true ∧ ∀ v ∈ vs', v.Within p := by
  cases i with
  | char c => cases hi
  | str =>
    match vs, hfits with
    | .str s :: vs, hfits =>
      exact ⟨s.toList, vs, rfl, hv _ List.mem_cons_self, hfits,
        fun v h => hv v (List.mem_cons_of_mem _ h)⟩
  | hex w =>
    match vs, hfits with
    | .num n :: vs, hfits =>
      exact ⟨lX w n, vs, rfl, fun c h => hp c (lX_isAlphanum c h), hfits,
        fun v h => hv v (List.mem_cons_of_mem _ h)⟩

/-- **Telling formats apart.** -/
theorem print_ne_of_apart (hp : ∀ c : Char, c.isAlphanum = true → p c = true) {f : List Item} :
    ∀ {g : List Item} {vs ws : List Value}, Apart f g = true → Separated p f = true →
      Separated p g = true → Fits f vs = true → Fits g ws = true → (∀ v ∈ vs, v.Within p) →
      (∀ w ∈ ws, w.Within p) → print f vs ≠ print g ws := by
  induction f with
  | nil =>
    -- No format left: the other one has to go on with a character, which is not printed here.
    intro g vs ws h _ _ _ _ _ _ heq
    cases g with
    | nil => cases h
    | cons j g =>
      cases j with
      | char d => cases heq
      | str | hex => cases h
  | cons i f ih =>
    intro g vs ws h hf hg hvs hws hv hw heq
    -- Two conversions: the operands are equal, and so is the text behind them.
    have hconversion : ∀ {j : Item} {g : List Item}, i.isConversion = true →
        j.isConversion = true → Apart f g = true → (endsOperand p f && Separated p f) = true →
        (endsOperand p g && Separated p g) = true → Fits (j :: g) ws = true →
        print (i :: f) vs ≠ print (j :: g) ws := by
      intro j g hi hj h hf hg hws heq
      obtain ⟨a, vs', hprint, ha, hvs', hv'⟩ := print_conversion hp hi hvs hv
      obtain ⟨b, ws', hprint', hb, hws', hw'⟩ := print_conversion hp hj hws hw
      obtain ⟨hendf, hsepf⟩ := Bool.and_eq_true_iff.mp hf
      obtain ⟨hendg, hsepg⟩ := Bool.and_eq_true_iff.mp hg
      rw [hprint, hprint'] at heq
      obtain ⟨-, hrest⟩ := append_inj_of_endsOperand ha hb (print_endsOperand hendf vs')
        (print_endsOperand hendg ws') heq
      exact ih h hsepf hsepg hvs' hws' hv' hw' hrest
    cases g with
    | nil =>
      cases i with
      | char c => cases heq
      | str | hex => cases h
    | cons j g =>
      cases i with
      | char c =>
        -- Two characters: they differ, or the formats differ behind them.
        cases j with
        | char d =>
          obtain ⟨hcd, hrest⟩ := List.cons.inj heq
          rcases Bool.or_eq_true_iff.mp h with hne | h
          · exact (bne_iff_ne.mp hne) hcd
          · exact ih h hf hg hvs hws hv hw hrest
        -- A character against a conversion is not `Apart`.
        | str | hex => cases h
      | str | hex =>
        cases j with
        | char d => cases h
        | str | hex => exact hconversion rfl rfl h hf hg hws heq

end Operands

/-! ### Formats in sequence -/

/-- Formats in sequence. -/
theorem print_append {f : List Item} {vs : List Value} (h : Fits f vs = true) (g : List Item)
    (ws : List Value) : print (f ++ g) (vs ++ ws) = print f vs ++ print g ws := by
  -- On the first format, which takes its arguments from the front.
  induction f generalizing vs with
  | nil =>
    rw [List.isEmpty_iff.mp h]
    rfl
  | cons i f ih =>
    cases i with
    | char c => exact congrArg (c :: ·) (ih h)
    | str =>
      match vs, h with
      | .str s :: vs, h =>
        rw [List.cons_append, List.cons_append, print_str, print_str, ih h, List.append_assoc]
    | hex w =>
      match vs, h with
      | .num n :: vs, h =>
        rw [List.cons_append, List.cons_append, print_hex, print_hex, ih h, List.append_assoc]

/-- A number, rather than a string. -/
def Value.isNum : Value → Bool
  | .str _ => false
  | .num _ => true

/-- Whether arguments fit does not depend on their values. -/
theorem fits_congr (f : List Item) : ∀ {vs ws : List Value},
    vs.map Value.isNum = ws.map Value.isNum → Fits f vs = Fits f ws := by
  induction f with
  | nil =>
    intro vs ws h
    match vs, ws, h with
    | [], [], _ => rfl
    | _ :: _, _ :: _, _ => rfl
  | cons i f ih =>
    intro vs ws h
    cases i with
    | char c => exact ih h
    | str =>
      match vs, ws, h with
      -- An argument of the wrong kind fits neither time.
      | [], [], _ => rfl
      | .str _ :: vs, .str _ :: ws, h => exact ih (List.cons.inj h).2
      | .num _ :: vs, .num _ :: ws, h => rfl
    | hex w =>
      match vs, ws, h with
      | [], [], _ => rfl
      | .str _ :: vs, .str _ :: ws, h => rfl
      | .num _ :: vs, .num _ :: ws, h => exact ih (List.cons.inj h).2

end CPrintf
