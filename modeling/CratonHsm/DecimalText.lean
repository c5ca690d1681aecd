import CratonHsm.PrefixFreeCode

/-!
# Numbers in decimal

The digits of a number as the bytes of a text, and the parser for unsigned numbers of bounded
size: an optional plus sign and decimal digits.  What is printed is parsed back
(`parse_print`, `parseText_toDigits`).
-/

namespace DecimalText
open PrefixFreeCode List

/-- The byte is a decimal digit. -/
def isDigit (b : UInt8) : Bool := 0x30 ≤ b && b ≤ 0x39

/-- The number that a row of digits stands for. -/
def value (digits : Bytes) : Nat := digits.foldl (fun v b => 10 * v + (b.toNat - 0x30)) 0

/-- The parser of a text as a number below the bound. -/
def parse (bound : Nat) (text : Bytes) : Option Nat :=
  let digits := if text.head? = some 0x2b then text.tail else text
  if digits ≠ [] ∧ digits.all isDigit then
    if value digits < bound then some (value digits) else none
  else none

/-- The digits of a number. -/
def print (n : Nat) : Bytes := (Nat.toDigits 10 n).map fun c => UInt8.ofNat c.toNat

theorem print_ne_nil (n : Nat) : print n ≠ [] := by
  simp [print, Nat.toDigits_ne_nil]

theorem range_of_mem_toDigits {n : Nat} {c : Char} (h : c ∈ Nat.toDigits 10 n) :
    48 ≤ c.toNat ∧ c.toNat ≤ 57 := by
  have hdigit := Nat.isDigit_of_mem_toDigits (by decide) (by decide) h
  simp only [Char.isDigit, Bool.and_eq_true, decide_eq_true_eq, ge_iff_le,
    UInt32.le_iff_toNat_le] at hdigit
  exact hdigit

theorem digit_of_char {c : Char} (hrange : 48 ≤ c.toNat ∧ c.toNat ≤ 57) :
    isDigit (UInt8.ofNat c.toNat) = true ∧ (UInt8.ofNat c.toNat).toNat = c.toNat := by
  have hmod : c.toNat % 256 = c.toNat := Nat.mod_eq_of_lt (by omega)
  simp only [isDigit, UInt8.le_iff_toNat_le, UInt8.toNat_ofNat', Nat.reducePow, hmod,
    Bool.and_eq_true, decide_eq_true_eq, and_true]
  exact hrange

theorem isDigit_of_mem_print {n : Nat} {b : UInt8} (h : b ∈ print n) : isDigit b = true := by
  obtain ⟨c, hc, rfl⟩ := mem_map.mp h
  exact (digit_of_char (range_of_mem_toDigits hc)).1

theorem value_print (n : Nat) : value (print n) = n := by
  have hdigits : ∀ cs : List Char, (∀ c ∈ cs, 48 ≤ c.toNat ∧ c.toNat ≤ 57) → ∀ v,
      (cs.map fun c => UInt8.ofNat c.toNat).foldl (fun v b => 10 * v + (b.toNat - 0x30)) v =
        Nat.ofDigitChars 10 cs v := by
    intro cs
    induction cs with
    | nil => intros; rfl
    | cons c cs ih =>
      intro hcs v
      rw [map_cons, foldl_cons, Nat.ofDigitChars_cons,
        (digit_of_char (hcs c mem_cons_self)).2]
      exact ih (fun d hd => hcs d (mem_cons_of_mem _ hd)) _
  rw [value, print, hdigits _ fun c hc => range_of_mem_toDigits hc]
  exact Nat.ofDigitChars_toDigits (by decide) (by decide)

theorem parse_of_digits {bound : Nat} {digits : Bytes} (hne : digits ≠ [])
    (hdigits : ∀ b ∈ digits, isDigit b = true) (hbound : value digits < bound) :
    parse bound digits = some (value digits) := by
  have hplus : digits.head? ≠ some 0x2b := by
    intro hhead
    have hplus := hdigits _ (mem_of_mem_head? hhead)
    revert hplus
    decide
  simp only [parse, if_neg hplus]
  rw [if_pos ⟨hne, all_eq_true.mpr hdigits⟩, if_pos hbound]

/-- **A printed number is parsed back.** -/
theorem parse_print {bound n : Nat} (h : n < bound) : parse bound (print n) = some n := by
  have hvalue := value_print n
  rw [parse_of_digits (print_ne_nil n) (fun b hb => isDigit_of_mem_print hb) (by omega), hvalue]

theorem parse_print_of_le {bound n : Nat} (h : bound ≤ n) : parse bound (print n) = none := by
  have hplus : (print n).head? ≠ some 0x2b := by
    intro hhead
    have hplus := isDigit_of_mem_print (mem_of_mem_head? hhead)
    revert hplus
    decide
  simp only [parse, if_neg hplus, value_print]
  rw [if_neg (Nat.not_lt.mpr h), ite_self]

/-- The parser on a text. -/
def parseText (bound : Nat) (text : List Char) : Option Nat :=
  parse bound (text.flatMap String.utf8EncodeChar)

theorem utf8_of_ascii {cs : List Char} (h : ∀ c ∈ cs, c.toNat < 128) :
    cs.flatMap String.utf8EncodeChar = cs.map fun c => UInt8.ofNat c.toNat := by
  induction cs with
  | nil => rfl
  | cons c cs ih =>
    have hascii : c.val.toNat ≤ 127 := Nat.le_of_lt_succ (h c mem_cons_self)
    have hone : String.utf8EncodeChar c = [UInt8.ofNat c.toNat] := if_pos hascii
    rw [flatMap_cons, map_cons, ih fun d hd => h d (mem_cons_of_mem _ hd), hone,
      singleton_append]

/-- **A number written into a text is parsed back.** -/
theorem parseText_toDigits (bound n : Nat) :
    parseText bound (Nat.toDigits 10 n) = if n < bound then some n else none := by
  have hdigits : (Nat.toDigits 10 n).flatMap String.utf8EncodeChar = print n :=
    utf8_of_ascii fun c hc => Nat.lt_of_le_of_lt (range_of_mem_toDigits hc).2 (by decide)
  rw [parseText, hdigits]
  by_cases h : n < bound
  · rw [if_pos h, parse_print h]
  · rw [if_neg h, parse_print_of_le (Nat.not_lt.mp h)]

end DecimalText
