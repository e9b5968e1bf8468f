import Mathlib.Data.List.Basic
import Mathlib.Tactic.Common

/-!
# Decimal digits of a character table

The characters a regular expression takes for digits, with their values.  Of the table
only the ASCII part is assumed; Unicode has decimal digits of other scripts as well.

## Main definitions

* `DecimalDigits` — the table.
* `DecimalDigits.number` — the number a row of digits denotes.

## Main results

* `DecimalDigits.number_toDigits` — the decimal text of a number denotes it.
-/

/-- A table of decimal digits: which characters are digits, and with which value. Only its ASCII
part is known; the rest is that of the Unicode version at hand. -/
structure DecimalDigits where
  value : Char → Option ℕ
  value_ascii : ∀ c, c.toNat < 128 → value c = if c.isDigit then some (c.toNat - 48) else none

namespace DecimalDigits

/-- The digits of ASCII alone. -/
def asciiOnly : DecimalDigits where
  value c := if c.isDigit then some (c.toNat - 48) else none
  value_ascii _ _ := rfl

variable (digits : DecimalDigits)

/-- The table has the character. -/
def isDecimal (c : Char) : Bool := (digits.value c).isSome

/-- The number a row of digits denotes. -/
def number (cs : List Char) : ℕ := cs.foldl (fun n c => 10 * n + (digits.value c).getD 0) 0

theorem toNat_lt_of_isDigit {c : Char} (h : c.isDigit = true) : c.toNat < 128 := by
  have hle : c.toNat ≤ 57 := (Char.isDigit_iff_toNat.mp h).2
  omega

theorem value_of_isDigit {c : Char} (h : c.isDigit = true) :
    digits.value c = some (c.toNat - 48) := by
  rw [digits.value_ascii c (toNat_lt_of_isDigit h), if_pos h]

theorem isDecimal_of_isDigit {c : Char} (h : c.isDigit = true) : digits.isDecimal c = true := by
  unfold isDecimal
  rw [digits.value_of_isDigit h]
  rfl

theorem isDecimal_asciiOnly (c : Char) : asciiOnly.isDecimal c = c.isDigit := by
  show (if c.isDigit then some (c.toNat - 48) else none).isSome = c.isDigit
  cases c.isDigit <;> rfl

/-- An ASCII character that is no digit is none of the table's. -/
theorem isDecimal_eq_false {c : Char} (hascii : c.toNat < 128) (h : c.isDigit = false) :
    digits.isDecimal c = false := by
  unfold isDecimal
  rw [digits.value_ascii c hascii, h]
  rfl

/-- Reading the decimal text of a number gives the number back, in every table: its digits are
ASCII, and these all tables agree on. -/
theorem number_toDigits (n : ℕ) : digits.number (Nat.toDigits 10 n) = n := by
  have hfold : ∀ (cs : List Char) (start : ℕ), (∀ c ∈ cs, c.isDigit = true) →
      cs.foldl (fun n c => 10 * n + (digits.value c).getD 0) start =
        Nat.ofDigitChars 10 cs start := by
    intro cs
    induction cs with
    | nil => intro start _; rfl
    | cons c cs ih =>
      intro start hdigits
      rw [List.foldl_cons, Nat.ofDigitChars_cons,
        digits.value_of_isDigit (hdigits c (List.mem_cons_self ..)),
        ih _ fun d hd => hdigits d (List.mem_cons_of_mem _ hd)]
      rfl
  unfold number
  rw [hfold _ 0 fun c hc => Nat.isDigit_of_mem_toDigits (by decide) (by decide) hc,
    Nat.ofDigitChars_ten_toDigits]

end DecimalDigits
