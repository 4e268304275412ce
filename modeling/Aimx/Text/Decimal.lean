import Aimx.Text.Str
import Mathlib.Algebra.Group.Nat.Defs

/-!
# Decimal numbers in text

Numbers as the source prints and parses them: `decimal` is the output of `format!` on an unsigned
number, and `parseUsize` is `str::parse::<usize>` on a 64-bit host.

* `parseUsize_decimal` — a printed number that fits a machine word is read back;
* `isDigit_of_mem_decimal`, `isWhitespace_of_isDigit` — what a printed number consists of.
-/

namespace Aimx
namespace Text

/-- A number in decimal. -/
def decimal (n : Nat) : Str := Nat.toDigits 10 n

/-- A text without the plus sign that may stand in front of a number. -/
def stripPlus : Str → Str
  | '+' :: rest => rest
  | s => s

/-- `str::parse::<usize>`: digits, possibly after a plus sign, whose value fits 64 bits. -/
def parseUsize (s : Str) : Option Nat :=
  let digits := stripPlus s
  if digits ≠ [] ∧ digits.all Char.isDigit = true ∧ Nat.ofDigitChars 10 digits 0 < 2 ^ 64 then
    some (Nat.ofDigitChars 10 digits 0)
  else none

theorem decimal_ne_nil (n : Nat) : decimal n ≠ [] := Nat.toDigits_ne_nil

theorem decimal_injective : Function.Injective decimal := by
  intro j k h
  have hvalue := congrArg (fun digits => Nat.ofDigitChars 10 digits 0) h
  simpa only [decimal, Nat.ofDigitChars_ten_toDigits] using hvalue

theorem isDigit_of_mem_decimal {n : Nat} {c : Char} (h : c ∈ decimal n) : c.isDigit = true :=
  Nat.isDigit_of_mem_toDigits (by omega) (by omega) h

/-- A digit is no white space. -/
theorem isWhitespace_of_isDigit {c : Char} (h : c.isDigit = true) : isWhitespace c = false := by
  simp only [Char.isDigit, Bool.and_eq_true, decide_eq_true_eq] at h
  have hlow : 48 ≤ c.toNat := UInt32.le_iff_toNat_le.mp h.1
  have hhigh : c.toNat ≤ 57 := UInt32.le_iff_toNat_le.mp h.2
  simp only [isWhitespace, Bool.or_eq_false_iff, Bool.and_eq_false_iff, decide_eq_false_iff_not,
    beq_eq_false_iff_ne]
  omega

/-- A printed number is read back if it fits a machine word, and not at all otherwise. -/
theorem parseUsize_decimal_eq (n : Nat) :
    parseUsize (decimal n) = if n < 2 ^ 64 then some n else none := by
  have hdigits : (decimal n).all Char.isDigit = true :=
    List.all_eq_true.mpr fun c hc => isDigit_of_mem_decimal hc
  have hvalue : Nat.ofDigitChars 10 (decimal n) 0 = n := Nat.ofDigitChars_ten_toDigits
  have hplus : stripPlus (decimal n) = decimal n := by
    unfold stripPlus
    split
    next rest heq =>
        -- a plus sign is not a digit
        rw [heq] at hdigits
        simp [Char.isDigit] at hdigits
    next => rfl
  unfold parseUsize
  dsimp only
  rw [hplus, hvalue]
  by_cases h : n < 2 ^ 64
  · rw [if_pos ⟨decimal_ne_nil n, hdigits, h⟩, if_pos h]
  · rw [if_neg fun hall => h hall.2.2, if_neg h]

theorem parseUsize_decimal {n : Nat} (h : n < 2 ^ 64) : parseUsize (decimal n) = some n := by
  rw [parseUsize_decimal_eq, if_pos h]

end Text
end Aimx
