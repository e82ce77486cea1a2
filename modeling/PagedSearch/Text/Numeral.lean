/-
  PagedSearch.Text.Numeral

  Decimal numerals of machine words: ASCII digits, a plus sign allowed in
  front, and a value that fits into 64 bits.
-/
import PagedSearch.Text.Basic
import PagedSearch.Word

namespace PagedSearch

/-- The value of a decimal digit. -/
def digitValue? (c : Char) : Option Nat :=
  if '0' ≤ c ∧ c ≤ '9' then some (c.toNat - '0'.toNat) else none

/-- The value of `n` followed by the digits of a text. -/
def readDigits? (n : Nat) : Text → Option Nat
  | [] => some n
  | c :: t => match digitValue? c with
    | some d => readDigits? (10 * n + d) t
    | none => none

/-- The word that a numeral stands for. -/
def readWord? (t : Text) : Option Nat :=
  let digits := match t with
    | '+' :: rest => rest
    | _ => t
  if digits.isEmpty then none
  else (readDigits? 0 digits).filter (· < wordBound)

/-- The decimal numeral of a number. -/
def numeral (n : Nat) : Text := (toString n).toList

end PagedSearch
