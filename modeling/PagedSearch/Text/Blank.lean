/-
  PagedSearch.Text.Blank

  Blank characters: the property `White_Space` of Unicode. `trim` cuts them
  off at both ends of a text.
-/
import PagedSearch.Text.Basic

namespace PagedSearch

/-- The first and last code point of each run of blank characters. -/
def blankRuns : List (Nat × Nat) :=
  [(0x09, 0x0D), (0x20, 0x20), (0x85, 0x85), (0xA0, 0xA0), (0x1680, 0x1680), (0x2000, 0x200A),
   (0x2028, 0x2029), (0x202F, 0x202F), (0x205F, 0x205F), (0x3000, 0x3000)]

/-- True of the 25 blank characters of Unicode. -/
def isBlank (c : Char) : Bool :=
  blankRuns.any fun (first, last) => first ≤ c.toNat && c.toNat ≤ last

/-- A text without the blanks in front. -/
def trimLeft (t : Text) : Text := t.dropWhile isBlank

/-- A text without the blanks behind. -/
def trimRight (t : Text) : Text := (trimLeft t.reverse).reverse

/-- A text without the blanks at its ends. -/
def trim (t : Text) : Text := trimRight (trimLeft t)

@[simp] theorem trim_nil : trim [] = [] := rfl

end PagedSearch
