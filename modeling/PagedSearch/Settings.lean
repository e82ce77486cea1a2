/-
  PagedSearch.Settings

  The settings that a pattern is read and a text is scanned under, and which
  characters take part in a search: blanks never do, hyphens do not when they
  are tolerated.
-/
import PagedSearch.Text.Blank
import PagedSearch.Text.Lowercase

namespace PagedSearch

/-- How a pattern is read: every character stands for itself, or the wildcard dialect with
    escapes, sets, the any-character and repetitions. -/
inductive Mode where
  | literal
  | wildcard
deriving DecidableEq, Repr, Inhabited

/-- Where a search goes. -/
inductive Direction where
  | forward
  | backward
deriving DecidableEq, Repr, Inhabited

/-- The settings of a search. -/
structure Settings where
  caseSensitive : Bool := false
  hyphenTolerant : Bool := false
  mode : Mode := .literal
  direction : Direction := .forward
deriving DecidableEq, Repr, Inhabited

/-- The hyphens that may break a word: hyphen-minus, soft hyphen, hyphen, non-breaking hyphen. -/
def isHyphen (c : Char) : Bool :=
  c == '-' || c == '\u00AD' || c == '\u2010' || c == '\u2011'

/-- True of the characters that take no part in a search. -/
def isInsignificant (skipHyphens : Bool) (c : Char) : Bool :=
  isBlank c || (skipHyphens && isHyphen c)

namespace Settings

/-- The same settings with another direction. -/
def turned (s : Settings) (d : Direction) : Settings := { s with direction := d }

/-- True of the characters that these settings skip. -/
def skips (s : Settings) (c : Char) : Bool := isInsignificant s.hyphenTolerant c

/-- Folds a character unless letter case counts. -/
def foldChar (s : Settings) (c : Char) : Char :=
  if s.caseSensitive then c else PagedSearch.foldChar c

/-- Folds a text unless letter case counts. -/
def fold (s : Settings) (t : Text) : Text :=
  if s.caseSensitive then t else PagedSearch.fold t

/-- A list in the order in which the direction meets its elements. -/
def inOrder {α : Type} (s : Settings) (l : List α) : List α :=
  match s.direction with
  | .forward => l
  | .backward => l.reverse

@[simp] theorem turned_direction (s : Settings) (d : Direction) :
    (s.turned d).direction = d := rfl

@[simp] theorem turned_turned (s : Settings) (d e : Direction) :
    (s.turned d).turned e = s.turned e := rfl

@[simp] theorem turned_self (s : Settings) : s.turned s.direction = s := rfl

theorem fold_eq_map (s : Settings) (t : Text) : s.fold t = t.map s.foldChar := by
  cases h : s.caseSensitive with
  | false => simp [fold, PagedSearch.fold, show s.foldChar = PagedSearch.foldChar by
      funext c; simp [foldChar, h], h]
  | true => simp [fold, show s.foldChar = id by funext c; simp [foldChar, h], h]

end Settings

end PagedSearch
