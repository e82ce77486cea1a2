/-
  PagedSearch.Json.Fault

  Why a text cannot be read as JSON of the shape asked for, and the blanks
  between the parts of a JSON text.
-/
import PagedSearch.Text.Basic

namespace PagedSearch

/-- Why a text cannot be read as JSON of the shape asked for. -/
inductive JsonFault where
  /-- The text is no JSON. -/
  | malformed
  /-- The text ends before the value does. -/
  | truncated
  /-- A value of another shape, or a field given twice. -/
  | mismatched
deriving DecidableEq, Repr

/-- The four blanks of JSON. -/
def isJsonBlank (c : Char) : Bool := c == ' ' || c == '\n' || c == '\t' || c == '\r'

/-- A text from its first character that is no JSON blank. -/
def skipBlanks (t : Text) : Text := t.dropWhile isJsonBlank

theorem skipBlanks_length_le (t : Text) : (skipBlanks t).length ≤ t.length :=
  (List.dropWhile_suffix _).length_le

end PagedSearch
