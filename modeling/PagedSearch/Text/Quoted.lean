/-
  PagedSearch.Text.Quoted

  Quoted texts in messages. A quotation mark and a backslash follow a
  backslash; tab, line feed, carriage return and the null character have
  letters of their own; the other characters of `isEscaped` are shown by
  their hexadecimal code point between braces.
-/
import PagedSearch.Text.Escaped

namespace PagedSearch

/-- The lower-case hexadecimal numeral of a number. -/
def hexadecimal (n : Nat) : Text := Nat.toDigits 16 n

/-- How a quoted text shows a character. -/
def quotedChar (c : Char) : Text :=
  if c = '"' then ['\\', '"']
  else if c = '\\' then ['\\', '\\']
  else if c = '\x00' then ['\\', '0']
  else if c = '\t' then ['\\', 't']
  else if c = '\n' then ['\\', 'n']
  else if c = '\r' then ['\\', 'r']
  else if isEscaped c then ['\\', 'u', '\x7b'] ++ hexadecimal c.toNat ++ ['\x7d']
  else [c]

/-- A text between quotation marks. -/
def quoted (t : Text) : Text := '"' :: t.flatMap quotedChar ++ ['"']

end PagedSearch
