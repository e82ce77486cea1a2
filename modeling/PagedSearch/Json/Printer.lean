/-
  PagedSearch.Json.Printer

  Writing JSON over several lines. Each value inside a list or an object
  stands on a line of its own, indented by two spaces for each level; an
  empty list is written on one line.
-/
import PagedSearch.Text.Line

namespace PagedSearch

/-- Writes a value that stands at a level of indentation. -/
abbrev JsonPrinter (α : Type) := Nat → α → Text

namespace JsonPrinter

variable {α : Type}

/-- A line break and the indentation of a level. -/
def newLine (level : Nat) : Text := '\n' :: List.replicate (2 * level) ' '

/-- A lower-case hexadecimal digit. -/
def hexDigit (n : Nat) : Char := Nat.digitChar n

/-- How a string shows a character: a quotation mark, a backslash and the control characters
    below the space are escaped. -/
def escape (c : Char) : Text :=
  if c = '"' then ['\\', '"']
  else if c = '\\' then ['\\', '\\']
  else if c = '\x08' then ['\\', 'b']
  else if c = '\t' then ['\\', 't']
  else if c = '\n' then ['\\', 'n']
  else if c = '\x0c' then ['\\', 'f']
  else if c = '\r' then ['\\', 'r']
  else if c.toNat < 0x20 then
    ['\\', 'u', '0', '0', hexDigit (c.toNat / 16), hexDigit (c.toNat % 16)]
  else [c]

/-- A string between quotation marks. -/
def quote (t : Text) : Text := '"' :: t.flatMap escape ++ ['"']

/-- The printer of strings. -/
def text : JsonPrinter Text := fun _ t => quote t

/-- The printer of lists. -/
def listOf (item : JsonPrinter α) : JsonPrinter (List α) := fun level l =>
  if l.isEmpty then ['[', ']']
  else
    ['['] ++ newLine (level + 1) ++
      joinWith (',' :: newLine (level + 1)) (l.map (item (level + 1))) ++
      newLine level ++ [']']

/-- The printer of records with the one field `name`. -/
def record (name : Text) (field : JsonPrinter α) : JsonPrinter α := fun level a =>
  ['\x7b'] ++ newLine (level + 1) ++ quote name ++ [':', ' '] ++ field (level + 1) a ++
    newLine level ++ ['\x7d']

end JsonPrinter

end PagedSearch
