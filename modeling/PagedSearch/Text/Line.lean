/-
  PagedSearch.Text.Line

  Cutting texts: into lines, at a character, at the first place where
  another text stands.

  `lines` ends a line at a line feed, with the carriage return in front of it
  if there is one; a text that ends in a line feed has no further line.
-/
import PagedSearch.Text.Blank

namespace PagedSearch

/-! ## Cutting at a character -/

/-- Puts a character in front of the first of some texts. -/
def consFirst (c : Char) : List Text → List Text
  | [] => [[c]]
  | t :: rest => (c :: t) :: rest

@[simp] theorem consFirst_ne_nil (c : Char) (l : List Text) : consFirst c l ≠ [] := by
  cases l <;> simp [consFirst]

@[simp] theorem flatten_consFirst (c : Char) (l : List Text) :
    (consFirst c l).flatten = c :: l.flatten := by
  cases l <;> simp [consFirst]

/-- The pieces between the characters that `p` holds of; one piece more than there are such
    characters. -/
def splitAtAll (p : Char → Bool) : Text → List Text
  | [] => [[]]
  | c :: t =>
    if p c then [] :: splitAtAll p t else consFirst c (splitAtAll p t)

/-- What stands before and behind the first character that `p` holds of. -/
def cutAt? (p : Char → Bool) (t : Text) : Option (Text × Text) :=
  match t.dropWhile (fun c => !p c) with
  | [] => none
  | _ :: behind => some (t.takeWhile (fun c => !p c), behind)

/-- What stands before and behind the first occurrence of `mark`. -/
def cutAtText? (mark : Text) : Text → Option (Text × Text)
  | [] => if mark.isEmpty then some ([], []) else none
  | c :: t =>
    if mark.isPrefixOf (c :: t) then some ([], (c :: t).drop mark.length)
    else (cutAtText? mark t).map fun (before, behind) => (c :: before, behind)

theorem splitAtAll_ne_nil (p : Char → Bool) (t : Text) : splitAtAll p t ≠ [] := by
  cases t with
  | nil => simp [splitAtAll]
  | cons c t =>
    simp only [splitAtAll]
    split <;> simp

/-! ## Lines -/

/-- A line without the carriage return at its end. -/
def dropReturn (line : Text) : Text :=
  if line.getLast? = some '\r' then line.dropLast else line

/-- The lines of a text. -/
def lines (t : Text) : List Text :=
  let pieces := splitAtAll (· == '\n') t
  match pieces.getLast? with
  | some [] => pieces.dropLast.map dropReturn
  | some last => pieces.dropLast.map dropReturn ++ [last]
  | none => []

@[simp] theorem lines_nil : lines [] = [] := rfl

/-- A line that is printed on its own. -/
def printedLine (s : String) : Text := s.toList ++ ['\n']

/-! ## Letters -/

/-- Lower-cases the ASCII letters of a text. -/
def lowerAscii (t : Text) : Text := t.map Char.toLower

@[simp] theorem lowerAscii_nil : lowerAscii [] = [] := rfl

/-- True of texts that are one of some names. -/
def isOneOf (names : List String) (t : Text) : Bool := names.any fun name => name.toList == t

/-- True of texts that are one of some names but for the case of ASCII letters. -/
def isOneOfAscii (names : List String) (t : Text) : Bool :=
  names.any fun name => lowerAscii name.toList == lowerAscii t

/-- Texts put one behind the other with `mark` in between. -/
def joinWith (mark : Text) : List Text → Text
  | [] => []
  | [t] => t
  | t :: rest => t ++ mark ++ joinWith mark rest

end PagedSearch
