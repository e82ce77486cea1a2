/-
  PagedSearch.Files.Path

  Paths of files: parts between slashes. A part is a name, or one of two
  marks, `.` for the folder that is meant so far and `..` for the folder
  around it; empty parts mean nothing but that a folder is meant so far.
-/
import PagedSearch.Text.Line

namespace PagedSearch

/-- A path as a user writes it. -/
abbrev Path := Text

namespace Path

/-- The parts of a path. -/
def parts (path : Path) : List Text := splitAtAll (· == '/') path

/-- The mark of the folder that is meant so far. -/
def hereMark : Text := ['.']

/-- The mark of the folder around the one that is meant so far. -/
def aboveMark : Text := ['.', '.']

/-- The last name of a path, if it ends in one. -/
def name? (path : Path) : Option Text :=
  match path.parts.reverse.find? (fun part => !part.isEmpty && part != hereMark) with
  | some part => if part = aboveMark then none else some part
  | none => none

/-- What stands behind the last point of the last name. A point in front of a name does not
    count. -/
def extension? (path : Path) : Option Text :=
  match path.name? with
  | none => none
  | some name =>
    match cutAt? (· == '.') name.reverse with
    | some (behind, before) => if before.isEmpty then none else some behind.reverse
    | none => none

/-- Puts another path behind a folder. -/
def join (folder path : Path) : Path :=
  if folder.isEmpty ∨ folder.getLast? = some '/' then folder ++ path
  else folder ++ '/' :: path

/-- The folder of a path that is written with a name at its end. -/
def folder (path : Path) : Path :=
  match path.parts.dropLast with
  | [] => []
  | parts => joinWith ['/'] parts

end Path

end PagedSearch
