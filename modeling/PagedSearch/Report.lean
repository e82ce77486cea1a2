/-
  PagedSearch.Report

  What a program leaves behind: its status, what it printed, what it
  complained about and the files. A program that fails complains in one
  report of what failed and of the causes, the nearest one first.
-/
import PagedSearch.Document.Storage
import PagedSearch.Text.Numeral

namespace PagedSearch

/-! ## Failures -/

/-- What failed and why. -/
structure Failure where
  failed : Text
  /-- The causes, the nearest one first. -/
  causes : List Text := []
deriving DecidableEq, Repr

namespace Failure

/-- A text whose further lines are indented. -/
def indented (margin : Text) (t : Text) : Text :=
  joinWith ('\n' :: margin) (splitAtAll (· == '\n') t)

/-- The spaces in front of a cause that stands alone. -/
def margin : Text := List.replicate 4 ' '

/-- The number of a cause among several, right-aligned to five places. -/
def numberedMargin (number : Nat) : Text :=
  List.replicate (5 - (numeral number).length) ' ' ++ numeral number ++ [':', ' ']

/-- Shows the causes; they are numbered from zero if there are several. -/
def showCauses (causes : List Text) : Text :=
  match causes with
  | [cause] => margin ++ indented margin cause ++ ['\n']
  | _ => (causes.zipIdx).flatMap fun (cause, number) =>
    numberedMargin number ++ indented (List.replicate 7 ' ') cause ++ ['\n']

/-- The report of a failure. -/
def report (f : Failure) : Text :=
  "Error: ".toList ++ f.failed ++ ['\n'] ++
    (if f.causes.isEmpty then [] else "\nCaused by:\n".toList ++ showCauses f.causes)

/-- The failure of something that was done with a document. -/
def ofDocumentError (failed : Text) (e : DocumentError) : Failure :=
  ⟨failed, [e.message.toList, e.cause.toList]⟩

end Failure

/-! ## Runs -/

/-- The name and the version of the programs. -/
def programVersion : String := "pagescan 0.1.0"

/-- What a program leaves behind. -/
structure Run where
  status : Nat := 0
  printed : Text := []
  complaint : Text := []
  files : FileTree

/-- A program that ends with a failure. -/
def Run.failed (files : FileTree) (f : Failure) : Run :=
  { status := 1, complaint := f.report, files := files }

end PagedSearch
