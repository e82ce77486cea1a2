/-
  PagedSearch.Document.PlainText

  Documents as plain text. A form feed separates two pages. A page is cut
  into fragments in front of each word, so that the blanks behind a word
  belong to its fragment (`cutWords`); `flatten_cutWords` says that cutting
  loses nothing.
-/
import PagedSearch.Document
import PagedSearch.Text.Line

namespace PagedSearch

/-- The character between two pages. -/
def formFeed : Char := '\x0c'

/-- Cuts a text wherever a blank is followed by another character than a blank. -/
def cutWords : Text → List Text
  | [] => []
  | [c] => [[c]]
  | c :: d :: t =>
    if isBlank c && !isBlank d then [c] :: cutWords (d :: t) else consFirst c (cutWords (d :: t))

@[simp] theorem flatten_cutWords (t : Text) : (cutWords t).flatten = t := by
  fun_induction cutWords t with
  | case1 => rfl
  | case2 => rfl
  | case3 c d t _ ih => simp [ih]
  | case4 c d t _ ih => simp [ih]

namespace Document

/-- Reads a document from plain text. -/
def ofPlainText (t : Text) : Document :=
  ⟨(splitAtAll (· == formFeed) t).map fun page => ⟨cutWords page⟩⟩

/-- Writes a document as plain text. -/
def toPlainText (d : Document) : Text := joinWith [formFeed] (d.pages.map Page.text)

end Document

end PagedSearch
