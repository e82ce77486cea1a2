/-
  PagedSearch.Document

  A document is a list of pages, a page a list of fragments. What does not
  exist is empty: a page behind the last one has no fragments.
-/
import PagedSearch.Settings

namespace PagedSearch

/-- A page, cut into fragments. -/
structure Page where
  fragments : List Text := []
deriving DecidableEq, Repr, Inhabited

/-- The text of a page without its cuts. -/
def Page.text (p : Page) : Text := p.fragments.flatten

/-- A paged text. -/
structure Document where
  pages : List Page := []
deriving DecidableEq, Repr, Inhabited

namespace Document

/-- The document with these fragments on its pages. -/
def ofFragments (pages : List (List Text)) : Document := ⟨pages.map Page.mk⟩

/-- How many pages a document has. -/
def pageCount (d : Document) : Nat := d.pages.length

/-- The fragments of a page. -/
def fragments (d : Document) (page : Nat) : List Text :=
  match d.pages[page]? with
  | some p => p.fragments
  | none => []

/-- The text of a page, if the page exists. -/
def pageText? (d : Document) (page : Nat) : Option Text := d.pages[page]?.map Page.text

/-- The page that follows in a direction, around the ends of the document. -/
def adjacent (d : Document) (page : Nat) (dir : Direction) : Nat :=
  if d.pageCount = 0 then 0
  else match dir with
    | .forward => (page + 1) % d.pageCount
    | .backward => if page = 0 ∨ d.pageCount ≤ page then d.pageCount - 1 else page - 1

end Document

end PagedSearch
