/-
  PagedSearch.View.Highlight

  A page with its matches marked: the current match stands between braces,
  every other one between brackets. Where one match ends and the next one
  begins, one mark is closed and another one opened.
-/
import PagedSearch.Document
import PagedSearch.Results

namespace PagedSearch

/-- How a match is marked. -/
inductive Mark where
  | current
  | other
deriving DecidableEq, Repr

/-- The character in front of a marked match. -/
def Mark.opening : Mark → Char
  | .current => '\x7b'
  | .other => '['

/-- The character behind a marked match. -/
def Mark.closing : Mark → Char
  | .current => '\x7d'
  | .other => ']'

/-- The mark of a point, if a match contains it. -/
def Results.markAt? (r : Results) (page : Nat) (p : Point) : Option Mark :=
  if r.isCurrent page p then some .current
  else if r.isAny page p then some .other
  else none

/-- The characters of a page with their points. -/
def pointedChars (fragments : List Text) : List (Char × Point) :=
  fragments.zipIdx.flatMap fun (t, fragment) =>
    t.zipIdx.map fun (c, offset) => (c, ⟨fragment, offset⟩)

/-- Writes characters between marks. `opened` is the mark that the last character was written
    under; it goes on unless the mark changes or a match begins. -/
def writeMarked (markAt? : Point → Option Mark) (isStart : Point → Bool) (opened : Option Mark) :
    List (Char × Point) → Text
  | [] => opened.toList.map Mark.closing
  | (c, p) :: rest =>
    let mark := markAt? p
    if mark = opened && !isStart p then c :: writeMarked markAt? isStart mark rest
    else
      opened.toList.map Mark.closing ++ mark.toList.map Mark.opening ++
        c :: writeMarked markAt? isStart mark rest

/-- The text of a page with its matches marked. -/
def highlightPage (d : Document) (r : Results) (page : Nat) : Text :=
  let starts := (r.onPage page).map Match.first
  writeMarked (r.markAt? page) starts.contains none (pointedChars (d.fragments page))

end PagedSearch
