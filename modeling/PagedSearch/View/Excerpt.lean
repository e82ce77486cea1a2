/-
  PagedSearch.View.Excerpt

  A match on one line: the matched text between brackets and a number of
  characters in front of it and behind it, with three points where the page
  goes on. Positions are sums. Where they are words (`excerptIn`), a sum can be
  none, and then a slice of the line can end before it starts.
-/
import PagedSearch.Document
import PagedSearch.Match
import PagedSearch.Word

namespace PagedSearch

/-- The position of a point in the text of its page. -/
def flatPosition (fragments : List Text) (p : Point) : Nat :=
  (fragments.take p.fragment).flatten.length + p.offset

/-- The text of a page on one line: every blank is shown as a space. -/
def flatLine (fragments : List Text) : Text :=
  fragments.flatten.map fun c => if isBlank c then ' ' else c

/-- The characters of a text from one position up to another. -/
def slice (t : Text) (start stop : Nat) : Text := (t.take stop).drop start

/-- The mark of text that is left out. -/
def ellipsis : Text := "...".toList

/-- Shows positions `start` up to `stop` of a line, with up to `context` characters on either
    side. Positions behind the line count as its end. -/
def excerptOf (line : Text) (start stop context : Nat) : Text :=
  let stop := min stop line.length
  let start := min start stop
  let left := start - context
  let right := min (stop + context) line.length
  (if 0 < left then ellipsis else []) ++ slice line left start ++
    '[' :: slice line start stop ++ ']' :: slice line stop right ++
    (if right < line.length then ellipsis else [])

/-- Shows a match with up to `context` characters on either side. -/
def excerpt (d : Document) (m : Match) (context : Nat) : Text :=
  let fragments := d.fragments m.page
  excerptOf (flatLine fragments) (flatPosition fragments m.first)
    (flatPosition fragments m.last + 1) context

/-! ## Positions that are words -/

/-- The characters of a text from one position up to another, if these positions are in order and
    the text reaches as far. -/
def sliceIn (t : Text) (start stop : Nat) : Except Fault Text :=
  if stop < start then .error (.order start stop)
  else if t.length < stop then .error (.range stop t.length)
  else .ok (slice t start stop)

/-- The position of a point in the text of its page, as a sum of words. -/
def flatPositionIn (a : Arithmetic) (fragments : List Text) (p : Point) : Except Fault Nat := do
  let front ← a.sum ((fragments.take p.fragment).map List.length)
  a.add front p.offset

/-- Shows positions of a line as `excerptOf` does, where positions are words. -/
def excerptOfIn (a : Arithmetic) (line : Text) (start stop context : Nat) : Except Fault Text := do
  let stop := min stop line.length
  let start := min start stop
  let left := start - context
  let reach ← a.add stop context
  let right := min reach line.length
  let front ← sliceIn line left start
  let shown ← sliceIn line start stop
  let behind ← sliceIn line stop right
  return (if 0 < left then ellipsis else []) ++ front ++ '[' :: shown ++ ']' :: behind ++
    (if right < line.length then ellipsis else [])

/-- Shows a match as `excerpt` does, where positions are words. -/
def excerptIn (a : Arithmetic) (d : Document) (m : Match) (context : Nat) : Except Fault Text := do
  let fragments := d.fragments m.page
  let start ← flatPositionIn a fragments m.first
  let last ← flatPositionIn a fragments m.last
  let stop ← a.add last 1
  excerptOfIn a (flatLine fragments) start stop context

end PagedSearch
