/-
  PagedSearch.Session.Stretch

  What of a page a search reads, and in which order. A search that goes on
  from a point reads what lies behind it in its direction: forward the rest
  of the fragment and the fragments behind, backward the start of the
  fragment and the fragments in front. A scanner is fed these stretches one
  after the other, as long as the stop flag is down (`seek`, `gather`), and
  the places that it reports are taken back to the page (`pointIn`).
-/
import PagedSearch.Document
import PagedSearch.Match
import PagedSearch.Scanner

namespace PagedSearch

/-- A part of a fragment: the index of the fragment, the offset of the part's first character,
    and its text. -/
structure Stretch where
  fragment : Nat
  base : Nat
  text : Text
deriving DecidableEq, Repr

namespace Stretch

/-- What a forward search reads of fragment `i` when it goes on behind a point. -/
def behind? (p : Point) (i : Nat) (t : Text) : Option Stretch :=
  if i < p.fragment then none
  else if i = p.fragment then some ⟨i, p.offset + 1, t.drop (p.offset + 1)⟩
  else some ⟨i, 0, t⟩

/-- What a backward search reads of fragment `i` when it goes on in front of a point. -/
def before? (p : Point) (i : Nat) (t : Text) : Option Stretch :=
  if p.fragment < i then none
  else if i = p.fragment then some ⟨i, 0, t.take p.offset⟩
  else some ⟨i, 0, t⟩

end Stretch

/-- The stretches of a page that a search reads, in the order of reading; `resume` is the point
    that it goes on from. -/
def stretches (dir : Direction) (resume : Option Point) (fragments : List Text) : List Stretch :=
  match dir, resume with
  | .forward, none => fragments.zipIdx.map fun (t, i) => ⟨i, 0, t⟩
  | .forward, some p => fragments.zipIdx.filterMap fun (t, i) => Stretch.behind? p i t
  | .backward, none => fragments.zipIdx.reverse.map fun (t, i) => ⟨i, 0, t⟩
  | .backward, some p => fragments.zipIdx.reverse.filterMap fun (t, i) => Stretch.before? p i t

/-! ## Reading a page -/

/-- A page that was read, wholly or in part. -/
structure PageReading where
  /-- The scanner afterwards. -/
  scanner : Scanner
  /-- The stretches that it was fed. -/
  read : List Stretch := []
  spans : List (Span Place) := []
  /-- Whether stretches were left out because the stop flag was up. -/
  stopped : Bool := false

/-- The same reading with a stretch in front. -/
def PageReading.after (st : Stretch) (spans : List (Span Place)) (reading : PageReading) :
    PageReading :=
  { reading with read := st :: reading.read, spans := spans ++ reading.spans }

namespace Scanner

/-- A scanner that has not been fed anything. -/
def fresh (s : Settings) (chain : Chain) : Scanner :=
  { query := { settings := s, chain := some chain } }

/-- Reads stretches up to the first match. The stop flag is looked at before each one, and `up`
    tells it for each look. -/
def seek (up : Nat → Bool) (scanner : Scanner) : List Stretch → PageReading
  | [] => { scanner }
  | st :: parts =>
    if up 0 then { scanner, stopped := true }
    else match (scanner.feed st.text).advance? with
      | some (next, some span) => { scanner := next, read := [st], spans := [span] }
      | some (next, none) => (next.seek (fun look => up (look + 1)) parts).after st []
      | none => { scanner }

/-- Reads stretches to the end. The stop flag is looked at before each one, and `up` tells it for
    each look. -/
def gather (up : Nat → Bool) (scanner : Scanner) : List Stretch → PageReading
  | [] => { scanner }
  | st :: parts =>
    if up 0 then { scanner, stopped := true }
    else match (scanner.feed st.text).drain? with
      | some (next, spans) => (next.gather (fun look => up (look + 1)) parts).after st spans
      | none => { scanner }

end Scanner

/-- The point of a character that was fed as part of some stretches. A backward search reads a
    stretch from its end. -/
def pointIn (dir : Direction) (parts : List Stretch) (place : Place) : Point :=
  -- a scanner counts what it is fed from one
  match parts[place.fragment - 1]? with
  | some st =>
    match dir with
    | .forward => ⟨st.fragment, st.base + place.offset⟩
    | .backward => ⟨st.fragment, st.base + st.text.length - 1 - place.offset⟩
  | none => ⟨0, 0⟩

/-- A match on a page from the places where a search of some stretches found it to begin and
    end. -/
def Match.ofFed (dir : Direction) (page : Nat) (parts : List Stretch) (span : Span Place) :
    Match :=
  match dir with
  | .forward => ⟨page, pointIn dir parts span.first, pointIn dir parts span.last⟩
  | .backward => ⟨page, pointIn dir parts span.last, pointIn dir parts span.first⟩

end PagedSearch
