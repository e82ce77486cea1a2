/-
  PagedSearch.Scanner

  Searching a text that arrives fragment by fragment. A scanner is fed one
  fragment at a time and asked for matches until the fragment is read; a
  partial match carries over to the next fragment. Places count fragments
  from one since the pattern was set, and characters in the order in which
  they are read.
-/
import PagedSearch.Query
import PagedSearch.Scan

namespace PagedSearch

/-- A character that was fed: the number of its fragment, counted from one, and its offset in
    the fragment as it is read. -/
structure Place where
  fragment : Nat
  offset : Nat
deriving DecidableEq, Repr

/-- How many fragments a match reaches over. -/
def Span.spanned (span : Span Place) : Nat := span.last.fragment - span.first.fragment + 1

/-- The significant characters of the `number`-th fragment in the order of reading. -/
def Settings.significant (s : Settings) (number : Nat) (fragment : Text) : List (Char × Place) :=
  ((s.inOrder fragment).map s.foldChar).zipIdx.filterMap fun (c, offset) =>
    if s.skips c then none else some (c, ⟨number, offset⟩)

/-- A search through fragments. -/
structure Scanner where
  query : Query
  scan : Scan Place := {}
  /-- The significant characters of the last fragment that are still to be read. -/
  pending : List (Char × Place) := []
  /-- How many fragments were fed. -/
  fed : Nat := 0
deriving DecidableEq, Repr

namespace Scanner

/-- A scanner without a pattern. -/
def new (settings : Settings) : Scanner := { query := { settings } }

/-- Forgets the partial match and counts fragments from one again. -/
def reset (s : Scanner) : Scanner := { query := s.query, scan := s.scan.restart }

/-- Takes another pattern and starts anew; tells why it cannot be read. -/
def compile (s : Scanner) (pattern : Text) : Scanner × Option PatternError :=
  let (query, error) := s.query.compile pattern
  ({ query }, error)

/-- Takes other settings, and starts anew if they have the pattern read again. -/
def withSettings (s : Scanner) (settings : Settings) : Scanner × Option PatternError :=
  let (query, error) := s.query.withSettings settings
  if s.query.rereads settings then ({ query }, error) else ({ s with query }, error)

/-- Takes another direction; the count of comparisons goes on. -/
def turned (s : Scanner) (d : Direction) : Scanner :=
  if s.query.settings.direction = d then s
  else { s with query := s.query.turned d }.reset

/-- Takes the next fragment; what was not read of the last one is dropped. -/
def feed (s : Scanner) (fragment : Text) : Scanner :=
  { s with
    fed := s.fed + 1
    pending := s.query.settings.significant (s.fed + 1) fragment }

/-- Reads on to the next match in the fragment; nothing without a compiled pattern. -/
def advance? (s : Scanner) : Option (Scanner × Option (Span Place)) :=
  s.query.chain.map fun chain =>
    let (scan, span, pending) := s.scan.advance chain s.pending
    ({ s with scan, pending }, span)

/-- Reads the rest of the fragment and lists its matches; nothing without a compiled pattern. -/
def drain? (s : Scanner) : Option (Scanner × List (Span Place)) :=
  s.query.chain.map fun chain =>
    let (scan, spans) := s.scan.drain chain s.pending
    ({ s with scan, pending := [] }, spans)

/-- Where the partial match begins, if there is one. -/
def partialBegin? (s : Scanner) : Option Place := s.scan.window.head?

/-- How often a symbol was tested since the pattern was set. -/
def comparisons (s : Scanner) : Nat := s.scan.comparisons

end Scanner

end PagedSearch
