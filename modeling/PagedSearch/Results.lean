/-
  PagedSearch.Results

  The matches of a query in document order, with a cursor. A run for each
  page that has matches tells where they stand in the list, so that a page is
  looked up without a walk through all matches.
-/
import PagedSearch.Match

namespace PagedSearch

/-- Where the cursor goes. -/
inductive Step where
  /-- On to the following match, from the last one to the first. -/
  | next
  /-- Back to the match before, from the first one to the last. -/
  | previous
  | first
  | last
  /-- To the match with this index, counted from zero, if there is one. -/
  | index (i : Nat)
  /-- To the first match on this page or behind it, else to the first match of all. -/
  | nearestPage (page : Nat)
deriving DecidableEq, Repr

/-- The matches of one page stand in a list from `start` up to `stop`, which is excluded. -/
structure PageRun where
  page : Nat
  start : Nat
  stop : Nat
deriving DecidableEq, Repr

/-- The runs of a list in document order whose first match has index `i`. -/
def pageRuns (i : Nat) : List Match → List PageRun
  | [] => []
  | m :: rest =>
    match pageRuns (i + 1) rest with
    | [] => [⟨m.page, i, i + 1⟩]
    | run :: runs =>
      -- in document order only the run of the following match can be that of `m`
      if run.page = m.page then ⟨m.page, i, run.stop⟩ :: runs
      else ⟨m.page, i, i + 1⟩ :: run :: runs

/-- Matches in document order and the index of the current one. -/
structure Results where
  listed : List Match := []
  cursor : Option Nat := none
  runs : List PageRun := []
deriving DecidableEq, Repr, Inhabited

namespace Results

/-- No matches. -/
def empty : Results := {}

/-- Sorts matches into document order and puts the cursor on the first one. -/
def ofList (l : List Match) : Results :=
  let listed := l.mergeSort Match.le
  { listed
    cursor := if listed.isEmpty then none else some 0
    runs := pageRuns 0 listed }

/-- How many matches there are. -/
def count (r : Results) : Nat := r.listed.length

/-- True when there are no matches. -/
def isEmpty (r : Results) : Bool := r.listed.isEmpty

/-- The match under the cursor. -/
def current? (r : Results) : Option Match := r.cursor.bind fun i => r.listed[i]?

/-- The number of the current match, counted from one, and how many there are. -/
def position? (r : Results) : Option (Nat × Nat) := r.cursor.map fun i => (i + 1, r.count)

/-- The index that a step leads to; there is at least one match. -/
def target? (r : Results) : Step → Option Nat
  | .next => some (match r.cursor with
    | some i => (i + 1) % r.count
    | none => 0)
  | .previous => some (match r.cursor with
    | some i => (i + r.count - 1) % r.count
    | none => r.count - 1)
  | .first => some 0
  | .last => some (r.count - 1)
  | .index i => if i < r.count then some i else none
  | .nearestPage page => some (match r.runs.find? (page ≤ ·.page) with
    | some run => run.start
    | none => 0)

/-- Moves the cursor and gives the match it lands on. Where no match is, it stays. -/
def step (r : Results) (s : Step) : Results × Option Match :=
  if r.isEmpty then (r, none)
  else match r.target? s with
    | some i => ({ r with cursor := some i }, r.listed[i]?)
    | none => (r, none)

/-- The matches of a page. -/
def onPage (r : Results) (page : Nat) : List Match :=
  match r.runs.find? (·.page == page) with
  | some run => (r.listed.take run.stop).drop run.start
  | none => []

/-- True of the points of the current match. -/
def isCurrent (r : Results) (page : Nat) (p : Point) : Bool :=
  r.current?.any (·.contains page p)

/-- True of the points of any match. -/
def isAny (r : Results) (page : Nat) (p : Point) : Bool :=
  (r.onPage page).any (·.contains page p)

end Results

end PagedSearch
