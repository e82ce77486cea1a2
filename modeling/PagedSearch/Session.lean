/-
  PagedSearch.Session

  A search over a document that goes on from match to match. A session holds
  the query, the matches listed last, the selected match, the page to start
  on and the history; the document is given to each operation and may be
  another one each time.
-/
import PagedSearch.Document.Replace
import PagedSearch.Query
import PagedSearch.Results
import PagedSearch.Session.History
import PagedSearch.Session.Walk

namespace PagedSearch

/-- A search that goes on from match to match. -/
structure Session where
  query : Query
  /-- Why the query cannot be read. -/
  error : Option PatternError := none
  results : Results := .empty
  selection : Option Match := none
  page : Nat := 0
  /-- The stop flag. -/
  raised : Bool := false
  history : History := {}
deriving DecidableEq, Repr

namespace Session

/-- A session without a query. -/
def new (settings : Settings) : Session := { query := { settings } }

/-! ## Query and settings -/

/-- Takes another query and drops the results of the old one. The selection stays, so that the
    next search goes on from it. -/
def withQuery (s : Session) (pattern : Text) : Session :=
  let (query, error) := s.query.compile pattern
  { s with query, error, results := .empty }

/-- Takes other settings. -/
def withSettings (s : Session) (settings : Settings) : Session :=
  let (query, error) := s.query.withSettings settings
  { s with query, error }

/-- Takes another direction. -/
def turned (s : Session) (dir : Direction) : Session :=
  { s with query := s.query.turned dir }

/-- Drops the query, its results and the selection. -/
def cleared (s : Session) : Session :=
  { s with
    query := { settings := s.query.settings }
    error := none
    results := .empty
    selection := none }

/-! ## Page and selection -/

/-- Moves the cursor of the results and selects the match it lands on. -/
def select (s : Session) (step : Step) : Session × Option Match :=
  match s.results.step step with
  | (results, some m) => ({ s with results, selection := some m, page := m.page }, some m)
  | (results, none) => ({ s with results }, none)

/-- Forgets the selection. -/
def withoutSelection (s : Session) : Session := { s with selection := none }

/-- Takes another page to start on and forgets the selection. -/
def withPage (s : Session) (page : Nat) : Session := { s with page, selection := none }

/-- Takes the page where a search in the session's direction starts. -/
def rewound (s : Session) (d : Document) : Session :=
  s.withPage (match s.query.settings.direction with
    | .forward => 0
    | .backward => d.pageCount - 1)

/-- Raises the stop flag. -/
def stop (s : Session) : Session := { s with raised := true }

/-! ## History -/

/-- Appends lines to the history. -/
def recordAll (s : Session) (lines : List HistoryLine) : Session :=
  { s with history := s.history.recordAll lines }

/-- Forgets the history. -/
def withoutHistory (s : Session) : Session := { s with history := s.history.cleared }

/-- Takes another limit for the history. -/
def withHistoryLimit (s : Session) (limit : Nat) : Session :=
  { s with history := s.history.withLimit limit }

/-! ## Searching -/

/-- The page that a search starts on. -/
def startPage (s : Session) (d : Document) : Nat :=
  if s.page < d.pageCount then s.page else 0

/-- The point of the selection that a search on a page goes on from. -/
def resumePoint? (s : Session) (page : Nat) : Option Point :=
  match s.selection with
  | some m =>
    if m.page = page then
      some (match s.query.settings.direction with
        | .forward => m.last
        | .backward => m.first)
    else none
  | none => none

/-- The line of a search that is over. -/
def outcomeLine (pattern : Text) : Outcome → HistoryLine
  | .found m => .found pattern m.page
  | .notFound => .notFound pattern
  | .stopped => .stopped

/-- Selects a match that was found. -/
def landed (s : Session) : Outcome → Session
  | .found m => { s with selection := some m, page := m.page }
  | _ => s

/-- Searches in the session's direction from the selection on and around the document. -/
def find (s : Session) (d : Document) (interrupt : Interrupt) : Session × Outcome :=
  let trip : Trip :=
    match s.query.chain with
    | none => ⟨[], .notFound, false⟩
    | some chain =>
      if d.pageCount = 0 then ⟨[], .notFound, false⟩
      else
        let start := s.startPage d
        walk s.query.settings chain d interrupt false 1 (s.resumePoint? start)
          (itinerary d s.query.settings.direction start)
  -- the page that the search starts on has no line
  let lines := trip.visited.tail.map HistoryLine.trying ++
    [outcomeLine s.query.pattern trip.outcome]
  (({ s with raised := trip.raised }.landed trip.outcome).recordAll lines, trip.outcome)

/-- Searches forward. -/
def findNext (s : Session) (d : Document) (interrupt : Interrupt) : Session × Outcome :=
  (s.turned .forward).find d interrupt

/-- Searches backward. -/
def findPrevious (s : Session) (d : Document) (interrupt : Interrupt) : Session × Outcome :=
  (s.turned .backward).find d interrupt

/-- The matches of a query in a document from its start on, whatever the query's direction. -/
def matchesIn (q : Query) (d : Document) (interrupt : Interrupt) : List Match × Bool :=
  let forward := q.turned .forward
  match forward.chain with
  | none => ([], false)
  | some chain =>
    listing forward.settings chain d interrupt false 1 (List.range d.pageCount)

/-- Lists all matches. -/
def findAll (s : Session) (d : Document) (interrupt : Interrupt) : Session :=
  let (found, raised) := matchesIn s.query d interrupt
  { s with results := .ofList found, raised }

/-- Replaces matches in a document, the last one first, and counts those that fit it. -/
def replaceMatches (d : Document) (replacement : Text) (found : List Match) : Document × Nat :=
  -- what is replaced further back does not move the matches in front
  found.foldr (fun m (d, count) =>
    match d.replace? m replacement with
    | some d => (d, count + 1)
    | none => (d, count)) (d, 0)

/-- Replaces all matches; gives the document afterwards and how many were replaced. -/
def replaceAll (s : Session) (d : Document) (replacement : Text) : Session × Document × Nat :=
  let s := s.findAll d .never
  ({ s with results := .empty, selection := none },
    replaceMatches d replacement s.results.listed)

end Session

end PagedSearch
