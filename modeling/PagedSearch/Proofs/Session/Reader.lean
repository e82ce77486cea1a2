/-
  PagedSearch.Proofs.Session.Reader

  A session together with the scanner that it searches with. From one search
  to the next the scanner stays where it stopped, and none of that is ever
  seen: a reader does what its session does (`perform_session`) and answers
  what its session answers (`answer_eq`), so its runs are those of its session
  (`run_session`, `answers_eq`).
-/
import PagedSearch.Proofs.Scanner.Reachable
import PagedSearch.Proofs.Session.Passage
import PagedSearch.Proofs.Session.Reachable

namespace PagedSearch

theorem Query.turned_turned (q : Query) (dir : Direction) :
    (q.turned dir).turned q.settings.direction = q := by
  by_cases h : q.settings.direction = dir
  · rw [← h, q.turned_self, q.turned_self]
  · -- a chain that is reversed twice is the same again
    have h_chain : (q.chain.map Chain.reversed).map Chain.reversed = q.chain := by
      cases q.chain with
      | none => rfl
      | some chain => exact congrArg some chain.reversed_reversed
    have h_turned : q.turned dir =
        { q with settings := q.settings.turned dir, chain := q.chain.map Chain.reversed } :=
      if_neg h
    have h_back : (q.settings.turned dir).direction ≠ q.settings.direction := Ne.symm h
    rw [h_turned, Query.turned, if_neg h_back, h_chain]
    rfl

theorem Scanner.withSettings_error (scanner : Scanner) (settings : Settings) :
    (scanner.withSettings settings).2 = (scanner.query.withSettings settings).2 := by
  rw [Scanner.withSettings]
  simp only
  split
  · rfl
  · rfl

/-! ## Sessions -/

namespace Session

/-- What an operation gives back. -/
inductive Answer where
  | done
  /-- Why the pattern cannot be read, if it cannot. -/
  | read (error : Option PatternError)
  | selected (m : Option Match)
  | outcome (o : Outcome)
  | listed (results : Results)
  | replaced (d : Document) (count : Nat)
deriving DecidableEq, Repr

/-- What a session gives back for an operation. -/
def answer (s : Session) : Operation → Answer
  | .setQuery pattern => .read (s.query.compile pattern).2
  | .configure settings => .read (s.query.withSettings settings).2
  | .select step => .selected (s.select step).2
  | .find d interrupt => .outcome (s.find d interrupt).2
  | .findNext d interrupt => .outcome (s.findNext d interrupt).2
  | .findPrevious d interrupt => .outcome (s.findPrevious d interrupt).2
  | .findAll d interrupt => .listed (s.findAll d interrupt).results
  | .replaceAll d replacement =>
    let (_, d, count) := s.replaceAll d replacement
    .replaced d count
  | _ => .done

/-- The session after operations. -/
def run (s : Session) (ops : List Operation) : Session := ops.foldl perform s

/-- What a session gives back for operations, one after the other. -/
def answers (s : Session) : List Operation → List Answer
  | [] => []
  | op :: ops => s.answer op :: (s.perform op).answers ops

theorem Reachable.run {s : Session} (h : s.Reachable) (ops : List Operation) :
    (s.run ops).Reachable := by
  induction ops generalizing s with
  | nil => exact h
  | cons op ops ih => exact ih (.step op h)

/-- The walk of a search. -/
def trip (s : Session) (d : Document) (interrupt : Interrupt) : Trip :=
  match s.query.chain with
  | none => ⟨[], .notFound, false⟩
  | some chain =>
    if d.pageCount = 0 then ⟨[], .notFound, false⟩
    else
      let start := s.startPage d
      walk s.query.settings chain d interrupt false 1 (s.resumePoint? start)
        (itinerary d s.query.settings.direction start)

/-- The session after the walk of a search. -/
def concluded (s : Session) (trip : Trip) : Session :=
  ({ s with raised := trip.raised }.landed trip.outcome).recordAll
    (trip.visited.tail.map HistoryLine.trying ++ [outcomeLine s.query.pattern trip.outcome])

theorem find_eq (s : Session) (d : Document) (interrupt : Interrupt) :
    s.find d interrupt = (s.concluded (s.trip d interrupt), (s.trip d interrupt).outcome) := rfl

@[simp] theorem landed_query (s : Session) (outcome : Outcome) :
    (s.landed outcome).query = s.query := by
  cases outcome with
  | found m => rfl
  | notFound => rfl
  | stopped => rfl

@[simp] theorem landed_raised (s : Session) (outcome : Outcome) :
    (s.landed outcome).raised = s.raised := by
  cases outcome with
  | found m => rfl
  | notFound => rfl
  | stopped => rfl

@[simp] theorem concluded_query (s : Session) (trip : Trip) : (s.concluded trip).query = s.query :=
  landed_query ..

@[simp] theorem concluded_raised (s : Session) (trip : Trip) :
    (s.concluded trip).raised = trip.raised := landed_raised ..

/-- Where nothing was found, the selection and the page stay. -/
theorem concluded_unmoved (s : Session) {trip : Trip} (h : ∀ m, trip.outcome ≠ .found m) :
    (s.concluded trip).selection = s.selection ∧ (s.concluded trip).page = s.page := by
  have h_landed : { s with raised := trip.raised }.landed trip.outcome =
      { s with raised := trip.raised } := by
    cases h_outcome : trip.outcome with
    | found m => exact absurd h_outcome (h m)
    | notFound => rfl
    | stopped => rfl
  rw [concluded, h_landed]
  exact ⟨rfl, rfl⟩

end Session

/-! ## Readers -/

/-- A session and its scanner, which holds the same query. -/
structure Reader where
  session : Session
  scanner : Scanner
  query_eq : scanner.query = session.query

namespace Reader

/-- A reader without a query. -/
def new (settings : Settings) : Reader := ⟨.new settings, .new settings, rfl⟩

theorem scanner_chain (r : Reader) {chain : Chain} (h : r.session.query.chain = some chain) :
    r.scanner.query.chain = some chain :=
  (congrArg Query.chain r.query_eq).trans h

/-- The reader with another session that has the same query. -/
def withSession (r : Reader) (s : Session) (h : s.query = r.session.query) : Reader :=
  ⟨s, r.scanner, r.query_eq.trans h.symm⟩

/-- Takes another direction. -/
def turned (r : Reader) (dir : Direction) : Reader :=
  ⟨r.session.turned dir, r.scanner.turned dir, by rw [Scanner.turned_query, r.query_eq]; rfl⟩

/-- The walk of a search. The stop flag is lowered first. -/
def tour (r : Reader) (d : Document) (interrupt : Interrupt) : Passage Outcome :=
  match r.session.query.chain with
  | none => { scanner := r.scanner, raised := false, result := .notFound }
  | some _ =>
    if d.pageCount = 0 then { scanner := r.scanner, raised := false, result := .notFound }
    else
      let start := r.session.startPage d
      r.scanner.search d interrupt false 1 (r.session.resumePoint? start)
        (itinerary d r.session.query.settings.direction start)

/-- The walk that lists all matches. The scanner is turned forward for it and then back. -/
def survey (r : Reader) (d : Document) (interrupt : Interrupt) : Passage (List Match) :=
  let forward := r.turned .forward
  match forward.session.query.chain with
  | none => { scanner := r.scanner, raised := false, result := [] }
  | some _ =>
    let passage := forward.scanner.list d interrupt false 1 (List.range d.pageCount)
    { passage with scanner := passage.scanner.turned r.session.query.settings.direction }

theorem tour_query (r : Reader) (d : Document) (interrupt : Interrupt) :
    (r.tour d interrupt).scanner.query = r.session.query := by
  rw [tour, ← r.query_eq]
  split
  · rfl
  · split
    · rfl
    · exact Scanner.search_query ..

theorem survey_query (r : Reader) (d : Document) (interrupt : Interrupt) :
    (r.survey d interrupt).scanner.query = r.session.query := by
  rw [survey]
  simp only
  split
  · exact r.query_eq
  · simp only [Scanner.turned_query, Scanner.list_query, (r.turned .forward).query_eq]
    exact Query.turned_turned ..

/-- Searches in the reader's direction from the selection on and around the document. -/
def find (r : Reader) (d : Document) (interrupt : Interrupt) : Reader :=
  let tour := r.tour d interrupt
  ⟨r.session.concluded ⟨tour.visits.map Visit.page, tour.result, tour.raised⟩, tour.scanner,
    (r.tour_query d interrupt).trans (Session.concluded_query ..).symm⟩

/-- Lists all matches. -/
def findAll (r : Reader) (d : Document) (interrupt : Interrupt) : Reader :=
  let survey := r.survey d interrupt
  ⟨{ r.session with results := .ofList survey.result, raised := survey.raised }, survey.scanner,
    r.survey_query d interrupt⟩

/-- The reader after an operation. -/
def perform (r : Reader) : Session.Operation → Reader
  | .setQuery pattern =>
    ⟨r.session.withQuery pattern, (r.scanner.compile pattern).1, by
      show (r.scanner.query.compile pattern).1 = (r.session.query.compile pattern).1
      rw [r.query_eq]⟩
  | .configure settings =>
    ⟨r.session.withSettings settings, (r.scanner.withSettings settings).1, by
      rw [Scanner.withSettings_query, r.query_eq]
      rfl⟩
  | .clear =>
    ⟨r.session.cleared, .new r.scanner.query.settings, by
      rw [r.query_eq]
      rfl⟩
  | .select step => r.withSession (r.session.select step).1 (Session.select_query ..)
  | .clearSelection => r.withSession r.session.withoutSelection rfl
  | .setPage page => r.withSession (r.session.withPage page) rfl
  | .rewind d => r.withSession (r.session.rewound d) rfl
  | .stop => r.withSession r.session.stop rfl
  | .clearHistory => r.withSession r.session.withoutHistory rfl
  | .limitHistory limit => r.withSession (r.session.withHistoryLimit limit) rfl
  | .find d interrupt => r.find d interrupt
  | .findNext d interrupt => (r.turned .forward).find d interrupt
  | .findPrevious d interrupt => (r.turned .backward).find d interrupt
  | .findAll d interrupt => r.findAll d interrupt
  | .replaceAll d _ =>
    let r := r.findAll d .never
    r.withSession { r.session with results := .empty, selection := none } rfl

/-- What a reader gives back for an operation. -/
def answer (r : Reader) : Session.Operation → Session.Answer
  | .setQuery pattern => .read (r.scanner.compile pattern).2
  | .configure settings => .read (r.scanner.withSettings settings).2
  | .select step => .selected (r.session.select step).2
  | .find d interrupt => .outcome (r.tour d interrupt).result
  | .findNext d interrupt => .outcome ((r.turned .forward).tour d interrupt).result
  | .findPrevious d interrupt => .outcome ((r.turned .backward).tour d interrupt).result
  | .findAll d interrupt => .listed (r.findAll d interrupt).session.results
  | .replaceAll d replacement =>
    let (d, count) :=
      Session.replaceMatches d replacement (r.findAll d .never).session.results.listed
    .replaced d count
  | _ => .done

/-- The reader after operations. -/
def run (r : Reader) (ops : List Session.Operation) : Reader := ops.foldl perform r

/-- What a reader gives back for operations, one after the other. -/
def answers (r : Reader) : List Session.Operation → List Session.Answer
  | [] => []
  | op :: ops => r.answer op :: (r.perform op).answers ops

/-! ## A reader does what its session does -/

/-- The walk of a reader is that of its session. -/
theorem trip_eq_tour (r : Reader) (d : Document) (interrupt : Interrupt) :
    r.session.trip d interrupt =
      let tour := r.tour d interrupt
      ⟨tour.visits.map Visit.page, tour.result, tour.raised⟩ := by
  rw [tour, Session.trip]
  cases h_chain : r.session.query.chain with
  | none => rfl
  | some chain =>
    -- the scanner holds the session's query, so its walk is the session's
    have h_walk := Scanner.walk_eq_search (r.scanner_chain h_chain) d interrupt false 1
    rw [r.query_eq] at h_walk
    by_cases h_pages : d.pageCount = 0
    · simp only [if_pos h_pages]
      rfl
    · simp only [if_neg h_pages, h_walk]

theorem session_find (r : Reader) (d : Document) (interrupt : Interrupt) :
    r.session.find d interrupt = ((r.find d interrupt).session, (r.tour d interrupt).result) := by
  rw [Session.find_eq, trip_eq_tour]
  rfl

theorem session_findAll (r : Reader) (d : Document) (interrupt : Interrupt) :
    r.session.findAll d interrupt = (r.findAll d interrupt).session := by
  show _ = { r.session with
    results := .ofList (r.survey d interrupt).result, raised := (r.survey d interrupt).raised }
  rw [survey, Session.findAll, Session.matchesIn]
  have h_query : (r.turned .forward).session.query = r.session.query.turned .forward := rfl
  cases h_chain : (r.session.query.turned .forward).chain with
  | none => simp only [h_query, h_chain]
  | some chain =>
    have h_listing := Scanner.listing_eq_list ((r.turned .forward).scanner_chain h_chain) d
      interrupt false 1
    rw [(r.turned .forward).query_eq, h_query] at h_listing
    simp only [h_query, h_chain, h_listing]

theorem perform_session (r : Reader) (op : Session.Operation) :
    (r.perform op).session = r.session.perform op := by
  cases op with
  | find d interrupt => exact (congrArg Prod.fst (r.session_find d interrupt)).symm
  | findNext d interrupt =>
    exact (congrArg Prod.fst ((r.turned .forward).session_find d interrupt)).symm
  | findPrevious d interrupt =>
    exact (congrArg Prod.fst ((r.turned .backward).session_find d interrupt)).symm
  | findAll d interrupt => exact (r.session_findAll d interrupt).symm
  | replaceAll d replacement =>
    show _ = (r.session.replaceAll d replacement).1
    rw [Session.replaceAll, r.session_findAll d .never]
    rfl
  | _ => rfl

theorem answer_eq (r : Reader) (op : Session.Operation) : r.answer op = r.session.answer op := by
  cases op with
  | setQuery pattern =>
    show Session.Answer.read (r.scanner.query.compile pattern).2 = _
    rw [r.query_eq]
    rfl
  | configure settings =>
    show Session.Answer.read (r.scanner.withSettings settings).2 = _
    rw [Scanner.withSettings_error, r.query_eq]
    rfl
  | find d interrupt =>
    exact congrArg (Session.Answer.outcome ·.2) (r.session_find d interrupt).symm
  | findNext d interrupt =>
    exact congrArg (Session.Answer.outcome ·.2) ((r.turned .forward).session_find d interrupt).symm
  | findPrevious d interrupt =>
    exact congrArg (Session.Answer.outcome ·.2) ((r.turned .backward).session_find d interrupt).symm
  | findAll d interrupt =>
    exact congrArg (Session.Answer.listed ·.results) (r.session_findAll d interrupt).symm
  | replaceAll d replacement =>
    rw [Session.answer, Session.replaceAll, r.session_findAll d .never]
    rfl
  | _ => rfl

/-- The runs of a reader are those of its session. -/
theorem run_session (r : Reader) (ops : List Session.Operation) :
    (r.run ops).session = r.session.run ops := by
  induction ops generalizing r with
  | nil => rfl
  | cons op ops ih =>
    show ((r.perform op).run ops).session = (r.session.perform op).run ops
    rw [ih, perform_session]

theorem answers_eq (r : Reader) (ops : List Session.Operation) :
    r.answers ops = r.session.answers ops := by
  induction ops generalizing r with
  | nil => rfl
  | cons op ops ih => rw [answers, Session.answers, answer_eq, ih, perform_session]

end Reader

end PagedSearch
