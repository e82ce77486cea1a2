/-
  PagedSearch.Proofs.Session.Traceless

  What a search that finds nothing leaves behind. The scanner stays where the
  search ended, but no later operation sees that; of the session only the
  history and the stop flag change, and on these no operation depends
  (`perform_unmarked`, `answer_unmarked`). So all later operations come to
  what they would have come to without the search (`find_traceless`).
-/
import Mathlib
import PagedSearch.Proofs.Session.Reader

namespace PagedSearch

theorem History.recordAll_cleared (h : History) (lines : List HistoryLine) :
    (h.recordAll lines).cleared = h.cleared := by
  induction lines generalizing h with
  | nil => rfl
  | cons line lines ih => exact ih (h.record line)

namespace Session

/-- The session without the lines of its history and with the stop flag down. -/
def unmarked (s : Session) : Session := { s with raised := false, history := s.history.cleared }

/-- The operations that begin by lowering the stop flag. -/
def Operation.LowersFlag : Operation → Prop
  | .find _ _ => True
  | .findNext _ _ => True
  | .findPrevious _ _ => True
  | .findAll _ _ => True
  | .replaceAll _ _ => True
  | _ => False

theorem landed_unmarked (s : Session) (outcome : Outcome) :
    (s.landed outcome).unmarked = s.unmarked.landed outcome := by
  cases outcome with
  | found m => rfl
  | notFound => rfl
  | stopped => rfl

theorem recordAll_unmarked (s : Session) (lines : List HistoryLine) :
    (s.recordAll lines).unmarked = s.unmarked :=
  congrArg (fun history => { s with raised := false, history }) (s.history.recordAll_cleared lines)

/-- A search changes the session by what it finds, but for the marks. -/
theorem concluded_unmarked (s : Session) (trip : Trip) :
    (s.concluded trip).unmarked = s.unmarked.landed trip.outcome :=
  (recordAll_unmarked _ _).trans (landed_unmarked _ _)

/-- The walk of a search does not depend on the marks. -/
theorem trip_unmarked (s : Session) (d : Document) (interrupt : Interrupt) :
    s.unmarked.trip d interrupt = s.trip d interrupt := rfl

theorem find_unmarked (s : Session) (d : Document) (interrupt : Interrupt) :
    (s.unmarked.find d interrupt).1.unmarked = (s.find d interrupt).1.unmarked := by
  rw [find_eq, find_eq, trip_unmarked, concluded_unmarked, concluded_unmarked]
  rfl

theorem find_raised_unmarked (s : Session) (d : Document) (interrupt : Interrupt) :
    (s.unmarked.find d interrupt).1.raised = (s.find d interrupt).1.raised := by
  rw [find_eq, find_eq, trip_unmarked, concluded_raised, concluded_raised]

theorem select_unmarked (s : Session) (step : Step) :
    s.unmarked.select step = ((s.select step).1.unmarked, (s.select step).2) := by
  have h_results : s.unmarked.results.step step = s.results.step step := rfl
  rw [select, select, h_results]
  rcases s.results.step step with ⟨results, _ | m⟩
  · rfl
  · rfl

/-! ## Operations -/

/-- What an operation gives back does not depend on the marks. -/
theorem answer_unmarked (s : Session) (op : Operation) : s.unmarked.answer op = s.answer op := by
  cases op with
  | select step => exact congrArg (Answer.selected ·.2) (s.select_unmarked step)
  | _ => rfl

/-- Neither does what it does, but for the marks. -/
theorem perform_unmarked (s : Session) (op : Operation) :
    (s.unmarked.perform op).unmarked = (s.perform op).unmarked := by
  cases op with
  | select step => exact congrArg (unmarked ·.1) (s.select_unmarked step)
  | find d interrupt => exact s.find_unmarked d interrupt
  | findNext d interrupt => exact (s.turned .forward).find_unmarked d interrupt
  | findPrevious d interrupt => exact (s.turned .backward).find_unmarked d interrupt
  | _ => rfl

/-- An operation that lowers the stop flag leaves it as it would have left any other. -/
theorem perform_raised_unmarked (s : Session) {op : Operation} (h : op.LowersFlag) :
    (s.unmarked.perform op).raised = (s.perform op).raised := by
  cases op with
  | find d interrupt => exact s.find_raised_unmarked d interrupt
  | findNext d interrupt => exact (s.turned .forward).find_raised_unmarked d interrupt
  | findPrevious d interrupt => exact (s.turned .backward).find_raised_unmarked d interrupt
  | findAll d interrupt => rfl
  | replaceAll d replacement => rfl
  | _ => exact absurd h id

/-- All others leave it as it is or raise it. -/
theorem exists_perform_raised {op : Operation} (h : ¬ op.LowersFlag) :
    ∃ f : Bool → Bool, ∀ s : Session, (s.perform op).raised = f s.raised := by
  cases op with
  | stop => exact ⟨fun _ => true, fun _ => rfl⟩
  | select step =>
    refine ⟨id, fun s => ?_⟩
    show (s.select step).1.raised = s.raised
    rw [select]
    rcases s.results.step step with ⟨results, _ | m⟩
    · rfl
    · rfl
  | find => exact absurd trivial h
  | findNext => exact absurd trivial h
  | findPrevious => exact absurd trivial h
  | findAll => exact absurd trivial h
  | replaceAll => exact absurd trivial h
  | _ => exact ⟨id, fun _ => rfl⟩

/-! ## Runs -/

section

variable {s t : Session}

theorem perform_unmarked_congr (h : s.unmarked = t.unmarked) (op : Operation) :
    (s.perform op).unmarked = (t.perform op).unmarked := by
  rw [← s.perform_unmarked, h, t.perform_unmarked]

/-- Sessions that differ in their marks only do the same. -/
theorem run_unmarked_congr (h : s.unmarked = t.unmarked) (ops : List Operation) :
    (s.run ops).unmarked = (t.run ops).unmarked := by
  induction ops generalizing s t with
  | nil => exact h
  | cons op ops ih => exact ih (perform_unmarked_congr h op)

theorem answers_congr (h : s.unmarked = t.unmarked) (ops : List Operation) :
    s.answers ops = t.answers ops := by
  induction ops generalizing s t with
  | nil => rfl
  | cons op ops ih =>
    rw [answers, answers, ih (perform_unmarked_congr h op), ← s.answer_unmarked, h,
      t.answer_unmarked]

/-- Once one of the operations lowers the stop flag, that is the same too. -/
theorem run_raised_congr (h : s.unmarked = t.unmarked) {ops : List Operation}
    (h_raised : s.raised = t.raised ∨ ∃ op ∈ ops, op.LowersFlag) :
    (s.run ops).raised = (t.run ops).raised := by
  induction ops generalizing s t with
  | nil => exact h_raised.resolve_right fun ⟨op, h_op, _⟩ => absurd h_op List.not_mem_nil
  | cons op ops ih =>
    apply @ih (s.perform op) (t.perform op) (perform_unmarked_congr h op)
    by_cases h_lowers : op.LowersFlag
    · left
      rw [← s.perform_raised_unmarked h_lowers, h, t.perform_raised_unmarked h_lowers]
    · rcases h_raised with h_raised | ⟨other, h_mem, h_other⟩
      · obtain ⟨f, h_f⟩ := exists_perform_raised h_lowers
        left
        rw [h_f, h_f, h_raised]
      · right
        refine ⟨other, (List.mem_cons.1 h_mem).resolve_left ?_, h_other⟩
        rintro rfl
        exact h_lowers h_other

end

end Session

/-- A search that finds nothing, because nothing is there or because it is stopped, leaves the
    session as it was but for the history and the stop flag, and whatever is done later, on
    whatever documents, comes to the same as without it. The stop flag is the same again from the
    next search on. -/
theorem find_traceless (r : Reader) (d : Document) (interrupt : Interrupt)
    (h_outcome : ∀ m, r.answer (.find d interrupt) ≠ .outcome (.found m)) :
    let after := r.perform (.find d interrupt)
    (after.session.query = r.session.query ∧ after.session.error = r.session.error ∧
      after.session.results = r.session.results ∧ after.session.selection = r.session.selection ∧
      after.session.page = r.session.page) ∧
    ∀ ops, after.answers ops = r.answers ops ∧
      (after.run ops).session.unmarked = (r.run ops).session.unmarked ∧
      ((∃ op ∈ ops, op.LowersFlag) →
        (after.run ops).session.raised = (r.run ops).session.raised) := by
  intro after
  have h_after : after.session = r.session.concluded (r.session.trip d interrupt) :=
    r.perform_session (.find d interrupt)
  have h_same : after.session.unmarked = r.session.unmarked := by
    rw [h_after, Session.concluded_unmarked]
    rw [r.answer_eq] at h_outcome
    cases h_trip : (r.session.trip d interrupt).outcome with
    | found m => exact absurd (congrArg Session.Answer.outcome h_trip) (h_outcome m)
    | notFound => rfl
    | stopped => rfl
  have h_fields := h_same
  rw [Session.unmarked, Session.unmarked, Session.mk.injEq] at h_fields
  obtain ⟨h_query, h_error, h_results, h_selection, h_page, -⟩ := h_fields
  refine ⟨⟨h_query, h_error, h_results, h_selection, h_page⟩, fun ops => ⟨?_, ?_, ?_⟩⟩
  · rw [after.answers_eq, r.answers_eq]
    exact Session.answers_congr h_same ops
  · rw [after.run_session, r.run_session]
    exact Session.run_unmarked_congr h_same ops
  · intro h_lowers
    rw [after.run_session, r.run_session]
    exact Session.run_raised_congr h_same (.inr h_lowers)

/-- A search that ends inside a match and a repetition, and another document that begins with what
    is missing of that match. -/
theorem find_traceless_repetition :
    let r := (Reader.new { mode := .wildcard }).perform (.setQuery "ab*c".toList)
    let after := r.perform (.find (.ofFragments [["xab".toList, "bb".toList], ["q".toList]]) .never)
    after.scanner.scan.taken = 3 ∧
      after.answers [.find (.ofFragments [["c".toList, "abc".toList]]) .never, .select .first] =
        [.outcome (.found ⟨0, ⟨1, 0⟩, ⟨1, 2⟩⟩), .selected none] := by
  have h_outcome : ((Reader.new { mode := .wildcard }).perform (.setQuery "ab*c".toList)).answer
      (.find (.ofFragments [["xab".toList, "bb".toList], ["q".toList]]) .never) =
        .outcome .notFound := by cbv
  have h_without : ((Reader.new { mode := .wildcard }).perform (.setQuery "ab*c".toList)).answers
      [.find (.ofFragments [["c".toList, "abc".toList]]) .never, .select .first] =
        [.outcome (.found ⟨0, ⟨1, 0⟩, ⟨1, 2⟩⟩), .selected none] := by cbv
  have h_traceless := find_traceless ((Reader.new { mode := .wildcard }).perform
    (.setQuery "ab*c".toList)) (.ofFragments [["xab".toList, "bb".toList], ["q".toList]]) .never
    fun m h_found => by
      rw [h_outcome] at h_found
      exact absurd h_found (by simp)
  refine ⟨by cbv, ?_⟩
  exact (h_traceless.2 _).1.trans h_without

end PagedSearch
