/-
  PagedSearch.Proofs.Session.History

  The history of a session. A search records the pages that it goes on to and
  what it comes to (`Session.told`), and no other operation records anything.
  Of the lines recorded since the history was last cleared it holds the most
  recent ones: as many as the limit has left room for at all moments since
  (`run_lines`), thus no more than the limit. What the lines tell is the way
  of the search around the document (`history_tells_tour`).
-/
import Mathlib
import PagedSearch.Proofs.Session.Tour

namespace PagedSearch

/-! ## The end of a list -/

section

variable {α : Type} {m n : Nat} {l : List α}

theorem rtake_of_length_le (h : l.length ≤ n) : l.rtake n = l := by
  rw [List.rtake, Nat.sub_eq_zero_of_le h, List.drop_zero]

theorem length_rtake_le (l : List α) (n : Nat) : (l.rtake n).length ≤ n := by
  rw [List.rtake, List.length_drop]
  omega

theorem rtake_append_of_le_length (front : List α) (h : n ≤ l.length) :
    (front ++ l).rtake n = l.rtake n := by
  rw [List.rtake, List.length_append, Nat.add_sub_assoc h, List.drop_length_add_append, List.rtake]

theorem rtake_min_of_length_le (h : l.length ≤ m) : l.rtake (min m n) = l.rtake n := by
  rcases Nat.le_total n m with h_le | h_le
  · rw [Nat.min_eq_right h_le]
  · rw [Nat.min_eq_left h_le, rtake_of_length_le h, rtake_of_length_le (h.trans h_le)]

/-- What has been cut off in front does not matter to a shorter end. -/
theorem rtake_rtake_append {more : List α} (h : n ≤ m + more.length) :
    (l.rtake m ++ more).rtake n = (l ++ more).rtake n := by
  rcases Nat.le_total l.length m with h_le | h_le
  · rw [rtake_of_length_le h_le]
  · have h_split : l ++ more = l.take (l.length - m) ++ (l.rtake m ++ more) := by
      rw [← List.append_assoc, List.rtake, List.take_append_drop]
    have h_length : n ≤ (l.rtake m ++ more).length := by
      rw [List.length_append, List.rtake, List.length_drop, Nat.sub_sub_self h_le]
      exact h
    rw [h_split, rtake_append_of_le_length _ h_length]

end

/-! ## Histories -/

namespace History

variable {h : History}

/-- A history with a limit in the allowed range and no more lines than that. -/
structure Bounded (h : History) : Prop where
  limit_pos : 1 ≤ h.limit
  limit_le : h.limit ≤ maxHistoryLimit
  length_le : h.lines.length ≤ h.limit

theorem trimmed_bounded (h_pos : 1 ≤ h.limit) (h_le : h.limit ≤ maxHistoryLimit) :
    h.trimmed.Bounded := ⟨h_pos, h_le, length_rtake_le h.lines h.limit⟩

@[simp] theorem recordAll_limit (h : History) (lines : List HistoryLine) :
    (h.recordAll lines).limit = h.limit := by
  induction lines generalizing h with
  | nil => rfl
  | cons line lines ih => exact (ih (h.record line)).trans (record_limit h line)

/-- Of the lines that it is given a history keeps the last ones. -/
theorem recordAll_lines (h_length : h.lines.length ≤ h.limit) (lines : List HistoryLine) :
    (h.recordAll lines).lines = (h.lines ++ lines).rtake h.limit := by
  induction lines generalizing h with
  | nil =>
    rw [List.append_nil, rtake_of_length_le h_length]
    rfl
  | cons line lines ih =>
    have h_step := @ih (h.record line) (h.record_length_le line)
    have h_line : (h.record line).lines = (h.lines ++ [line]).rtake h.limit := rfl
    rw [record_limit, h_line, rtake_rtake_append (Nat.le_add_right _ _),
      List.append_assoc] at h_step
    exact h_step

theorem Bounded.recordAll (h_bounded : h.Bounded) (lines : List HistoryLine) :
    (h.recordAll lines).Bounded where
  limit_pos := by
    rw [recordAll_limit]
    exact h_bounded.limit_pos
  limit_le := by
    rw [recordAll_limit]
    exact h_bounded.limit_le
  length_le := by
    rw [recordAll_limit, recordAll_lines h_bounded.length_le]
    exact length_rtake_le _ _

end History

/-! ## What operations record -/

namespace Session

/-- The lines that a search records: the pages that it goes on to, and what it comes to. -/
def told (s : Session) (d : Document) (interrupt : Interrupt) : List HistoryLine :=
  let trip := s.trip d interrupt
  trip.visited.tail.map .trying ++ [outcomeLine s.query.pattern trip.outcome]

/-- The lines that an operation records. -/
def recorded (s : Session) : Operation → List HistoryLine
  | .find d interrupt => s.told d interrupt
  | .findNext d interrupt => (s.turned .forward).told d interrupt
  | .findPrevious d interrupt => (s.turned .backward).told d interrupt
  | _ => []

/-- The lines that operations record, one after the other. -/
def records (s : Session) : List Operation → List HistoryLine
  | [] => []
  | op :: ops => s.recorded op ++ (s.perform op).records ops

/-- For how many lines there is room after operations. Of the lines before a moment no more are left
    than the limit says then, and those recorded since come on top; the moment that leaves the
    least room counts. -/
def room (s : Session) : List Operation → Nat
  | [] => s.history.limit
  | op :: ops => min (s.history.limit + (s.records (op :: ops)).length) ((s.perform op).room ops)

/-- True of the operation that clears the history. -/
def Operation.isClear : Operation → Bool
  | .clearHistory => true
  | _ => false

section

variable {s : Session} {op : Operation} {ops : List Operation}

theorem find_history (s : Session) (d : Document) (interrupt : Interrupt) :
    (s.find d interrupt).1.history = s.history.recordAll (s.told d interrupt) := by
  rw [find_eq, concluded, told]
  cases (s.trip d interrupt).outcome with
  | found m => rfl
  | notFound => rfl
  | stopped => rfl

theorem select_history (s : Session) (step : Step) :
    (s.select step).1.history = s.history := by
  rw [Session.select]
  split
  · rfl
  · rfl

/-- An operation clears the history, gives it another limit or appends what it records. -/
theorem perform_history (s : Session) (op : Operation) :
    (s.perform op).history = match op with
      | .clearHistory => s.history.cleared
      | .limitHistory limit => s.history.withLimit limit
      | op => s.history.recordAll (s.recorded op) := by
  cases op with
  | select step => exact select_history s step
  | find d interrupt => exact find_history s d interrupt
  | findNext d interrupt => exact find_history (s.turned .forward) d interrupt
  | findPrevious d interrupt => exact find_history (s.turned .backward) d interrupt
  | _ => rfl

theorem perform_bounded (h : s.history.Bounded) (op : Operation) :
    (s.perform op).history.Bounded := by
  rw [perform_history]
  cases op with
  | clearHistory => exact ⟨h.limit_pos, h.limit_le, Nat.zero_le _⟩
  | limitHistory limit =>
    obtain ⟨h_pos, h_le⟩ := s.history.withLimit_limit_mem limit
    exact History.trimmed_bounded h_pos h_le
  | _ => exact h.recordAll _

/-- The lines after an operation are the last ones of those before and those it records. -/
theorem perform_lines (h : s.history.Bounded) (h_op : op.isClear = false) :
    (s.perform op).history.lines =
      (s.history.lines ++ s.recorded op).rtake (s.perform op).history.limit := by
  rw [perform_history]
  cases op with
  | clearHistory => exact absurd h_op (by decide)
  | limitHistory limit =>
    show _ = (s.history.lines ++ []).rtake _
    rw [List.append_nil]
    rfl
  | _ =>
    simp only [History.recordAll_limit]
    exact History.recordAll_lines h.length_le _

theorem room_le (s : Session) (ops : List Operation) : s.room ops ≤ (s.run ops).history.limit := by
  induction ops generalizing s with
  | nil => exact Nat.le_refl _
  | cons op ops ih => exact (Nat.min_le_right _ _).trans (ih (s.perform op))

theorem room_le_add (s : Session) (ops : List Operation) :
    s.room ops ≤ s.history.limit + (s.records ops).length := by
  cases ops with
  | nil => exact Nat.le_refl _
  | cons op ops => exact Nat.min_le_left _ _

theorem run_bounded (h : s.history.Bounded) (ops : List Operation) :
    (s.run ops).history.Bounded := by
  induction ops generalizing s with
  | nil => exact h
  | cons op ops ih => exact ih (perform_bounded h op)

/-- After operations that do not clear it, the history holds the last lines of those before and
    those recorded, as many as there is room for. -/
theorem run_lines (h : s.history.Bounded) (h_ops : ∀ op ∈ ops, op.isClear = false) :
    (s.run ops).history.lines = (s.history.lines ++ s.records ops).rtake (s.room ops) := by
  induction ops generalizing s with
  | nil =>
    rw [records, room, List.append_nil, rtake_of_length_le h.length_le]
    rfl
  | cons op ops ih =>
    rw [List.forall_mem_cons] at h_ops
    have h_rest := ih (perform_bounded h op) h_ops.2
    rw [perform_lines h h_ops.1, rtake_rtake_append (room_le_add _ ops),
      List.append_assoc] at h_rest
    -- the first moment leaves room for all of the lines
    have h_length : (s.history.lines ++ s.records (op :: ops)).length ≤
        s.history.limit + (s.records (op :: ops)).length := by
      rw [List.length_append]
      exact Nat.add_le_add_right h.length_le _
    rw [room, rtake_min_of_length_le h_length]
    exact h_rest

/-! ### The limit -/

theorem perform_limit (s : Session) (h : ∀ limit, op ≠ .limitHistory limit) :
    (s.perform op).history.limit = s.history.limit := by
  rw [perform_history]
  cases op with
  | clearHistory => rfl
  | limitHistory limit => exact absurd rfl (h limit)
  | _ => exact History.recordAll_limit _ _

theorem run_limit (s : Session) (h : ∀ limit, .limitHistory limit ∉ ops) :
    (s.run ops).history.limit = s.history.limit := by
  induction ops generalizing s with
  | nil => rfl
  | cons op ops ih =>
    simp only [List.mem_cons, not_or] at h
    exact (ih (s.perform op) fun limit => (h limit).2).trans
      (perform_limit s fun limit => Ne.symm (h limit).1)

/-- Unless the limit is changed, there is room for as many lines as it says. -/
theorem room_eq_limit (s : Session) (h : ∀ limit, .limitHistory limit ∉ ops) :
    s.room ops = s.history.limit := by
  induction ops generalizing s with
  | nil => rfl
  | cons op ops ih =>
    simp only [List.mem_cons, not_or] at h
    rw [room, ih (s.perform op) fun limit => (h limit).2,
      perform_limit s fun limit => Ne.symm (h limit).1]
    exact Nat.min_eq_right (Nat.le_add_right _ _)

/-! ### From one clearing to the next -/

theorem run_append (s : Session) (ops more : List Operation) :
    s.run (ops ++ more) = (s.run ops).run more := List.foldl_append

theorem perform_cleared (s : Session) (h : op.isClear = true) :
    (s.perform op).history.lines = [] := by
  cases op with
  | clearHistory => rfl
  | _ => exact absurd h (by simp [Operation.isClear])

theorem new_bounded (settings : Settings) : (Session.new settings).history.Bounded := by
  show ({} : History).Bounded
  exact ⟨by decide, by decide, Nat.zero_le _⟩

/-- After the operations up to the last clearing there are no lines. -/
theorem run_cleared (settings : Settings) (ops : List Operation) :
    ((Session.new settings).run (ops.rdropWhile fun op => !op.isClear)).history.lines = [] := by
  induction ops using List.reverseRecOn with
  | nil => rfl
  | append_singleton ops op ih =>
    rw [List.rdropWhile_concat]
    split
    · exact ih
    · rename_i h_op
      rw [run_append]
      exact perform_cleared _ (by simpa using h_op)

/-- After operations on a new session its history holds the last of the lines recorded since the
    last clearing, as many as there is room for. -/
theorem new_run_lines (settings : Settings) (ops : List Operation) :
    let cleared := (Session.new settings).run (ops.rdropWhile fun op => !op.isClear)
    let later := ops.rtakeWhile fun op => !op.isClear
    (Session.new settings).run ops = cleared.run later ∧
      (cleared.run later).history.lines = (cleared.records later).rtake (cleared.room later) := by
  intro cleared later
  constructor
  · rw [← run_append, List.rdropWhile_append_rtakeWhile]
  · have h_later : ∀ op ∈ later, op.isClear = false := by
      intro op h_op
      have h_clear := List.mem_rtakeWhile_imp h_op
      rwa [Bool.not_eq_true'] at h_clear
    have h_bounded : cleared.history.Bounded := run_bounded (new_bounded settings) _
    have h_lines := run_lines h_bounded h_later
    rw [run_cleared, List.nil_append] at h_lines
    exact h_lines

end

end Session

/-- The lines of a search name the pages that it visits behind the start page, and then tell what it
    comes to. -/
theorem Reader.told_text (r : Reader) (d : Document) (interrupt : Interrupt) :
    (r.session.told d interrupt).map HistoryLine.text =
      (r.tour d interrupt).visits.tail.map
          (fun visit => "Trying page ".toList ++ numeral (visit.page + 1)) ++
        [(Session.outcomeLine r.session.query.pattern (r.tour d interrupt).result).text] := by
  rw [Session.told, r.trip_eq_tour, List.map_append, ← List.map_tail, List.map_map, List.map_map]
  rfl

/-- A search with a pattern that can be read, in a document with a page, visits the session's page,
    or the first one if the document does not have that page, and those of the next steps in its
    direction around the document, until it finds a match or is stopped. If it finds nothing, it
    has come to the start page again, so that it has visited this one twice and every other one
    once, and has read each page wholly. It records a line for each page that it goes on to and then
    one for what it comes to. Whatever is done to a session,
    its history holds the most recent of the lines recorded since it was last cleared, as many as
    there has been room for since, which is never more than the limit and is the limit unless that
    was changed; and the limit lies between 1 and 10000. -/
theorem history_tells_tour :
    (∀ (r : Reader) (d : Document) (interrupt : Interrupt) (chain : Chain),
      r.session.query.chain = some chain → 0 < d.pageCount →
      let s := r.session
      let dir := s.query.settings.direction
      let start := if s.page < d.pageCount then s.page else 0
      let visits := (r.tour d interrupt).visits
      let (after, outcome) := s.find d interrupt
      (∃ k ≤ d.pageCount, visits.map Visit.page = (List.range (k + 1)).map (d.pageAt dir start) ∧
        (outcome = .notFound → k = d.pageCount) ∧
        ∀ m, outcome = .found m → m.page = d.pageAt dir start k) ∧
      (outcome = .notFound → ∀ page < d.pageCount,
        (visits.map Visit.page).count page = (if page = start then 2 else 1) ∧
        Visit.whole dir d page ∈ visits) ∧
      after.history = s.history.recordAll (s.told d interrupt) ∧
      (s.told d interrupt).map HistoryLine.text =
        visits.tail.map (fun visit => "Trying page ".toList ++ numeral (visit.page + 1)) ++
          [(Session.outcomeLine s.query.pattern outcome).text]) ∧
    ∀ (settings : Settings) (ops : List Session.Operation),
      let s := (Session.new settings).run ops
      let cleared := (Session.new settings).run (ops.rdropWhile fun op => !op.isClear)
      let later := ops.rtakeWhile fun op => !op.isClear
      s.history.lines = (cleared.records later).rtake (cleared.room later) ∧
      cleared.room later ≤ s.history.limit ∧
      ((∀ limit, .limitHistory limit ∉ later) → cleared.room later = s.history.limit) ∧
      s.history.lines.length ≤ s.history.limit ∧ 1 ≤ s.history.limit ∧ s.history.limit ≤ 10000 := by
  constructor
  · intro r d interrupt chain h_chain h_pages s dir start visits
    -- what the session comes to is what the walk of the reader comes to
    rw [r.session_find d interrupt]
    refine ⟨Reader.tour_visits h_chain h_pages interrupt, fun h_notFound page h_page => ?_, ?_,
      r.told_text d interrupt⟩
    · exact Reader.tour_count h_chain h_pages h_notFound h_page
    · have h_history := s.find_history d interrupt
      rw [r.session_find d interrupt] at h_history
      exact h_history
  · intro settings ops s cleared later
    obtain ⟨h_run, h_lines⟩ : s = cleared.run later ∧ _ := Session.new_run_lines settings ops
    have h_bounded : s.history.Bounded := Session.run_bounded (Session.new_bounded settings) ops
    rw [← h_run] at h_lines
    refine ⟨h_lines, ?_, fun h_limit => ?_, h_bounded.length_le, h_bounded.limit_pos,
      h_bounded.limit_le⟩
    · rw [h_run]
      exact cleared.room_le later
    · rw [h_run, cleared.room_eq_limit h_limit, cleared.run_limit h_limit]

/-- Backward from the second of three pages and nothing found; and a limit that is lowered before a
    search and raised behind it. -/
theorem history_tells_tour_backward :
    let d : Document := .ofFragments [["ab".toList], ["c".toList, "d".toList], ["e".toList]]
    let r := ((Reader.new { direction := .backward }).perform (.setQuery "x".toList)).perform
      (.setPage 1)
    let s := (Session.new {}).run [.setQuery "x".toList, .find d .never, .clearHistory,
      .limitHistory 2, .find d .never, .limitHistory 50]
    (r.tour d .never).visits.map Visit.page = [1, 0, 2, 1] ∧
      Visit.whole .backward d 1 ∈ (r.tour d .never).visits ∧
      s.history.lines = [.trying 0, .notFound "x".toList] := by
  intro d r s
  obtain ⟨chain, h_chain⟩ : ∃ chain, r.session.query.chain = some chain :=
    Option.isSome_iff_exists.1 (by cbv)
  have h_outcome : (r.session.find d .never).2 = .notFound := by cbv
  obtain ⟨h_tour, h_history⟩ := history_tells_tour
  obtain ⟨⟨k, -, h_visits, h_around, -⟩, h_whole, -⟩ :=
    h_tour r d .never chain h_chain (by decide)
  have h_dir : r.session.query.settings.direction = .backward := by cbv
  refine ⟨?_, ?_, ?_⟩
  · rw [h_visits, h_around h_outcome]
    cbv
  · rw [← h_dir]
    exact (h_whole h_outcome 1 (by decide)).2
  · rw [(h_history {} _).1]
    cbv

end PagedSearch
