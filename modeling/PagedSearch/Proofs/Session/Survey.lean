/-
  PagedSearch.Proofs.Session.Survey

  Listing all matches. A reader turns its scanner forward for it and back
  again. What it lists are the matches of its pattern read forward
  (`Settings.forwardMatches`), whichever direction it was searching in,
  because a chain that is reversed is the one that the pattern compiles to in
  the other direction. Afterwards the scanner holds the query that it held
  before, chain and direction included (`findAll_undisturbed`).
-/
import PagedSearch.Proofs.Session.Freshness
import PagedSearch.Proofs.Session.Reader

namespace PagedSearch

/-- What a pattern read forward matches on the pages of a document, from the first to the last. -/
def Settings.forwardMatches (s : Settings) (pattern : Text) (d : Document) : List Match :=
  match Chain.compile (s.turned .forward) pattern with
  | .ok chain => (List.range d.pageCount).flatMap (pageMatches (s.turned .forward) chain d none)
  | .error _ => []

theorem Settings.forwardMatches_turned (s : Settings) (dir : Direction) (pattern : Text)
    (d : Document) : (s.turned dir).forwardMatches pattern d = s.forwardMatches pattern d := rfl

/-- A query whose chain belongs to its pattern lists these matches in either direction. -/
theorem Query.Compiled.listed_eq {q : Query} (h : q.Compiled) (d : Document) :
    q.listed d = q.settings.forwardMatches q.pattern d := by
  have h_forward := h.turned .forward
  rw [Settings.forwardMatches, ← Query.turned_settings, ← Query.turned_pattern q .forward]
  cases h_compile : Chain.compile (q.turned .forward).settings (q.turned .forward).pattern with
  | ok chain => exact Query.listed_eq (h_forward.chain_eq_some_iff.2 h_compile) d
  | error e => exact Query.listed_eq_nil (h_forward.chain_eq_none_iff.2 ⟨e, h_compile⟩) d

namespace Reader

/-- What a reader gives back when it lists all matches. -/
theorem answer_findAll {r : Reader} (h : r.session.query.Compiled) (d : Document) :
    r.answer (.findAll d .never) = .listed
      (.ofList (r.session.query.settings.forwardMatches r.session.query.pattern d)) := by
  rw [r.answer_eq, ← h.listed_eq]
  rfl

/-- The same in another direction. -/
theorem answer_findAll_turned {r : Reader} (h : r.session.query.Compiled) (d : Document)
    (dir : Direction) :
    (r.turned dir).answer (.findAll d .never) = .listed
      (.ofList (r.session.query.settings.forwardMatches r.session.query.pattern d)) := by
  have h_turned : (r.turned dir).session.query = r.session.query.turned dir := rfl
  rw [answer_findAll (h_turned ▸ h.turned dir), h_turned, Query.turned_settings,
    Query.turned_pattern, Settings.forwardMatches_turned]

/-- The same under settings with another direction. -/
theorem answer_findAll_configured {r : Reader} (h : r.session.query.Compiled) (d : Document)
    (dir : Direction) :
    (r.perform (.configure (r.session.query.settings.turned dir))).answer (.findAll d .never) =
      .listed (.ofList (r.session.query.settings.forwardMatches r.session.query.pattern d)) := by
  have h_configured : (r.perform (.configure (r.session.query.settings.turned dir))).session.query =
      (r.session.query.withSettings (r.session.query.settings.turned dir)).1 := rfl
  obtain ⟨h_pattern, h_settings⟩ :=
    r.session.query.withSettings_pattern (r.session.query.settings.turned dir)
  rw [answer_findAll (h_configured ▸ h.withSettings _), h_configured, h_pattern, h_settings,
    Settings.forwardMatches_turned]

end Reader

/-- Whatever was done before, a reader lists the matches of its pattern read forward, in whichever
    direction it is turned or configured to search. Afterwards, also when it was stopped, its
    scanner holds the same settings, pattern and chain as before, and the session has the same
    query, error, selection, page and history. -/
theorem findAll_undisturbed (settings : Settings) (ops : List Session.Operation) (d : Document)
    (interrupt : Interrupt) :
    let r := (Reader.new settings).run ops
    let query := r.session.query
    let listed := Session.Answer.listed (.ofList (query.settings.forwardMatches query.pattern d))
    let after := r.perform (.findAll d interrupt)
    r.answer (.findAll d .never) = listed ∧
    (∀ dir, (r.turned dir).answer (.findAll d .never) = listed ∧
      (r.perform (.configure (query.settings.turned dir))).answer (.findAll d .never) = listed) ∧
    after.scanner.query = r.scanner.query ∧ after.session.query = query ∧
    after.session.error = r.session.error ∧ after.session.selection = r.session.selection ∧
    after.session.page = r.session.page ∧ after.session.history = r.session.history := by
  intro r query listed after
  have h_reachable : r.session.Reachable := by
    rw [Reader.run_session]
    exact Session.Reachable.run (.new settings) ops
  have h_compiled := h_reachable.compiled
  refine ⟨Reader.answer_findAll h_compiled d, ?_, ?_, rfl, rfl, rfl, rfl, rfl⟩
  · intro dir
    exact ⟨Reader.answer_findAll_turned h_compiled d dir,
      Reader.answer_findAll_configured h_compiled d dir⟩
  · -- the scanner is turned forward and back
    exact (r.survey_query d interrupt).trans r.query_eq.symm

end PagedSearch
