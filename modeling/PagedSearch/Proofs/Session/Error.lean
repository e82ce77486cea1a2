/-
  PagedSearch.Proofs.Session.Error

  The error that a session keeps for its query. It is set where the pattern is
  read, and it stays right when the direction changes, for a pattern fails
  alike in both directions (`Query.failure?_turned`). Settings under which the
  pattern is not read again drop it: then a session has a query that cannot be
  read and no error (`error_dropped`). In all other sessions it is the error
  of the query (`error_eq_failure?`).
-/
import Mathlib
import PagedSearch.Proofs.Session.Reachable

namespace PagedSearch

/-! ## Queries -/

namespace Query

/-- Why the pattern cannot be read under the settings; nothing if it can. -/
def failure? (q : Query) : Option PatternError :=
  match Chain.compile q.settings q.pattern with
  | .ok _ => none
  | .error e => some e

/-- Taking a pattern tells why it cannot be read. -/
theorem compile_error (q : Query) (pattern : Text) :
    (q.compile pattern).2 = (q.compile pattern).1.failure? := by
  have h_error : (q.compile pattern).2 = { q with pattern }.failure? := by
    rw [Query.compile, failure?]
    cases Chain.compile q.settings pattern with
    | ok chain => rfl
    | error e => rfl
  have h_query : (q.compile pattern).1.failure? = { q with pattern }.failure? := by
    rw [Query.compile]
    cases Chain.compile q.settings pattern with
    | ok chain => rfl
    | error e => rfl
  rw [h_error, h_query]

/-- A pattern fails alike in both directions. -/
theorem failure?_turned (q : Query) (dir : Direction) : (q.turned dir).failure? = q.failure? := by
  by_cases h_dir : q.settings.direction = dir
  · rw [Query.turned, if_pos h_dir]
  · rw [Query.turned, if_neg h_dir, failure?, failure?, Chain.compile_turned q.pattern h_dir]
    cases Chain.compile q.settings q.pattern with
    | ok chain => rfl
    | error e => rfl

/-- Settings that have the pattern read again tell why it cannot be read. -/
theorem withSettings_error {q : Query} {settings : Settings} (h : q.rereads settings = true) :
    (q.withSettings settings).2 = (q.withSettings settings).1.failure? := by
  rw [Query.withSettings, if_pos h]
  exact compile_error _ _

/-- Settings that do not have the pattern read again tell nothing. -/
theorem withSettings_error_none {q : Query} {settings : Settings}
    (h : ¬ q.rereads settings = true) : (q.withSettings settings).2 = none := by
  rw [Query.withSettings, if_neg h]

/-- A pattern that can be read under its settings can be read under settings that do not have it
    read again. -/
theorem failure?_withSettings {q : Query} {settings : Settings} (h : ¬ q.rereads settings = true)
    (h_none : q.failure? = none) : (q.withSettings settings).1.failure? = none := by
  rw [Query.withSettings, if_neg h]
  by_cases h_settings : q.settings = settings
  · subst h_settings
    exact h_none
  · -- only an empty pattern is not read again, and that cannot be read
    have h_pattern : q.pattern = [] := by
      rw [rereads] at h
      simpa [h_settings] using h
    rw [failure?, h_pattern, Chain.compile_nil] at h_none
    exact absurd h_none (by simp)

/-- There is a chain exactly if nothing fails. -/
theorem Compiled.chain_isSome_iff {q : Query} (h : q.Compiled) :
    q.chain.isSome = true ↔ q.failure? = none := by
  rw [Compiled] at h
  rw [h, failure?]
  cases Chain.compile q.settings q.pattern with
  | ok chain => exact iff_of_true rfl rfl
  | error e => exact iff_of_false (by simp [Except.toOption]) (by simp)

end Query

/-! ## Sessions -/

namespace Session

/-- The operations that leave the error right: they do not drop the query, and they configure it
    only while there is no error. -/
def Operation.Spares (s : Session) : Operation → Prop
  | .clear => False
  | .configure _ => s.error = none
  | _ => True

/-- The sessions whose query has been read and not been dropped since. If settings did not have it
    read again, there was no error then, or it has been read after them. -/
inductive Read : Session → Prop where
  | asked {s : Session} (pattern : Text) : s.Reachable → Read (s.perform (.setQuery pattern))
  | reread {s : Session} (settings : Settings) : s.Reachable →
      s.query.rereads settings = true → Read (s.perform (.configure settings))
  | spared {s : Session} (op : Operation) : Read s → op.Spares s → Read (s.perform op)

section

variable {s : Session}

theorem withQuery_error (s : Session) (pattern : Text) :
    (s.withQuery pattern).error = (s.withQuery pattern).query.failure? :=
  s.query.compile_error pattern

/-- Settings leave the error of the query, or none. -/
theorem withSettings_error (s : Session) (settings : Settings) :
    (s.withSettings settings).error =
      if s.query.rereads settings then (s.withSettings settings).query.failure? else none := by
  by_cases h : s.query.rereads settings = true
  · rw [if_pos h]
    exact Query.withSettings_error h
  · rw [if_neg h]
    exact Query.withSettings_error_none h

/-- All other operations keep the error. -/
theorem perform_error {op : Operation} (h : ¬ op.TouchesQuery) :
    (s.perform op).error = s.error := by
  cases op with
  | setQuery pattern => exact absurd trivial h
  | configure settings => exact absurd trivial h
  | clear => exact absurd trivial h
  | select step =>
    show (s.select step).1.error = s.error
    rw [select]
    split
    · rfl
    · rfl
  | find d interrupt => exact find_error s d interrupt
  | findNext d interrupt => exact find_error (s.turned .forward) d interrupt
  | findPrevious d interrupt => exact find_error (s.turned .backward) d interrupt
  | clearSelection => rfl
  | setPage page => rfl
  | rewind d => rfl
  | stop => rfl
  | clearHistory => rfl
  | limitHistory limit => rfl
  | findAll d interrupt => rfl
  | replaceAll d replacement => rfl

/-- They keep what the query fails with as well. -/
theorem perform_failure? {op : Operation} (h : ¬ op.TouchesQuery) :
    (s.perform op).query.failure? = s.query.failure? := by
  obtain ⟨dir, h_query⟩ := perform_query (s := s) h
  rw [h_query, Query.failure?_turned]

/-- A session never has a wrong error. -/
theorem Reachable.error_eq (h : s.Reachable) : s.error = none ∨ s.error = s.query.failure? := by
  induction h with
  | new settings => exact .inl rfl
  | @step s op _ ih =>
    by_cases h_op : op.TouchesQuery
    · cases op with
      | setQuery pattern => exact .inr (s.withQuery_error pattern)
      | configure settings =>
        show (s.withSettings settings).error = none ∨ (s.withSettings settings).error = _
        rw [withSettings_error]
        split
        · exact .inr rfl
        · exact .inl rfl
      | clear => exact .inl rfl
      | _ => exact absurd h_op id
    · rw [perform_error h_op, perform_failure? h_op]
      exact ih

/-- A session whose query has been read has the error of the query. -/
theorem Read.error_eq (h : s.Read) : s.error = s.query.failure? := by
  induction h with
  | @asked s pattern _ => exact s.withQuery_error pattern
  | @reread s settings _ h_rereads =>
    show (s.withSettings settings).error = _
    rw [withSettings_error, if_pos h_rereads]
    rfl
  | @spared s op _ h_spares ih =>
    by_cases h_op : op.TouchesQuery
    · cases op with
      | setQuery pattern => exact s.withQuery_error pattern
      | configure settings =>
        show (s.withSettings settings).error = _
        rw [withSettings_error]
        split
        · rfl
        · -- without an error the pattern can be read, and it stays as it is
          rename_i h_rereads
          have h_none : s.query.failure? = none := ih.symm.trans h_spares
          exact (Query.failure?_withSettings h_rereads h_none).symm
      | clear => exact absurd h_spares id
      | _ => exact absurd h_op id
    · rw [perform_error h_op, perform_failure? h_op]
      exact ih

end

/-- The error of a session is the one that its query fails with, or it has been dropped. It has not
    been dropped where the query has been read; there the query can be searched for exactly if
    there is no error. -/
theorem error_eq_failure? (s : Session) (h_reachable : s.Reachable) :
    (s.error = none ∨ s.error = s.query.failure?) ∧
    (s.Read → s.error = s.query.failure? ∧ (s.query.chain.isSome = true ↔ s.error = none)) := by
  refine ⟨h_reachable.error_eq, ?_⟩
  intro h_read
  refine ⟨h_read.error_eq, ?_⟩
  rw [h_read.error_eq]
  exact h_reachable.compiled.chain_isSome_iff

/-- Dropped by settings that change nothing, the error is back once the pattern is read again,
    and stays when the direction changes. -/
theorem error_eq_failure?_unclosed :
    (((((Session.new { mode := .wildcard }).perform (.setQuery "cA[t".toList)).perform
      (.configure { mode := .wildcard })).perform
      (.configure { mode := .wildcard, caseSensitive := true })).perform
      (.findPrevious (.ofFragments [["cats".toList]]) .never)).error = some (.unclosedSet 2) := by
  have h := error_eq_failure?
    (((((Session.new { mode := .wildcard }).perform (.setQuery "cA[t".toList)).perform
      (.configure { mode := .wildcard })).perform
      (.configure { mode := .wildcard, caseSensitive := true })).perform
      (.findPrevious (.ofFragments [["cats".toList]]) .never))
    (.step _ (.step _ (.step _ (.step _ (.new _)))))
  have h_read := h.2 (.spared _ (.reread _ (.step _ (.step _ (.new _))) (by cbv)) trivial)
  rw [h_read.1]
  cbv

/-- Settings that change nothing drop the error of a query that cannot be read, and so do other
    settings if the pattern is empty. -/
theorem error_dropped :
    let s := ((Session.new { mode := .wildcard }).perform (.setQuery "ca[t".toList)).perform
      (.configure { mode := .wildcard })
    let t := ((Session.new {}).perform (.setQuery [])).perform (.configure { caseSensitive := true })
    (s.Reachable ∧ s.error = none ∧ s.query.failure? = some (.unclosedSet 2) ∧
      s.query.chain.isSome = false) ∧
    t.Reachable ∧ t.error = none ∧ t.query.failure? = some .empty ∧
      t.query.chain.isSome = false := by
  refine ⟨⟨.step _ (.step _ (.new _)), ?_, ?_, ?_⟩, .step _ (.step _ (.new _)), ?_, ?_, ?_⟩
  · cbv
  · cbv
  · cbv
  · cbv
  · cbv
  · cbv

end Session

end PagedSearch
