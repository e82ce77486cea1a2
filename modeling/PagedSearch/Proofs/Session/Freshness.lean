/-
  PagedSearch.Proofs.Session.Freshness

  The listed results as a cache of what a listing would give. A session that
  searches one document lists what its pattern matched there under the
  settings of that time, or nothing (`Session.Listed`). Another pattern drops
  the list and another direction does not matter to it
  (`Query.listed_congr`), but other settings keep it although they make it
  stale (`results_stale`). Unless they do, the list is what a listing would
  give now (`results_fresh`).
-/
import Mathlib
import PagedSearch.Proofs.Session.Listing
import PagedSearch.Proofs.Session.Reachable

namespace PagedSearch

/-! ## Queries -/

namespace Query

/-- A pattern that is read under settings. -/
def ofPattern (settings : Settings) (pattern : Text) : Query :=
  (({ settings } : Query).compile pattern).1

@[simp] theorem ofPattern_settings (settings : Settings) (pattern : Text) :
    (ofPattern settings pattern).settings = settings := by
  rw [ofPattern, Query.compile]
  split
  · rfl
  · rfl

@[simp] theorem ofPattern_pattern (settings : Settings) (pattern : Text) :
    (ofPattern settings pattern).pattern = pattern := by
  rw [ofPattern, Query.compile]
  split
  · rfl
  · rfl

theorem ofPattern_compiled (settings : Settings) (pattern : Text) :
    (ofPattern settings pattern).Compiled := compile_compiled _ _

/-- A query whose chain belongs to its pattern is that pattern read under its settings. -/
theorem Compiled.eq_ofPattern {q : Query} (h : q.Compiled) :
    q = ofPattern q.settings q.pattern := by
  obtain ⟨settings, pattern, chain⟩ := q
  rw [Compiled] at h
  simp only at h
  rw [ofPattern, Query.compile, h]
  cases Chain.compile settings pattern with
  | ok chain => rfl
  | error e => rfl

/-- What is listed does not depend on the direction. -/
theorem listed_congr {q q' : Query} (h : q.Compiled) (h' : q'.Compiled)
    (h_pattern : q.pattern = q'.pattern)
    (h_settings : q.settings.turned .forward = q'.settings.turned .forward) (d : Document) :
    q.listed d = q'.listed d := by
  have h_turned : q.turned .forward = q'.turned .forward := by
    rw [(h.turned .forward).eq_ofPattern, (h'.turned .forward).eq_ofPattern, turned_settings,
      turned_settings, turned_pattern, turned_pattern, h_pattern, h_settings]
  rw [← listed_turned q, h_turned, listed_turned q']

theorem withSettings_pattern (q : Query) (settings : Settings) :
    (q.withSettings settings).1.pattern = q.pattern ∧
      (q.withSettings settings).1.settings = settings := by
  rw [Query.withSettings]
  split
  · rw [Query.compile]
    split
    · exact ⟨rfl, rfl⟩
    · exact ⟨rfl, rfl⟩
  · exact ⟨rfl, rfl⟩

end Query

/-! ## Sessions -/

namespace Session

/-- The operations on one document that is not changed, without a stop. -/
def Operation.On (d : Document) : Operation → Prop
  | .rewind d' => d' = d
  | .find d' interrupt => d' = d ∧ interrupt = .never
  | .findNext d' interrupt => d' = d ∧ interrupt = .never
  | .findPrevious d' interrupt => d' = d ∧ interrupt = .never
  | .findAll d' interrupt => d' = d ∧ interrupt = .never
  | .replaceAll _ _ => False
  | .stop => False
  | _ => True

/-- The sessions that come of operations on one document. -/
inductive ReachableOn (d : Document) : Session → Prop where
  | new (settings : Settings) : ReachableOn d (Session.new settings)
  | step {s : Session} (op : Operation) : op.On d → ReachableOn d s → ReachableOn d (s.perform op)

/-- The operations that keep the list right: other settings come while nothing is listed, or they
    differ in the direction only. -/
def Operation.KeepsListed (s : Session) : Operation → Prop
  | .configure settings =>
    s.results.listed = [] ∨ settings.turned .forward = s.query.settings.turned .forward
  | _ => True

/-- The sessions that come of such operations. -/
inductive Steady (d : Document) : Session → Prop where
  | new (settings : Settings) : Steady d (Session.new settings)
  | step {s : Session} (op : Operation) : op.On d → op.KeepsListed s → Steady d s →
      Steady d (s.perform op)

/-- Nothing is listed, or what the pattern matches in the document under some settings. -/
def Listed (s : Session) (d : Document) (settings : Settings) : Prop :=
  s.results.listed = [] ∨
    s.results.listed = (Query.ofPattern settings s.query.pattern).listed d

section

variable {s : Session} {d : Document}

theorem ReachableOn.reachable (h : s.ReachableOn d) : s.Reachable := by
  induction h with
  | new settings => exact .new settings
  | step op _ _ ih => exact .step op ih

theorem Steady.reachableOn (h : s.Steady d) : s.ReachableOn d := by
  induction h with
  | new settings => exact .new settings
  | step op h_on _ _ ih => exact .step op h_on ih

@[simp] theorem step_listed (r : Results) (step : Step) : (r.step step).1.listed = r.listed := by
  rw [Results.step]
  split
  · rfl
  · split
    · rfl
    · rfl

/-- Only taking a pattern, clearing and listing change what is listed. -/
theorem perform_listed {op : Operation} (h_on : op.On d) :
    (s.perform op).results.listed = s.results.listed ∨ (s.perform op).results.listed = [] ∨
      op = .findAll d .never := by
  cases op with
  | setQuery pattern => exact .inr (.inl rfl)
  | clear => exact .inr (.inl rfl)
  | select step =>
    left
    show (s.select step).1.results.listed = s.results.listed
    rw [select]
    split
    · rename_i h_step
      rw [← step_listed s.results step, h_step]
    · rename_i h_step
      rw [← step_listed s.results step, h_step]
  | find d' interrupt => exact .inl (congrArg Results.listed (find_results s d' interrupt))
  | findNext d' interrupt =>
    exact .inl (congrArg Results.listed (find_results (s.turned .forward) d' interrupt))
  | findPrevious d' interrupt =>
    exact .inl (congrArg Results.listed (find_results (s.turned .backward) d' interrupt))
  | findAll d' interrupt =>
    obtain ⟨rfl, rfl⟩ := h_on
    exact .inr (.inr rfl)
  | replaceAll d' replacement => exact absurd h_on id
  | stop => exact absurd h_on id
  -- the results stay as they are
  | configure settings => exact .inl rfl
  | clearSelection => exact .inl rfl
  | setPage page => exact .inl rfl
  | rewind d' => exact .inl rfl
  | clearHistory => exact .inl rfl
  | limitHistory limit => exact .inl rfl

/-- Pattern and settings stay but for the direction, unless the pattern changes and nothing is
    listed any more. -/
theorem perform_pattern (op : Operation) :
    (s.perform op).results.listed = [] ∨ (s.perform op).query.pattern = s.query.pattern ∧
      ((s.perform op).query.settings.turned .forward = s.query.settings.turned .forward ∨
        ∃ settings, op = .configure settings) := by
  by_cases h_op : op.TouchesQuery
  · cases op with
    | setQuery pattern => exact .inl rfl
    | configure settings =>
      exact .inr ⟨(s.query.withSettings_pattern settings).1, .inr ⟨settings, rfl⟩⟩
    | clear => exact .inl rfl
    | _ => exact absurd h_op id
  · obtain ⟨dir, h_query⟩ := perform_query (s := s) h_op
    rw [h_query, Query.turned_pattern, Query.turned_settings]
    exact .inr ⟨rfl, .inl rfl⟩

/-- The direction does not matter to what is listed. -/
theorem Listed.congr {settings settings' : Settings} (h : s.Listed d settings)
    (h_settings : settings.turned .forward = settings'.turned .forward) :
    s.Listed d settings' := by
  have h_congr : (Query.ofPattern settings s.query.pattern).listed d =
      (Query.ofPattern settings' s.query.pattern).listed d := by
    refine Query.listed_congr (Query.ofPattern_compiled _ _) (Query.ofPattern_compiled _ _) ?_ ?_ d
    · rw [Query.ofPattern_pattern, Query.ofPattern_pattern]
    · rw [Query.ofPattern_settings, Query.ofPattern_settings, h_settings]
  rcases h with h_nil | h_listed
  · exact .inl h_nil
  · exact .inr (h_listed.trans h_congr)

/-- After an operation the list is right under the settings under which it was, or it is new. -/
theorem Listed.perform {settings : Settings} {op : Operation} (h : s.Listed d settings)
    (h_reachable : s.Reachable) (h_on : op.On d) :
    (s.perform op).Listed d settings ∨ (s.perform op).Listed d (s.perform op).query.settings := by
  rcases perform_listed h_on with h_same | h_nil | rfl
  · left
    rcases s.perform_pattern op with h_nil | ⟨h_pattern, -⟩
    · exact .inl h_nil
    · rw [Listed, h_same, h_pattern]
      exact h
  · exact .inl (.inl h_nil)
  · -- a listing lists what its query matches
    right
    right
    rw [← (h_reachable.step (.findAll d .never)).compiled.eq_ofPattern]
    exact s.findAll_listed d

/-- A session lists what its pattern has matched under some settings. -/
theorem ReachableOn.exists_listed (h : s.ReachableOn d) : ∃ settings, s.Listed d settings := by
  induction h with
  | new settings => exact ⟨settings, .inl rfl⟩
  | step op h_on h_s ih =>
    obtain ⟨settings, h_listed⟩ := ih
    rcases h_listed.perform h_s.reachable h_on with h | h
    · exact ⟨_, h⟩
    · exact ⟨_, h⟩

/-- Where no settings make the list stale, it is right under the settings of the session. -/
theorem Steady.listed (h : s.Steady d) : s.Listed d s.query.settings := by
  induction h with
  | new settings => exact .inl rfl
  | @step s op h_on h_keeps h_s ih =>
    rcases ih.perform h_s.reachableOn.reachable h_on with h | h
    · rcases s.perform_pattern op with h_nil | ⟨-, h_settings | ⟨settings, rfl⟩⟩
      · exact .inl h_nil
      · exact h.congr h_settings.symm
      · rcases h_keeps with h_nil | h_settings
        · exact .inl h_nil
        · apply h.congr
          rw [← h_settings]
          exact congrArg (·.turned .forward) (s.query.withSettings_pattern settings).2.symm
    · exact h

end

/-- A session that searches one document lists nothing or what its pattern has matched there under
    some settings. Unless other settings came while something was listed, and differed in more
    than the direction, that is what a listing would give now. -/
theorem results_fresh (s : Session) (d : Document) (h_reachable : s.ReachableOn d) :
    (∃ settings, s.results.listed = [] ∨
      s.results.listed = (Query.ofPattern settings s.query.pattern).listed d) ∧
    (s.Steady d → s.results.listed = [] ∨
      s.results.listed = (s.findAll d .never).results.listed) := by
  refine ⟨h_reachable.exists_listed, ?_⟩
  intro h_steady
  rw [s.findAll_listed]
  rcases h_steady.listed with h_nil | h_listed
  · exact .inl h_nil
  · rw [← h_reachable.reachable.compiled.eq_ofPattern] at h_listed
    exact .inr h_listed

/-- The list is right after steps in both directions and settings with another direction. -/
theorem results_fresh_stepped :
    let d : Document := .ofFragments [["ab".toList, "Ac".toList], ["a".toList]]
    let s := (((((Session.new { mode := .wildcard }).perform (.setQuery "a.".toList)).perform
      (.findAll d .never)).perform (.select .next)).perform (.findPrevious d .never)).perform
        (.configure { mode := .wildcard })
    s.results.listed = [⟨0, ⟨0, 0⟩, ⟨0, 1⟩⟩, ⟨0, ⟨1, 0⟩, ⟨1, 1⟩⟩] ∧
      (s.findAll d .never).results.listed = s.results.listed := by
  intro d s
  have h_steady : s.Steady d :=
    .step _ trivial (.inr (by cbv)) (.step _ ⟨rfl, rfl⟩ trivial (.step _ trivial trivial
      (.step _ ⟨rfl, rfl⟩ trivial (.step _ trivial trivial (.new _)))))
  have h_two : s.results.listed = [⟨0, ⟨0, 0⟩, ⟨0, 1⟩⟩, ⟨0, ⟨1, 0⟩, ⟨1, 1⟩⟩] := by cbv
  refine ⟨h_two, ?_⟩
  rcases (results_fresh s d h_steady.reachableOn).2 h_steady with h_nil | h_fresh
  · rw [h_nil] at h_two
    exact absurd h_two (by simp)
  · exact h_fresh.symm

/-- Settings under which letter case counts keep a list in which it does not. -/
theorem results_stale :
    let d : Document := .ofFragments [["Aa".toList]]
    let s := (((Session.new {}).perform (.setQuery "a".toList)).perform (.findAll d .never)).perform
      (.configure { caseSensitive := true })
    s.ReachableOn d ∧ s.results.listed = [⟨0, ⟨0, 0⟩, ⟨0, 0⟩⟩, ⟨0, ⟨0, 1⟩, ⟨0, 1⟩⟩] ∧
      (s.findAll d .never).results.listed = [⟨0, ⟨0, 1⟩, ⟨0, 1⟩⟩] := by
  refine ⟨.step _ trivial (.step _ ⟨rfl, rfl⟩ (.step _ trivial (.new _))), ?_, ?_⟩
  · cbv
  · cbv

end Session

end PagedSearch
