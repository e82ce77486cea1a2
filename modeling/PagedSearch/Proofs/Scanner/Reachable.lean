/-
  PagedSearch.Proofs.Scanner.Reachable

  What can be done to a scanner, and the scanners that come of it. Whatever is
  done in whatever order, the scanner's chain is the one that its pattern
  compiles to under its settings, state for state, and it has none exactly if
  the pattern does not compile (`reachable_chain`).
-/
import Mathlib
import PagedSearch.Proofs.Query
import PagedSearch.Scanner

namespace PagedSearch

namespace Scanner

/-- What can be done to a scanner. -/
inductive Operation where
  | compile (pattern : Text)
  | configure (settings : Settings)
  | turn (d : Direction)
  | reset
  | feed (fragment : Text)
  | advance

/-- The scanner after an operation. Asking for a match without a compiled pattern changes
    nothing. -/
def perform (s : Scanner) : Operation → Scanner
  | .compile pattern => (s.compile pattern).1
  | .configure settings => (s.withSettings settings).1
  | .turn d => s.turned d
  | .reset => s.reset
  | .feed fragment => s.feed fragment
  | .advance =>
    match s.advance? with
    | some (next, _) => next
    | none => s

/-- The scanners that come of operations on a new one. -/
inductive Reachable : Scanner → Prop where
  | new (settings : Settings) : Reachable (Scanner.new settings)
  | step {s : Scanner} (op : Operation) : Reachable s → Reachable (s.perform op)

section

variable {s : Scanner}

theorem withSettings_query (s : Scanner) (settings : Settings) :
    (s.withSettings settings).1.query = (s.query.withSettings settings).1 := by
  rw [Scanner.withSettings]
  simp only
  split
  · rfl
  · rfl

theorem turned_query (s : Scanner) (d : Direction) : (s.turned d).query = s.query.turned d := by
  rw [Scanner.turned, Query.turned]
  split
  · rfl
  · rfl

/-- Reading keeps the query. -/
theorem advance?_query {next : Scanner} {span : Option (Span Place)}
    (h : s.advance? = some (next, span)) : next.query = s.query := by
  rw [advance?, Option.map_eq_some_iff] at h
  obtain ⟨chain, -, h_eq⟩ := h
  rw [← (Prod.mk.inj h_eq).1]

/-- An operation keeps the chain with its pattern. -/
theorem perform_compiled (h : s.query.Compiled) (op : Operation) :
    (s.perform op).query.Compiled := by
  cases op with
  | compile pattern => exact Query.compile_compiled s.query pattern
  | configure settings =>
    show (s.withSettings settings).1.query.Compiled
    rw [withSettings_query]
    exact h.withSettings settings
  | turn d =>
    show (s.turned d).query.Compiled
    rw [turned_query]
    exact h.turned d
  | reset => exact h
  | feed fragment => exact h
  | advance =>
    rw [perform]
    split
    · rename_i h_advance
      rw [advance?_query h_advance]
      exact h
    · exact h

theorem Reachable.compiled (h : s.Reachable) : s.query.Compiled := by
  induction h with
  | new settings => exact Query.compiled_of_settings settings
  | step op _ ih => exact perform_compiled ih op

end

end Scanner

/-- Of every scanner that operations lead to, the chain is the one that the pattern compiles to,
    and there is none exactly if the pattern does not compile. -/
theorem reachable_chain (s : Scanner) (h_reachable : s.Reachable) :
    (∀ chain, s.query.chain = some chain ↔
      Chain.compile s.query.settings s.query.pattern = .ok chain) ∧
    (s.query.chain = none ↔
      ∃ e, Chain.compile s.query.settings s.query.pattern = .error e) :=
  ⟨fun _ => h_reachable.compiled.chain_eq_some_iff, h_reachable.compiled.chain_eq_none_iff⟩

/-- A repetition behind a set, turned around in the middle of a match after the settings have
    changed. -/
theorem reachable_chain_turned :
    ((((((Scanner.new { mode := .wildcard }).perform (.compile "[a-c]X*-.".toList)).perform
      (.feed "bxx".toList)).perform .advance).perform
      (.configure { mode := .wildcard, hyphenTolerant := true })).perform
      (.turn .backward)).query.chain =
    some ⟨[.any, .many (.char 'x'), .set ⟨[⟨'a', 'c', by decide⟩]⟩], [0, 0, 0], rfl, rfl,
      by decide +kernel⟩ := by
  have h := reachable_chain
    ((((((Scanner.new { mode := .wildcard }).perform (.compile "[a-c]X*-.".toList)).perform
      (.feed "bxx".toList)).perform .advance).perform
      (.configure { mode := .wildcard, hyphenTolerant := true })).perform (.turn .backward))
    (.step _ (.step _ (.step _ (.step _ (.step _ (.new _))))))
  exact (h.1 _).2 (by cbv)

end PagedSearch
