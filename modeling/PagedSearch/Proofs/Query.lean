/-
  PagedSearch.Proofs.Query

  The chain of a query belongs to its pattern and its settings
  (`Query.Compiled`): it is what the pattern compiles to under them, and there
  is none if the pattern cannot be read. All that can be done to a query keeps
  it so, also where the pattern is not read again: a chain is reversed when
  the direction changes, and an empty pattern never has one.
-/
import PagedSearch.Proofs.Pattern.Reversal
import PagedSearch.Query

namespace PagedSearch

namespace Query

/-- The chain is what the pattern compiles to. -/
def Compiled (q : Query) : Prop := q.chain = (Chain.compile q.settings q.pattern).toOption

variable {q : Query}

namespace Compiled

theorem chain_eq_some_iff (h : q.Compiled) {chain : Chain} :
    q.chain = some chain ↔ Chain.compile q.settings q.pattern = .ok chain := by
  rw [Compiled] at h
  rw [h]
  cases Chain.compile q.settings q.pattern with
  | ok other => exact ⟨fun h_some => congrArg _ (Option.some.inj h_some),
      fun h_ok => congrArg _ (Except.ok.inj h_ok)⟩
  | error e => exact ⟨fun h_some => absurd h_some (by simp [Except.toOption]),
      fun h_ok => absurd h_ok (by simp)⟩

theorem chain_eq_none_iff (h : q.Compiled) :
    q.chain = none ↔ ∃ e, Chain.compile q.settings q.pattern = .error e := by
  rw [Compiled] at h
  rw [h]
  cases Chain.compile q.settings q.pattern with
  | ok chain => exact ⟨fun h_none => absurd h_none (by simp [Except.toOption]),
      fun ⟨e, h_error⟩ => absurd h_error (by simp)⟩
  | error e => exact ⟨fun _ => ⟨e, rfl⟩, fun _ => rfl⟩

end Compiled

/-- A query without a pattern. -/
theorem compiled_of_settings (settings : Settings) : Compiled { settings } := by
  show none = (Chain.compile settings []).toOption
  rw [Chain.compile_nil]
  rfl

theorem compile_compiled (q : Query) (pattern : Text) : (q.compile pattern).1.Compiled := by
  rw [Query.compile.eq_def]
  cases h : Chain.compile q.settings pattern with
  | ok chain =>
    show some chain = (Chain.compile q.settings pattern).toOption
    rw [h]
    rfl
  | error e =>
    show none = (Chain.compile q.settings pattern).toOption
    rw [h]
    rfl

theorem turned_settings (q : Query) (dir : Direction) :
    (q.turned dir).settings = q.settings.turned dir := by
  rw [Query.turned]
  split
  · rename_i h_dir
    rw [← h_dir, Settings.turned_self]
  · rfl

theorem Compiled.turned (h : q.Compiled) (dir : Direction) : (q.turned dir).Compiled := by
  by_cases h_dir : q.settings.direction = dir
  · rw [Query.turned, if_pos h_dir]
    exact h
  · -- the reversed chain is the one that the pattern compiles to in the other direction
    rw [Query.turned, if_neg h_dir]
    show q.chain.map Chain.reversed = (Chain.compile (q.settings.turned dir) q.pattern).toOption
    rw [Compiled] at h
    rw [h, Chain.compile_turned q.pattern h_dir]
    cases Chain.compile q.settings q.pattern with
    | ok chain => rfl
    | error e => rfl

theorem Compiled.withSettings (h : q.Compiled) (settings : Settings) :
    (q.withSettings settings).1.Compiled := by
  rw [Query.withSettings]
  by_cases h_rereads : q.rereads settings = true
  · rw [if_pos h_rereads]
    exact compile_compiled _ _
  · rw [if_neg h_rereads]
    by_cases h_settings : q.settings = settings
    · -- nothing changes
      subst h_settings
      exact h
    · -- an empty pattern is not read again
      have h_pattern : q.pattern = [] := by
        rw [Query.rereads] at h_rereads
        simpa [h_settings] using h_rereads
      have h_none : q.chain = none := by
        rw [h.chain_eq_none_iff, h_pattern]
        exact ⟨.empty, Chain.compile_nil _⟩
      show q.chain = (Chain.compile settings q.pattern).toOption
      rw [h_none, h_pattern, Chain.compile_nil]
      rfl

end Query

end PagedSearch
