/-
  PagedSearch.Proofs.Session.Reachable

  What can be done to a session, and the sessions that come of it. Whatever
  is done, the chain of the session's query is the one that its pattern
  compiles to (`Session.Reachable.compiled`): patterns are compiled when they
  or the settings change, and a chain is reversed when the direction does.
-/
import PagedSearch.Proofs.Query
import PagedSearch.Proofs.Session.Walk

namespace PagedSearch

/-! ## Queries -/

/-- The chain of a query belongs to its pattern: an empty pattern has none, and a literal pattern
    has the chain that it compiles to. -/
structure Query.Coherent (q : Query) : Prop where
  chain_of_nil : q.pattern = [] → q.chain = none
  chain_of_literal : q.settings.mode = .literal →
    q.chain = (Chain.compile q.settings q.pattern).toOption

theorem Query.Compiled.coherent {q : Query} (h : q.Compiled) : q.Coherent where
  chain_of_nil h_nil := by
    rw [h.chain_eq_none_iff, h_nil]
    exact ⟨.empty, Chain.compile_nil _⟩
  chain_of_literal _ := h

/-! ## Sessions -/

namespace Session

/-- What can be done to a session. Documents may differ from one operation to the next, and a
    search may be stopped. -/
inductive Operation where
  | setQuery (pattern : Text)
  | configure (settings : Settings)
  | clear
  | select (step : Step)
  | clearSelection
  | setPage (page : Nat)
  | rewind (d : Document)
  | stop
  | clearHistory
  | limitHistory (limit : Nat)
  | find (d : Document) (interrupt : Interrupt)
  | findNext (d : Document) (interrupt : Interrupt)
  | findPrevious (d : Document) (interrupt : Interrupt)
  | findAll (d : Document) (interrupt : Interrupt)
  | replaceAll (d : Document) (replacement : Text)

/-- The session after an operation. -/
def perform (s : Session) : Operation → Session
  | .setQuery pattern => s.withQuery pattern
  | .configure settings => s.withSettings settings
  | .clear => s.cleared
  | .select step => (s.select step).1
  | .clearSelection => s.withoutSelection
  | .setPage page => s.withPage page
  | .rewind d => s.rewound d
  | .stop => s.stop
  | .clearHistory => s.withoutHistory
  | .limitHistory limit => s.withHistoryLimit limit
  | .find d interrupt => (s.find d interrupt).1
  | .findNext d interrupt => (s.findNext d interrupt).1
  | .findPrevious d interrupt => (s.findPrevious d interrupt).1
  | .findAll d interrupt => s.findAll d interrupt
  | .replaceAll d replacement => (s.replaceAll d replacement).1

/-- The sessions that come of operations on a new one. -/
inductive Reachable : Session → Prop where
  | new (settings : Settings) : Reachable (Session.new settings)
  | step {s : Session} (op : Operation) : Reachable s → Reachable (s.perform op)

/-- The operations that take, drop or configure a query. A change of the direction is none. -/
def Operation.TouchesQuery : Operation → Prop
  | .setQuery _ => True
  | .configure _ => True
  | .clear => True
  | _ => False

@[simp] theorem select_query (s : Session) (step : Step) : (s.select step).1.query = s.query := by
  rw [Session.select]
  split
  · rfl
  · rfl

/-- All other operations at most change the direction of the query. -/
theorem perform_query {s : Session} {op : Operation} (h : ¬ op.TouchesQuery) :
    ∃ dir, (s.perform op).query = s.query.turned dir := by
  have h_same : s.query = s.query.turned s.query.settings.direction :=
    (Query.turned_self s.query).symm
  cases op with
  | setQuery pattern => exact absurd trivial h
  | configure settings => exact absurd trivial h
  | clear => exact absurd trivial h
  | select step => exact ⟨_, (select_query s step).trans h_same⟩
  | find d interrupt => exact ⟨_, (find_query s d interrupt).trans h_same⟩
  | findNext d interrupt => exact ⟨.forward, find_query (s.turned .forward) d interrupt⟩
  | findPrevious d interrupt => exact ⟨.backward, find_query (s.turned .backward) d interrupt⟩
  -- the query stays as it is
  | clearSelection => exact ⟨_, h_same⟩
  | setPage page => exact ⟨_, h_same⟩
  | rewind d => exact ⟨_, h_same⟩
  | stop => exact ⟨_, h_same⟩
  | clearHistory => exact ⟨_, h_same⟩
  | limitHistory limit => exact ⟨_, h_same⟩
  | findAll d interrupt => exact ⟨_, h_same⟩
  | replaceAll d replacement => exact ⟨_, h_same⟩

/-- An operation keeps the chain with its pattern. -/
theorem perform_compiled {s : Session} (h : s.query.Compiled) (op : Operation) :
    (s.perform op).query.Compiled := by
  by_cases h_op : op.TouchesQuery
  · cases op with
    | setQuery pattern => exact Query.compile_compiled s.query pattern
    | configure settings => exact h.withSettings settings
    | clear => exact Query.compiled_of_settings s.query.settings
    | _ => exact absurd h_op id
  · obtain ⟨dir, h_query⟩ := perform_query (s := s) h_op
    rw [h_query]
    exact h.turned dir

/-- The chain of every query that a session comes to hold is the one that its pattern compiles
    to. -/
theorem Reachable.compiled {s : Session} (h : s.Reachable) : s.query.Compiled := by
  induction h with
  | new settings => exact Query.compiled_of_settings settings
  | step op _ ih => exact perform_compiled ih op

theorem Reachable.coherent {s : Session} (h : s.Reachable) : s.query.Coherent :=
  h.compiled.coherent

end Session

end PagedSearch
