/-
  PagedSearch.Proofs.Session.Return

  A search in one direction and the search back. Where no two occurrences on
  a page overlap, of two occurrences on a page one lies wholly ahead of the
  other in a direction (`Direction.Follows`), and in the other direction it is
  the other way round. Pages that are counted on in one direction are counted
  back in the other (`pageAt_opposite`). So what a search finds is a match
  from which the search in the other direction seeks the match that the first
  one went on from (`Sought.back`): a search is undone by the search back
  (`findNext_findPrevious`).
-/
import PagedSearch.Proofs.Session.Find

namespace PagedSearch

/-! ## Directions -/

/-- No character from the first to the last of one match is one of the other, both being on one
    page. -/
def Match.Apart (m n : Match) : Prop := m.last.Before n.first ∨ n.last.Before m.first

namespace Direction

/-- The other direction. -/
def opposite : Direction → Direction
  | .forward => .backward
  | .backward => .forward

/-- In this direction the second match lies wholly ahead of the first, both being on one page. -/
def Follows (dir : Direction) (m n : Match) : Prop :=
  match dir with
  | .forward => m.last.Before n.first
  | .backward => n.last.Before m.first

section

variable {dir : Direction} {m n : Match}

theorem follows_opposite_iff : dir.opposite.Follows n m ↔ dir.Follows m n := by
  cases dir with
  | forward => exact Iff.rfl
  | backward => exact Iff.rfl

theorem follows_or_follows (h : m.Apart n) : dir.Follows m n ∨ dir.Follows n m := by
  cases dir with
  | forward => exact h
  | backward => exact h.symm

/-- What lies ahead is no nearer. -/
theorem noFarther_of_follows (h : dir.Follows m n) (h_m : m.first.le m.last = true) :
    dir.NoFarther m n := by
  cases dir with
  | forward => exact Point.le_trans h_m (Point.Before.le h)
  | backward => exact Point.le_trans (Point.Before.le h) h_m

theorem not_noFarther_of_follows (h : dir.Follows m n) (h_m : m.first.le m.last = true) :
    ¬ dir.NoFarther n m := by
  rw [Point.le_iff] at h_m
  cases dir with
  | forward =>
    have h_before : m.last.Before n.first := h
    show ¬ n.first.le m.first = true
    rw [Point.before_iff] at h_before
    rw [Point.le_iff]
    omega
  | backward =>
    have h_before : n.last.Before m.first := h
    show ¬ m.last.le n.last = true
    rw [Point.before_iff] at h_before
    rw [Point.le_iff]
    omega

end

end Direction

/-- From the page that `k` steps lead to, `i` steps back lead to where `k - i` steps lead. -/
theorem pageAt_opposite {d : Document} {dir : Direction} {page i k : Nat} (h_ik : i ≤ k)
    (h_k : k ≤ d.pageCount) :
    d.pageAt dir.opposite (d.pageAt dir page k) i = d.pageAt dir page (k - i) := by
  cases dir with
  | forward =>
    show ((page + k) % d.pageCount + (d.pageCount - i)) % d.pageCount =
      (page + (k - i)) % d.pageCount
    rw [Nat.mod_add_mod, show page + k + (d.pageCount - i) = page + (k - i) + d.pageCount by omega,
      Nat.add_mod_right]
  | backward =>
    show ((page + (d.pageCount - k)) % d.pageCount + i) % d.pageCount =
      (page + (d.pageCount - (k - i))) % d.pageCount
    rw [Nat.mod_add_mod, show page + (d.pageCount - k) + i = page + (d.pageCount - (k - i)) by
      omega]

namespace Session

/-! ## What is sought on the way back -/

section

variable {s t : Session} {d : Document} {m n : Match}

/-- Ahead of a selection on their page are the matches that follow it. -/
theorem ahead_iff_follows (h_selection : s.selection = some m) (h_page : m.page = n.page) :
    s.Ahead n ↔ s.query.settings.direction.Follows m n := by
  rw [Ahead, h_selection, Direction.Follows.eq_def]
  constructor
  · intro h
    exact h m rfl h_page
  · intro h sel h_sel _
    rw [← Option.some.inj h_sel]
    exact h

/-- No two occurrences of the session's pattern on a page overlap. -/
def OccursApart (s : Session) (d : Document) : Prop :=
  ∀ m n, s.Occurs d m → s.Occurs d n → m.page = n.page → m ≠ n → m.Apart n

/-- A session that has the match selected and starts on its page. -/
structure Stands (s : Session) (d : Document) (m : Match) : Prop where
  occurs : s.Occurs d m
  page_lt : m.page < d.pageCount
  selection : s.selection = some m
  page : s.page = m.page

theorem Stands.startPage (h : s.Stands d m) : s.startPage d = m.page := by
  rw [Session.startPage, h.page, if_pos h.page_lt]

/-- Which way a session goes does not matter to what occurs. -/
theorem occurs_turned (dir : Direction) (h_turn : t.query = s.query.turned dir) :
    t.Occurs d m ↔ s.Occurs d m := by
  rw [Occurs, Occurs, h_turn, Query.turned_settings, Query.turned_pattern]
  exact Iff.rfl

theorem Stands.ahead_iff {dir : Direction} (h : s.Stands d m)
    (h_dir : s.query.settings.direction = dir) (h_page : m.page = n.page) :
    s.Ahead n ↔ dir.Follows m n := by
  rw [ahead_iff_follows h.selection h_page, h_dir]

/-- If from `m` a search seeks `n`, then from `n` the search in the other direction seeks `m`. -/
theorem SoughtFrom.back {dir : Direction} (h_dir : s.query.settings.direction = dir)
    (h_turn : t.query = s.query.turned dir.opposite) (h_apart : s.OccursApart d)
    (h_s : s.Stands d m) (h_t : t.Stands d n) (h : s.SoughtFrom d m.page n) :
    t.SoughtFrom d n.page m := by
  have h_t_dir : t.query.settings.direction = dir.opposite := by
    rw [h_turn, Query.turned_direction]
  have h_occurs : ∀ {k : Match}, t.Occurs d k ↔ s.Occurs d k := occurs_turned _ h_turn
  have h_m_le : m.first.le m.last = true := first_le_last_of_occurs h_s.occurs
  have h_m : t.Occurs d m := h_occurs.2 h_s.occurs
  -- in front of `m` on its page, nothing is nearer to what lies ahead of it
  have h_nearest : ∀ k, t.Occurs d k → k.page = m.page → ¬ dir.Follows m k →
      dir.opposite.NoFarther m k := by
    intro k h_k h_page h_not
    by_cases h_eq : m = k
    · exact noFarther_of_eq h_eq
    · have h_sides : dir.Follows m k ∨ dir.Follows k m :=
        Direction.follows_or_follows (h_apart m k h_s.occurs (h_occurs.1 h_k) h_page.symm h_eq)
      have h_back : dir.opposite.Follows m k :=
        Direction.follows_opposite_iff.2 (h_sides.resolve_left h_not)
      exact Direction.noFarther_of_follows h_back h_m_le
  cases h with
  | ahead h_n h_page h_ahead h_first =>
    rw [h_dir] at h_first
    have h_follows := (h_s.ahead_iff h_dir h_page.symm).1 h_ahead
    have h_back := Direction.follows_opposite_iff.2 h_follows
    refine .ahead h_m h_page.symm ((h_t.ahead_iff h_t_dir h_page).2 h_back) ?_
    intro k h_k h_k_page h_k_ahead
    rw [h_t_dir]
    refine h_nearest k h_k (h_k_page.trans h_page) ?_
    -- between `m` and `n` there is no occurrence
    intro h_m_k
    have h_k_le : k.first.le k.last = true := first_le_last_of_occurs h_k
    have h_k_n : dir.Follows k n :=
      Direction.follows_opposite_iff.1 ((h_t.ahead_iff h_t_dir h_k_page.symm).1 h_k_ahead)
    have h_k_m := h_k_page.trans h_page
    exact Direction.not_noFarther_of_follows h_k_n h_k_le (h_first k (h_occurs.1 h_k) h_k_m
      ((h_s.ahead_iff h_dir h_k_m.symm).2 h_m_k))
  | around k h_absent h_pos h_le h_n h_page h_first h_between =>
    rw [h_dir] at h_page h_first h_between
    have h_back : ∀ {i}, i ≤ k →
        d.pageAt t.query.settings.direction n.page i = d.pageAt dir m.page (k - i) := by
      intro i h_i
      rw [h_t_dir, h_page]
      exact pageAt_opposite h_i h_le
    refine .around k ?_ h_pos h_le h_m ?_ ?_ ?_
    · -- `n` is the first one on its page
      intro j h_j h_j_page h_j_ahead
      have h_j_le : j.first.le j.last = true := first_le_last_of_occurs h_j
      have h_j_n : dir.Follows j n :=
        Direction.follows_opposite_iff.1 ((h_t.ahead_iff h_t_dir h_j_page.symm).1 h_j_ahead)
      exact Direction.not_noFarther_of_follows h_j_n h_j_le
        (h_first j (h_occurs.1 h_j) h_j_page)
    · rw [h_back (Nat.le_refl k), Nat.sub_self, pageAt_zero h_s.page_lt]
    · -- nothing lies ahead of `m` on its page
      intro j h_j h_j_page
      rw [h_t_dir]
      refine h_nearest j h_j h_j_page ?_
      intro h_m_j
      exact h_absent j (h_occurs.1 h_j) h_j_page ((h_s.ahead_iff h_dir h_j_page.symm).2 h_m_j)
    · intro i h_i h_lt j h_j
      rw [h_back (Nat.le_of_lt h_lt)]
      exact h_between (k - i) (by omega) (by omega) j (h_occurs.1 h_j)

/-- A session that stands on a match starts its search from the page of the match. -/
theorem Stands.sought_iff (h : s.Stands d m) : s.Sought d n ↔ s.SoughtFrom d m.page n := by
  rw [Session.sought_iff, h.startPage]

end

/-! ## There and back -/

section

variable {s : Session} {d : Document} {m : Match}

/-- A session with an occurrence has a chain for its pattern. -/
theorem exists_chain_of_occurs (h_compiled : s.query.Compiled)
    (h_mode : s.query.settings.mode = .literal) (h : s.Occurs d m) :
    ∃ chain, s.query.chain = some chain ∧
      chain.Spells (s.query.settings.word s.query.pattern) := by
  obtain ⟨chain, h_compiles⟩ :=
    (Chain.exists_compile_literal_iff h_mode).2 (significantOf_ne_nil_of_occurs h)
  exact ⟨chain, h_compiled.chain_eq_some_iff.2 h_compiles,
    Chain.spells_of_compile h_mode h_compiles⟩

/-- Where the pattern occurs, a search finds what is sought, and selects it. -/
theorem find_of_occurs (h_compiled : s.query.Compiled)
    (h_mode : s.query.settings.mode = .literal) (h : s.Occurs d m) :
    (∃ n, s.Sought d n) ∧ ∀ n, (s.find d .never).2 = .found n ↔ s.Sought d n := by
  obtain ⟨chain, h_chain, h_spells⟩ := exists_chain_of_occurs h_compiled h_mode h
  have h_outcome := find_outcome h_chain d
  cases h_head : (s.upcoming chain d).head? with
  | none =>
    -- the pattern does occur
    have h_absent := (upcoming_eq_nil_iff h_spells).1 (List.head?_eq_none_iff.1 h_head)
    exact absurd h (h_absent m)
  | some n =>
    rw [h_head] at h_outcome
    refine ⟨⟨n, (head?_upcoming_iff h_spells).1 h_head⟩, ?_⟩
    intro n'
    rw [h_outcome, ← head?_upcoming_iff h_spells, h_head, Outcome.ofOption, Outcome.found.injEq,
      Option.some.injEq]

theorem OccursApart.turned (h : s.OccursApart d) (dir : Direction) :
    (s.turned dir).OccursApart d := by
  intro m n h_m h_n
  exact h m n ((occurs_turned dir rfl).1 h_m) ((occurs_turned dir rfl).1 h_n)

theorem Stands.turned (h : s.Stands d m) (dir : Direction) : (s.turned dir).Stands d m where
  occurs := (occurs_turned dir rfl).2 h.occurs
  page_lt := h.page_lt
  selection := h.selection
  page := h.page

/-- A search that starts from an occurrence finds one, from which the search in the other direction
    finds the first one again. -/
theorem find_back {dir : Direction} (h_compiled : s.query.Compiled)
    (h_mode : s.query.settings.mode = .literal) (h_dir : s.query.settings.direction = dir)
    (h_apart : s.OccursApart d) (h_s : s.Stands d m) :
    (((s.find d .never).1.turned dir.opposite).find d .never).2 = .found m := by
  obtain ⟨⟨n, h_sought⟩, h_found⟩ := find_of_occurs h_compiled h_mode h_s.occurs
  obtain ⟨h_selection, h_page⟩ := find_found ((h_found n).2 h_sought)
  have h_turn : ((s.find d .never).1.turned dir.opposite).query =
      s.query.turned dir.opposite := by
    show (s.find d .never).1.query.turned dir.opposite = _
    rw [find_query]
  obtain ⟨chain, -, h_spells⟩ := exists_chain_of_occurs h_compiled h_mode h_s.occurs
  have h_t : ((s.find d .never).1.turned dir.opposite).Stands d n :=
    ⟨(occurs_turned _ h_turn).2 h_sought.occurs, page_lt_of_occurs h_spells h_sought.occurs,
      h_selection, h_page⟩
  have h_back := h_t.sought_iff.2
    ((h_s.sought_iff.1 h_sought).back h_dir h_turn h_apart h_s h_t)
  have h_t_mode : ((s.find d .never).1.turned dir.opposite).query.settings.mode = .literal := by
    rw [h_turn, Query.turned_settings]
    exact h_mode
  exact ((find_of_occurs (h_turn ▸ h_compiled.turned _) h_t_mode h_back.occurs).2 m).2 h_back

end

/-! ## Patterns that do not overlap themselves -/

/-- A pattern no end of which is also a beginning of it does not overlap itself. -/
theorem occursApart_of_unbordered {s : Session} {d : Document}
    (h : ∀ k < (s.query.settings.significantOf s.query.pattern).length, 0 < k →
      ¬ (s.query.settings.significantOf s.query.pattern).drop k <+:
        s.query.settings.significantOf s.query.pattern) : s.OccursApart d := by
  -- of two occurrences the one further left ends before the other begins
  have h_left : ∀ {span span' : Span Point} {before part behind before' part' behind'}
      {fragments : List Text},
      Occurrence (s.query.settings.significantOf s.query.pattern)
        (s.query.settings.significantOn fragments) before part behind →
      Occurrence (s.query.settings.significantOf s.query.pattern)
        (s.query.settings.significantOn fragments) before' part' behind' →
      span.Delimits part → span'.Delimits part' → before.length < before'.length →
      span.last.Before span'.first := by
    intro span span' before part behind before' part' behind' fragments h_occ h_occ' h_span h_span'
      h_lt
    refine h_occ.last_lt_first (significantOn_pairwise _ _) h_occ' h_span h_span' ?_
    by_contra h_reaches
    refine h (before'.length - before.length) (by omega) (by omega) ?_
    exact h_occ.drop_prefix h_occ' (by omega) (by omega)
  intro m n h_m h_n h_page h_ne
  obtain ⟨before, part, behind, h_occ, h_span⟩ := h_m
  obtain ⟨before', part', behind', h_occ', h_span'⟩ := h_n
  rw [← h_page] at h_occ'
  rcases Nat.lt_trichotomy before.length before'.length with h_lt | h_eq | h_lt
  · exact .inl (h_left h_occ h_occ' h_span h_span' h_lt)
  · -- as much stands in front of both, so they are one
    rw [h_occ.part_unique h_occ' h_eq] at h_span
    have h_same := h_span.unique h_span'
    rw [Span.mk.injEq] at h_same
    refine absurd ?_ h_ne
    cases m
    cases n
    rw [Match.mk.injEq]
    exact ⟨h_page, h_same⟩
  · exact .inr (h_left h_occ' h_occ h_span' h_span h_lt)

end Session

/-- Where no two occurrences of a literal pattern on a page overlap, a step to the next match and a
    step to the previous one undo each other. -/
theorem findNext_findPrevious (s : Session) (d : Document) (m : Match) (h_reachable : s.Reachable)
    (h_mode : s.query.settings.mode = .literal) (h_apart : s.OccursApart d)
    (h_selection : s.selection = some m) (h_page : s.page = m.page) (h_occurs : s.Occurs d m) :
    ((s.findNext d .never).1.findPrevious d .never).2 = .found m ∧
      ((s.findPrevious d .never).1.findNext d .never).2 = .found m := by
  have h_compiled := h_reachable.compiled
  obtain ⟨chain, -, h_spells⟩ := Session.exists_chain_of_occurs h_compiled h_mode h_occurs
  have h_stands : s.Stands d m :=
    ⟨h_occurs, Session.page_lt_of_occurs h_spells h_occurs, h_selection, h_page⟩
  -- both ways are a search in a direction and the search back
  have h_back : ∀ dir : Direction,
      ((((s.turned dir).find d .never).1.turned dir.opposite).find d .never).2 = .found m := by
    intro dir
    have h_settings := s.query.turned_settings dir
    have h_turned_mode : (s.turned dir).query.settings.mode = .literal :=
      (congrArg Settings.mode h_settings).trans h_mode
    exact Session.find_back (h_compiled.turned dir) h_turned_mode
      (Query.turned_direction s.query dir) (h_apart.turned dir) (h_stands.turned dir)
  exact ⟨h_back .forward, h_back .backward⟩

/-- From the last occurrence, which lies over a cut, around the document and back. -/
theorem findNext_findPrevious_around :
    let d := Document.ofFragments [["ab ab".toList], [], ["x a".toList, "b".toList]]
    let m : Match := ⟨2, ⟨0, 2⟩, ⟨1, 0⟩⟩
    let s := (((Session.new {}).perform (.setQuery "ab".toList)).perform (.setPage 2)).perform
      (.find d .never)
    ((s.findNext d .never).1.findPrevious d .never).2 = .found m ∧
      ((s.findPrevious d .never).1.findNext d .never).2 = .found m := by
  intro d m s
  have h_word : s.query.settings.significantOf s.query.pattern = "ab".toList := by cbv
  refine findNext_findPrevious s d m (.step _ (.step _ (.step _ (.new _)))) (by cbv) ?_ (by cbv)
    (by cbv) ?_
  · refine Session.occursApart_of_unbordered ?_
    rw [h_word]
    decide
  · refine ⟨[('x', ⟨0, 0⟩)], [('a', ⟨0, 2⟩), ('b', ⟨1, 0⟩)], [], ⟨by cbv, ?_⟩, rfl, rfl⟩
    rw [h_word]
    rfl

end PagedSearch
