/-
  PagedSearch.Proofs.Session.Nearest

  Where a literal pattern occurs on a page, told in the coordinates of the
  page and without a direction (`Settings.Occurs`), and which occurrence is
  the nearest one in a direction. Of what lies ahead of a point a search
  meets the nearest occurrence first (`head?_pageMatches`), and it meets
  nothing only if no occurrence lies ahead (`pageMatches_eq_nil_iff`).
-/
import PagedSearch.Proofs.Pattern.Literal
import PagedSearch.Proofs.Scan.Literal
import PagedSearch.Proofs.Session.Page

namespace PagedSearch

/-! ## Occurrences on pages -/

/-- The significant characters of the pattern stand one after the other on the page of the match,
    from its first character to its last. -/
def Settings.Occurs (s : Settings) (pattern : Text) (d : Document) (m : Match) : Prop :=
  ∃ before part behind,
    Occurrence (s.significantOf pattern) (s.significantOn (d.fragments m.page)) before part behind ∧
    (⟨m.first, m.last⟩ : Span Point).Delimits part

/-- The point of a match that a search meets first. -/
def Match.entry (dir : Direction) (m : Match) : Point :=
  match dir with
  | .forward => m.first
  | .backward => m.last

/-- A match as a search meets it. -/
def Match.span (dir : Direction) (m : Match) : Span Point := ⟨m.entry dir, m.resumption dir⟩

@[simp] theorem ofSpan_span (dir : Direction) (m : Match) :
    Match.ofSpan dir m.page (m.span dir) = m := by
  cases dir with
  | forward => rfl
  | backward => rfl

@[simp] theorem span_ofSpan (dir : Direction) (page : Nat) (span : Span Point) :
    (Match.ofSpan dir page span).span dir = span := by
  cases dir with
  | forward => rfl
  | backward => rfl

section

variable {s : Settings} {pattern : Text} {d : Document} {resume : Option Point} {m : Match}

theorem first_le_last_of_occurs (h : s.Occurs pattern d m) : m.first.le m.last = true := by
  obtain ⟨before, part, behind, h_occ, h_span⟩ := h
  have h_pairwise := significantOn_pairwise s (d.fragments m.page)
  rw [h_occ.split, List.append_assoc, List.pairwise_append, List.pairwise_append] at h_pairwise
  exact h_span.first_le h_pairwise.2.1.1

/-- What occurs has a significant character. -/
theorem significantOf_ne_nil_of_occurs (h : s.Occurs pattern d m) :
    s.significantOf pattern ≠ [] := by
  obtain ⟨before, part, behind, h_occ, h_span⟩ := h
  obtain ⟨x, h_x, -⟩ := h_span.first_mem
  rw [← h_occ.spelled]
  exact List.ne_nil_of_mem (List.mem_map_of_mem h_x)

/-- In the order of reading it is the word that occurs. -/
theorem occurs_iff : s.Occurs pattern d m ↔ ∃ before part behind,
    Occurrence (s.word pattern) (s.reading none (d.fragments m.page)) before part behind ∧
    (m.span s.direction).Delimits part := by
  rw [Settings.Occurs, Settings.word, reading_none, Match.span, Match.entry.eq_def,
    Match.resumption.eq_def]
  cases h_dir : s.direction with
  | forward =>
    rw [Settings.inOrder, Settings.inOrder, h_dir]
  | backward =>
    -- word and page are both read from the end
    rw [Settings.inOrder, Settings.inOrder, h_dir]
    constructor
    · rintro ⟨before, part, behind, h_occ, h_span⟩
      exact ⟨_, _, _, h_occ.reverse, h_span.reverse⟩
    · rintro ⟨before, part, behind, h_occ, h_span⟩
      have h_occ' := h_occ.reverse
      rw [List.reverse_reverse, List.reverse_reverse] at h_occ'
      exact ⟨_, _, _, h_occ', h_span.reverse⟩

/-- Behind a point the occurrences are those that begin behind it. -/
theorem occurs_ahead_iff :
    s.Occurs pattern d m ∧ s.direction.Ahead resume (m.entry s.direction) ↔
      ∃ before part behind,
        Occurrence (s.word pattern) (s.reading resume (d.fragments m.page)) before part behind ∧
        (m.span s.direction).Delimits part := by
  obtain ⟨front, h_split, h_front⟩ := reading_split s resume (d.fragments m.page)
  rw [occurs_iff]
  constructor
  · rintro ⟨⟨before, part, behind, h_occ, h_span⟩, h_ahead⟩
    obtain ⟨x, h_x, h_entry⟩ := Option.map_eq_some_iff.1 h_span.first_eq
    obtain ⟨part, rfl⟩ := List.head?_eq_some_iff.1 h_x
    have h_parts := h_split.symm.trans h_occ.split
    rw [List.append_assoc, List.append_eq_append_iff] at h_parts
    rcases h_parts with ⟨before', rfl, h_reading⟩ | ⟨front', rfl, h_rest⟩
    · -- the occurrence lies behind what is not read
      refine ⟨before', x :: part, behind, ⟨?_, h_occ.spelled⟩, h_span⟩
      rw [h_reading, List.append_assoc]
    · -- the occurrence begins ahead, so nothing of it stands in front
      match front' with
      | [] => exact ⟨[], x :: part, behind, ⟨h_rest.symm, h_occ.spelled⟩, h_span⟩
      | y :: front' =>
        rw [List.cons_append, List.cons_append, List.cons.injEq] at h_rest
        refine absurd ?_ (h_front y (List.mem_append_right _ List.mem_cons_self))
        rw [← h_rest.1, h_entry]
        exact h_ahead
  · rintro ⟨before, part, behind, h_occ, h_span⟩
    constructor
    · refine ⟨front ++ before, part, behind, ⟨?_, h_occ.spelled⟩, h_span⟩
      rw [h_split, h_occ.split, List.append_assoc, List.append_assoc, List.append_assoc]
    · obtain ⟨x, h_x, h_entry⟩ := h_span.first_mem
      have h_mem : x ∈ s.reading resume (d.fragments m.page) := by
        rw [h_occ.split]
        exact List.mem_append_left _ (List.mem_append_right _ h_x)
      rw [reading_filter] at h_mem
      rw [show m.entry s.direction = x.2 from h_entry.symm]
      exact of_decide_eq_true (List.mem_filter.1 h_mem).2

/-! ## The nearest occurrence -/

/-- A search in the direction comes to `m` no later than to `n`, both on one page. -/
def Direction.NoFarther (dir : Direction) (m n : Match) : Prop :=
  match dir with
  | .forward => m.first.le n.first = true
  | .backward => n.last.le m.last = true

theorem noFarther_of_eq {dir : Direction} {m n : Match} (h : m = n) : dir.NoFarther m n := by
  subst h
  cases dir with
  | forward => exact Point.le_refl _
  | backward => exact Point.le_refl _

theorem noFarther_of_ahead {dir : Direction} {m n : Match}
    (h : dir.Ahead (some (m.entry dir)) (n.entry dir)) : dir.NoFarther m n := by
  cases dir with
  | forward => exact Point.Before.le h
  | backward => exact Point.Before.le h

theorem not_noFarther_of_ahead {dir : Direction} {m n : Match}
    (h : dir.Ahead (some (m.entry dir)) (n.entry dir)) : ¬ dir.NoFarther n m := by
  cases dir with
  | forward =>
    show ¬ n.first.le m.first = true
    have h_before : m.first.Before n.first := h
    rw [Point.before_iff] at h_before
    rw [Point.le_iff]
    omega
  | backward =>
    show ¬ m.last.le n.last = true
    have h_before : n.last.Before m.last := h
    rw [Point.before_iff] at h_before
    rw [Point.le_iff]
    omega

/-- Of the occurrences on a page that begin ahead of a point, the nearest one. -/
structure Settings.Nearest (s : Settings) (pattern : Text) (d : Document) (resume : Option Point)
    (page : Nat) (m : Match) : Prop where
  occurs : s.Occurs pattern d m
  page_eq : m.page = page
  ahead : s.direction.Ahead resume (m.entry s.direction)
  nearest : ∀ n, s.Occurs pattern d n → n.page = page →
    s.direction.Ahead resume (n.entry s.direction) → s.direction.NoFarther m n

/-- Two occurrences on a page are one or begin one ahead of the other. -/
theorem occurs_trichotomy {n : Match} (h_m : s.Occurs pattern d m) (h_n : s.Occurs pattern d n)
    (h_page : m.page = n.page) :
    s.direction.Ahead (some (m.entry s.direction)) (n.entry s.direction) ∨ m = n ∨
      s.direction.Ahead (some (n.entry s.direction)) (m.entry s.direction) := by
  obtain ⟨before, part, behind, h_occ, h_span⟩ := occurs_iff.1 h_m
  obtain ⟨before', part', behind', h_occ', h_span'⟩ := occurs_iff.1 h_n
  have h_pairwise := reading_pairwise s none (d.fragments n.page)
  rw [h_page] at h_occ
  rcases Nat.lt_trichotomy before.length before'.length with h_lt | h_eq | h_gt
  · exact .inl (h_occ.first_lt (r := fun p q => s.direction.Ahead (some p) q) h_pairwise h_occ'
      h_span h_span' h_lt)
  · -- as many characters in front of both: they are one
    refine .inr (.inl ?_)
    rw [h_occ.part_unique h_occ' h_eq] at h_span
    rw [← ofSpan_span s.direction m, ← ofSpan_span s.direction n, h_page, h_span.unique h_span']
  · exact .inr (.inr (h_occ'.first_lt (r := fun p q => s.direction.Ahead (some p) q) h_pairwise
      h_occ h_span' h_span h_gt))

/-- There is only one nearest occurrence. -/
theorem Settings.Nearest.unique {page : Nat} {n : Match}
    (h_m : s.Nearest pattern d resume page m) (h_n : s.Nearest pattern d resume page n) :
    m = n := by
  have h_mn := h_m.nearest n h_n.occurs h_n.page_eq h_n.ahead
  have h_nm := h_n.nearest m h_m.occurs h_m.page_eq h_m.ahead
  rcases occurs_trichotomy h_m.occurs h_n.occurs (h_m.page_eq.trans h_n.page_eq.symm) with
    h_ahead | h_eq | h_ahead
  · exact absurd h_nm (not_noFarther_of_ahead h_ahead)
  · exact h_eq
  · exact absurd h_mn (not_noFarther_of_ahead h_ahead)

/-! ## What a search meets -/

variable {chain : Chain} {page : Nat}

/-- What a search meets first is the nearest occurrence ahead; if it meets nothing, there is
    none. -/
theorem pageMatches_nearest (h_chain : chain.Spells (s.word pattern)) :
    match (pageMatches s chain d resume page).head? with
    | some m => s.Nearest pattern d resume page m
    | none => ∀ m, s.Occurs pattern d m → m.page = page →
        ¬ s.direction.Ahead resume (m.entry s.direction) := by
  have h_picked := drain_fresh_picked h_chain 0 (s.reading resume (d.fragments page))
  rw [pageMatches_eq, List.head?_map]
  -- only the first of the picked occurrences matters
  generalize (({} : Scan Point).drain chain (s.reading resume (d.fragments page))).2 = spans
    at h_picked
  cases h_picked with
  | none h_absent =>
    intro m h_occurs h_page h_ahead
    obtain ⟨before, part, behind, h_occ, -⟩ := occurs_ahead_iff.1 ⟨h_occurs, h_ahead⟩
    rw [h_page] at h_occ
    exact h_absent before part behind h_occ
  | @next _ before part behind span _ h_leftmost h_span _ =>
    have h_page := ofSpan_page s.direction page span
    have h_first : s.Occurs pattern d (Match.ofSpan s.direction page span) ∧
        s.direction.Ahead resume ((Match.ofSpan s.direction page span).entry s.direction) := by
      refine occurs_ahead_iff.2 ⟨before, part, behind, ?_, ?_⟩
      · rw [h_page]
        exact h_leftmost.toOccurrence
      · rw [span_ofSpan]
        exact h_span
    refine ⟨h_first.1, h_page, h_first.2, ?_⟩
    intro n h_n h_n_page h_n_ahead
    -- any other occurrence ahead has more in front of it
    obtain ⟨before', part', behind', h_occ', h_span'⟩ := occurs_ahead_iff.1 ⟨h_n, h_n_ahead⟩
    rw [h_n_page] at h_occ'
    rcases Nat.lt_or_eq_of_le (h_leftmost.leftmost h_occ') with h_lt | h_eq
    · apply noFarther_of_ahead
      have h_entry : (Match.ofSpan s.direction page span).entry s.direction = span.first :=
        congrArg Span.first (span_ofSpan s.direction page span)
      rw [h_entry]
      exact h_leftmost.first_lt (r := fun p q => s.direction.Ahead (some p) q)
        (reading_pairwise s resume (d.fragments page)) h_occ' h_span h_span' h_lt
    · -- with as much in front of it, it is the same occurrence
      apply noFarther_of_eq
      rw [h_leftmost.part_unique h_occ' h_eq] at h_span
      rw [h_span.unique h_span', ← h_n_page, ofSpan_span]

theorem head?_pageMatches (h_chain : chain.Spells (s.word pattern)) {m : Match} :
    (pageMatches s chain d resume page).head? = some m ↔ s.Nearest pattern d resume page m := by
  have h_nearest := @pageMatches_nearest s pattern d resume chain page h_chain
  constructor
  · intro h_head
    rw [h_head] at h_nearest
    exact h_nearest
  · intro h_m
    cases h_head : (pageMatches s chain d resume page).head? with
    | none =>
      rw [h_head] at h_nearest
      exact absurd h_m.ahead (h_nearest m h_m.occurs h_m.page_eq)
    | some n =>
      rw [h_head] at h_nearest
      rw [Settings.Nearest.unique h_nearest h_m]

/-- A search meets nothing exactly if no occurrence lies ahead. -/
theorem pageMatches_eq_nil_iff (h_chain : chain.Spells (s.word pattern)) :
    pageMatches s chain d resume page = [] ↔ ∀ m, s.Occurs pattern d m → m.page = page →
      ¬ s.direction.Ahead resume (m.entry s.direction) := by
  have h_nearest := @pageMatches_nearest s pattern d resume chain page h_chain
  constructor
  · intro h_nil
    rw [h_nil] at h_nearest
    exact h_nearest
  · intro h_absent
    rw [← List.head?_eq_none_iff]
    cases h_head : (pageMatches s chain d resume page).head? with
    | none => rfl
    | some n =>
      rw [h_head] at h_nearest
      exact absurd h_nearest.ahead (h_absent n h_nearest.occurs h_nearest.page_eq)

end

end PagedSearch
