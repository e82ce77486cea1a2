/-
  PagedSearch.Proofs.Session.Page

  The matches of one page. A search that goes on from a point reads the
  significant characters of the page that lie ahead of it (`reading`), in its
  order. Going on from a match it meets the matches that it would have met
  behind it without the stop (`pageMatches_resumed`), and forward it meets
  them in document order (`pageMatches_pairwise`).
-/
import PagedSearch.Proofs.Scan.Possessive
import PagedSearch.Proofs.Session.Feeding

namespace PagedSearch

/-! ## What is read of a page -/

/-- The significant characters of a page that lie ahead of a point, in the order of reading. -/
def Settings.reading (s : Settings) (resume : Option Point) (fragments : List Text) :
    List (Char × Point) :=
  s.inOrder ((s.significantOn fragments).filter fun x => decide (s.direction.Ahead resume x.2))

/-- With nothing to go on from, the whole page is read. -/
theorem reading_none (s : Settings) (fragments : List Text) :
    s.reading none fragments = s.inOrder (s.significantOn fragments) := by
  rw [Settings.reading, filter_ahead_none]

/-- What is read are significant characters of the page. -/
theorem mem_significantOn_of_mem_reading {s : Settings} {resume : Option Point}
    {fragments : List Text} {x : Char × Point} (h : x ∈ s.reading resume fragments) :
    x ∈ s.significantOn fragments := by
  rw [Settings.reading, Settings.inOrder] at h
  cases h_dir : s.direction with
  | forward =>
    rw [h_dir] at h
    exact (List.mem_filter.1 h).1
  | backward =>
    rw [h_dir] at h
    exact (List.mem_filter.1 (List.mem_reverse.1 h)).1

/-- Reading goes on ahead. -/
theorem reading_pairwise (s : Settings) (resume : Option Point) (fragments : List Text) :
    (s.reading resume fragments).Pairwise fun x y => s.direction.Ahead (some x.2) y.2 := by
  have h_pairwise := (significantOn_pairwise s fragments).filter fun x =>
    decide (s.direction.Ahead resume x.2)
  rw [Settings.reading]
  cases h_dir : s.direction with
  | forward =>
    rw [Settings.inOrder, h_dir]
    rw [h_dir] at h_pairwise
    exact h_pairwise
  | backward =>
    rw [Settings.inOrder, h_dir, List.pairwise_reverse]
    rw [h_dir] at h_pairwise
    exact h_pairwise

theorem not_ahead_self (dir : Direction) (p : Point) : ¬ dir.Ahead (some p) p := by
  cases dir with
  | forward => exact Point.not_before_self p
  | backward => exact Point.not_before_self p

theorem Direction.Ahead.trans {dir : Direction} {p q r : Point} (h_pq : dir.Ahead (some p) q)
    (h_qr : dir.Ahead (some q) r) : dir.Ahead (some p) r := by
  cases dir with
  | forward => exact Point.Before.trans h_pq h_qr
  | backward => exact Point.Before.trans h_qr h_pq

theorem reading_filter (s : Settings) (resume : Option Point) (fragments : List Text) :
    s.reading resume fragments =
      (s.reading none fragments).filter fun x => decide (s.direction.Ahead resume x.2) := by
  rw [Settings.reading, Settings.reading, filter_ahead_none]
  cases h_dir : s.direction with
  | forward => rw [Settings.inOrder, Settings.inOrder, h_dir]
  | backward => rw [Settings.inOrder, Settings.inOrder, h_dir, List.filter_reverse]

/-- A list in order begins with what a test that stays true refuses. -/
theorem filter_not_append_filter {β : Type} {r : β → β → Prop} {p : β → Bool} {l : List β}
    (h : l.Pairwise r) (h_up : ∀ x y, r x y → p x = true → p y = true) :
    l = l.filter (fun x => !p x) ++ l.filter p := by
  induction h with
  | nil => rfl
  | @cons x l h_x _ ih =>
    by_cases h_p : p x = true
    · -- everything behind `x` passes the test too
      have h_all : ∀ y ∈ x :: l, p y = true := by
        intro y h_y
        rcases List.mem_cons.1 h_y with rfl | h_y
        · exact h_p
        · exact h_up x y (h_x y h_y) h_p
      rw [List.filter_eq_nil_iff.2 fun y h_y => by simp [h_all y h_y], List.nil_append,
        List.filter_eq_self.2 h_all]
    · rw [List.filter_cons_of_pos (by simp [h_p]), List.filter_cons_of_neg h_p, List.cons_append,
        ← ih]

/-- The reading of a page ends with what lies ahead of a point. -/
theorem reading_split (s : Settings) (resume : Option Point) (fragments : List Text) :
    ∃ front, s.reading none fragments = front ++ s.reading resume fragments ∧
      ∀ x ∈ front, ¬ s.direction.Ahead resume x.2 := by
  refine ⟨(s.reading none fragments).filter fun x => !decide (s.direction.Ahead resume x.2),
    ?_, ?_⟩
  · rw [reading_filter s resume]
    apply filter_not_append_filter (reading_pairwise s none fragments)
    intro x y h_xy h_x
    cases resume with
    | none => exact decide_eq_true trivial
    | some p => exact decide_eq_true ((of_decide_eq_true h_x : s.direction.Ahead _ _).trans h_xy)
  · intro x h_x h_ahead
    have h_not := (List.mem_filter.1 h_x).2
    rw [decide_eq_true h_ahead] at h_not
    exact absurd h_not (by decide)

/-- What is read ahead of a point of the page is what comes behind that point in the reading of
    the whole page. -/
theorem reading_resumed {s : Settings} {fragments : List Text} {read rest : List (Char × Point)}
    {c : Char} {p : Point} (h : s.reading none fragments = read ++ (c, p) :: rest) :
    s.reading (some p) fragments = rest := by
  have h_pairwise := reading_pairwise s none fragments
  rw [h, List.pairwise_append, List.pairwise_cons] at h_pairwise
  obtain ⟨-, ⟨h_rest, -⟩, h_read⟩ := h_pairwise
  rw [reading_filter, h, List.filter_append, List.filter_cons, if_neg, List.filter_eq_nil_iff.2,
    List.filter_eq_self.2, List.nil_append]
  · intro x h_x
    exact decide_eq_true (h_rest x h_x)
  · intro x h_x h_ahead
    -- what was read before lies ahead of nothing that comes later
    have h_before := h_read x h_x (c, p) List.mem_cons_self
    exact not_ahead_self _ _ (h_before.trans (of_decide_eq_true h_ahead))
  · intro h_ahead
    exact not_ahead_self _ _ (of_decide_eq_true h_ahead)

/-! ## The matches of a page -/

/-- The matches that a search meets on a page when it goes on from a point. -/
def pageMatches (s : Settings) (chain : Chain) (d : Document) (resume : Option Point)
    (page : Nat) : List Match :=
  allMatches s chain page (stretches s.direction resume (d.fragments page))

/-- The point of a match from which a search goes on. -/
def Match.resumption (dir : Direction) (m : Match) : Point :=
  match dir with
  | .forward => m.last
  | .backward => m.first

section

variable {s : Settings} {chain : Chain} {d : Document} {resume : Option Point} {page : Nat}

theorem pageMatches_eq (s : Settings) (chain : Chain) (d : Document) (resume : Option Point)
    (page : Nat) :
    pageMatches s chain d resume page =
      (({} : Scan Point).drain chain (s.reading resume (d.fragments page))).2.map
        (Match.ofSpan s.direction page) := by
  rw [pageMatches, allMatches_eq, flatMap_stretches, Settings.reading]

theorem ofSpan_page (dir : Direction) (page : Nat) (span : Span Point) :
    (Match.ofSpan dir page span).page = page := by
  cases dir with
  | forward => rfl
  | backward => rfl

theorem ofSpan_resumption (dir : Direction) (page : Nat) (span : Span Point) :
    (Match.ofSpan dir page span).resumption dir = span.last := by
  cases dir with
  | forward => rfl
  | backward => rfl

theorem page_of_mem_pageMatches {m : Match} (h : m ∈ pageMatches s chain d resume page) :
    m.page = page := by
  rw [pageMatches_eq, List.mem_map] at h
  obtain ⟨span, -, rfl⟩ := h
  exact ofSpan_page s.direction page span

/-- A search that goes on from a match meets the matches behind it. -/
theorem pageMatches_resumed {found more : List Match} {m : Match}
    (h : pageMatches s chain d none page = found ++ m :: more) :
    pageMatches s chain d (some (m.resumption s.direction)) page = more := by
  -- the matches of the page are the spans of one run, so the run is split at that of `m`
  rw [pageMatches_eq, List.map_eq_append_iff] at h
  obtain ⟨spans, tail, h_spans, -, h_tail⟩ := h
  obtain ⟨span, behind, rfl, rfl, rfl⟩ := List.map_eq_cons_iff.1 h_tail
  obtain ⟨read, c, rest, h_text, h_behind⟩ := Scan.drain_split h_spans
  rw [pageMatches_eq, ofSpan_resumption, reading_resumed h_text, h_behind]

/-- Forward, the matches of a page come in document order, and each ends before the next begins. -/
theorem pageMatches_pairwise (h_dir : s.direction = .forward) :
    (pageMatches s chain d resume page).Pairwise fun m n =>
      m.le n = true ∧ m.last.Before n.first := by
  have h_found := drain_fresh_found chain 0 (s.reading resume (d.fragments page))
  have h_pairwise := h_found.pairwise (r := fun p q => s.direction.Ahead (some p) q)
    (reading_pairwise s resume (d.fragments page))
  rw [pageMatches_eq, List.pairwise_map]
  apply h_pairwise.imp
  intro a b h_before
  rw [h_dir] at h_before ⊢
  exact ⟨Match.le_iff.2 (.inr ⟨rfl, Point.Before.le h_before.1⟩), h_before.2⟩

/-- A match begins at a significant character of the page and ends at one there or behind. -/
theorem exists_points_of_mem_pageMatches {m : Match}
    (h : m ∈ pageMatches s chain d resume page) :
    ∃ x ∈ s.significantOn (d.fragments page), ∃ y ∈ s.significantOn (d.fragments page),
      x.2 = m.first ∧ y.2 = m.last ∧ m.first.le m.last = true := by
  have h_up := reading_pairwise s resume (d.fragments page)
  rw [pageMatches_eq, List.mem_map] at h
  obtain ⟨span, h_span, rfl⟩ := h
  have h_found := drain_fresh_found chain 0 (s.reading resume (d.fragments page))
  obtain ⟨before, part, behind, h_split, -, h_delimits⟩ := h_found.reads span h_span
  have h_mem : ∀ x ∈ part, x ∈ s.significantOn (d.fragments page) := by
    intro x h_x
    apply mem_significantOn_of_mem_reading
    rw [h_split]
    exact List.mem_append_left _ (List.mem_append_right _ h_x)
  obtain ⟨x, h_x, h_first⟩ := h_delimits.first_mem
  obtain ⟨y, h_y, h_last⟩ := h_delimits.last_mem
  rw [h_split, List.pairwise_append, List.pairwise_append] at h_up
  -- backward, the character that is read last stands first
  cases h_dir : s.direction with
  | forward =>
    rw [h_dir] at h_up
    exact ⟨x, h_mem x h_x, y, h_mem y h_y, h_first, h_last, h_delimits.first_le h_up.1.2.1⟩
  | backward =>
    rw [h_dir] at h_up
    have h_reverse := List.pairwise_reverse.2 h_up.1.2.1
    exact ⟨y, h_mem y h_y, x, h_mem x h_x, h_last, h_first, h_delimits.reverse.first_le h_reverse⟩

end

end PagedSearch
