/-
  PagedSearch.Proofs.View.Highlight

  A page with its matches marked. The marks are written character by
  character, as a mark goes on until it changes or a match begins. If no
  character belongs to two matches, this puts each match of the page between
  marks of its own and leaves everything else as it is
  (`highlightPage_marked`); the lists that a session makes are of this kind
  (`findAll_disjoint`).
-/
import Mathlib
import PagedSearch.Proofs.Results
import PagedSearch.Proofs.Session.Replacement
import PagedSearch.View.Highlight

namespace PagedSearch

/-- A text between the marks of a match. -/
def Mark.around (mark : Mark) (t : Text) : Text := mark.opening :: t ++ [mark.closing]

/-- In characters with points, the parts that matches delimit, one behind the other, are put between
    marks of their own. -/
def Marked (markOf : Match → Mark) : List Match → List (Char × Point) → Text → Prop :=
  Rewritten fun m t => (markOf m).around t

/-! ## Writing -/

section

variable {markAt? : Point → Option Mark} {isStart : Point → Bool} {mark : Mark}

/-- As long as the mark stays the same and no match begins, characters are written as they are. -/
theorem writeMarked_append {opened : Option Mark} {part : List (Char × Point)}
    (h : ∀ x ∈ part, markAt? x.2 = opened ∧ isStart x.2 = false) (rest : List (Char × Point)) :
    writeMarked markAt? isStart opened (part ++ rest) =
      part.map Prod.fst ++ writeMarked markAt? isStart opened rest := by
  induction part with
  | nil => rfl
  | cons x part ih =>
    rw [List.forall_mem_cons] at h
    obtain ⟨⟨h_mark, h_start⟩, h_part⟩ := h
    rw [List.cons_append, writeMarked]
    simp only [h_mark, h_start, decide_true, Bool.not_false, Bool.and_self, if_true]
    rw [ih h_part, List.map_cons, List.cons_append]

/-- Where a match begins, its mark is opened. -/
theorem writeMarked_start {x : Char × Point} (h_mark : markAt? x.2 = some mark)
    (h_start : isStart x.2 = true) (rest : List (Char × Point)) :
    writeMarked markAt? isStart none (x :: rest) =
      mark.opening :: x.1 :: writeMarked markAt? isStart (some mark) rest := by
  rw [writeMarked, h_mark, h_start]
  rfl

/-- A mark is closed in front of a character that no match contains or at which one begins. -/
theorem writeMarked_stop {rest : List (Char × Point)}
    (h : ∀ x, rest.head? = some x → markAt? x.2 = none ∨ isStart x.2 = true) :
    writeMarked markAt? isStart (some mark) rest =
      mark.closing :: writeMarked markAt? isStart none rest := by
  cases rest with
  | nil => rfl
  | cons x rest =>
    rw [writeMarked, writeMarked]
    rcases h x rfl with h_none | h_start
    · -- outside a match the mark is closed and none is opened
      rw [h_none]
      cases isStart x.2 with
      | false => rfl
      | true => rfl
    · rw [h_start]
      simp only [Bool.not_true, Bool.and_false]
      rfl

end

/-! ## Matches of a page -/

/-- Matches of a page, each behind the one before, and characters among which they stand. -/
structure InRow (page : Nat) (found : List Match) (chars : List (Char × Point)) : Prop where
  page_eq : ∀ m ∈ found, m.page = page
  first_mem : ∀ m ∈ found, ∃ x ∈ chars, x.2 = m.first
  last_mem : ∀ m ∈ found, ∃ x ∈ chars, x.2 = m.last
  first_le_last : ∀ m ∈ found, m.first.le m.last = true
  apart : found.Pairwise fun m n => m.last.Before n.first
  up : chars.Pairwise fun x y => x.2.Before y.2

namespace InRow

variable {page : Nat} {found : List Match} {m : Match} {chars : List (Char × Point)} {p : Point}

/-- What stands in front of the first match stands in front of all of them. -/
theorem before_of_before (h : InRow page (m :: found) chars) (h_p : p.Before m.first) :
    ∀ n ∈ m :: found, p.Before n.first := by
  rw [List.forall_mem_cons]
  refine ⟨h_p, fun n h_n => ?_⟩
  have h_last := h_p.trans_le (h.first_le_last m List.mem_cons_self)
  exact h_last.trans ((List.pairwise_cons.1 h.apart).1 n h_n)

/-- Up to its end the first match stands in front of the others. -/
theorem before_of_le (h : InRow page (m :: found) chars) (h_p : p.le m.last = true) :
    ∀ n ∈ found, p.Before n.first := fun n h_n =>
  Point.before_of_le_of_before h_p ((List.pairwise_cons.1 h.apart).1 n h_n)

/-- The first match delimits a part, and the others stand behind it. -/
theorem split (h : InRow page (m :: found) chars) :
    ∃ before part behind, chars = before ++ part ++ behind ∧
      (⟨m.first, m.last⟩ : Span Point).Delimits part ∧ InRow page found behind := by
  obtain ⟨x, h_x, h_first⟩ := h.first_mem m List.mem_cons_self
  obtain ⟨y, h_y, h_last⟩ := h.last_mem m List.mem_cons_self
  have h_le := h.first_le_last m List.mem_cons_self
  rw [← h_first, ← h_last] at h_le
  obtain ⟨before, part, behind, h_split, h_span⟩ := exists_delimited h.up h_x h_y h_le
  rw [h_first, h_last] at h_span
  refine ⟨before, part, behind, h_split, h_span, ?_⟩
  obtain ⟨h_apart, h_found⟩ := List.pairwise_cons.1 h.apart
  -- the characters of the others come after the last one of the first match
  have h_behind : ∀ n ∈ found, ∀ z ∈ chars, n.first.le z.2 = true → z ∈ behind := by
    intro n h_n z h_z h_le
    exact mem_behind h.up h_split h_span h_z ((h_apart n h_n).trans_le h_le)
  have h_up := h.up
  rw [h_split, List.pairwise_append] at h_up
  refine ⟨fun n h_n => h.page_eq n (List.mem_cons_of_mem m h_n), fun n h_n => ?_, fun n h_n => ?_,
    fun n h_n => h.first_le_last n (List.mem_cons_of_mem m h_n), h_found, h_up.2.1⟩
  · obtain ⟨z, h_z, h_eq⟩ := h.first_mem n (List.mem_cons_of_mem m h_n)
    refine ⟨z, h_behind n h_n z h_z ?_, h_eq⟩
    rw [h_eq]
    exact Point.le_refl n.first
  · obtain ⟨z, h_z, h_eq⟩ := h.last_mem n (List.mem_cons_of_mem m h_n)
    refine ⟨z, h_behind n h_n z h_z ?_, h_eq⟩
    rw [h_eq]
    exact h.first_le_last n (List.mem_cons_of_mem m h_n)

end InRow

/-! ## Marks -/

/-- The marks of the characters that belong to matches, and where the matches begin. -/
structure Shows (markOf : Match → Mark) (page : Nat) (found : List Match)
    (chars : List (Char × Point)) (markAt? : Point → Option Mark) (isStart : Point → Bool) :
    Prop where
  mark_eq : ∀ x ∈ chars, markAt? x.2 = (found.find? (·.contains page x.2)).map markOf
  start_iff : ∀ x ∈ chars, isStart x.2 = true ↔ ∃ m ∈ found, m.first = x.2

namespace Shows

variable {markOf : Match → Mark} {page : Nat} {found : List Match} {m : Match}
  {chars : List (Char × Point)} {markAt? : Point → Option Mark} {isStart : Point → Bool}
  {x : Char × Point}

/-- In front of all matches there is no mark. -/
theorem of_before (h : Shows markOf page found chars markAt? isStart) (h_x : x ∈ chars)
    (h_before : ∀ n ∈ found, x.2.Before n.first) : markAt? x.2 = none ∧ isStart x.2 = false := by
  constructor
  · rw [h.mark_eq x h_x, Option.map_eq_none_iff, List.find?_eq_none]
    intro n h_n h_contains
    exact Point.not_le_iff.2 (h_before n h_n) (Match.contains_iff.1 h_contains).2.1
  · rw [← Bool.not_eq_true, h.start_iff x h_x]
    rintro ⟨n, h_n, h_first⟩
    have h_self := h_before n h_n
    rw [h_first] at h_self
    exact Point.not_before_self _ h_self

/-- A character of the first match has its mark. The match begins at the first of them only. -/
theorem of_contains (h : Shows markOf page (m :: found) chars markAt? isStart)
    (h_row : InRow page (m :: found) chars) (h_x : x ∈ chars)
    (h_contains : m.contains page x.2 = true) :
    markAt? x.2 = some (markOf m) ∧ (isStart x.2 = true ↔ m.first = x.2) := by
  constructor
  · rw [h.mark_eq x h_x, List.find?_cons, h_contains]
    rfl
  · rw [h.start_iff x h_x, List.exists_mem_cons_iff, or_iff_left]
    rintro ⟨n, h_n, h_first⟩
    have h_self := h_row.before_of_le (Match.contains_iff.1 h_contains).2.2 n h_n
    rw [h_first] at h_self
    exact Point.not_before_self _ h_self

/-- Behind the first match only the others are to be seen. -/
theorem behind (h : Shows markOf page (m :: found) chars markAt? isStart)
    (h_le : m.first.le m.last = true) {rest : List (Char × Point)}
    (h_rest : ∀ x ∈ rest, x ∈ chars ∧ m.last.Before x.2) :
    Shows markOf page found rest markAt? isStart where
  mark_eq x h_x := by
    obtain ⟨h_mem, h_behind⟩ := h_rest x h_x
    have h_contains : m.contains page x.2 = false := by
      rw [← Bool.not_eq_true]
      intro h_contains
      exact Point.not_le_iff.2 h_behind (Match.contains_iff.1 h_contains).2.2
    rw [h.mark_eq x h_mem, List.find?_cons, h_contains]
  start_iff x h_x := by
    obtain ⟨h_mem, h_behind⟩ := h_rest x h_x
    rw [h.start_iff x h_mem, List.exists_mem_cons_iff, or_iff_right]
    intro h_first
    rw [h_first] at h_le
    exact Point.not_le_iff.2 h_behind h_le

/-- If the first of some characters belongs to a match, the match begins there. -/
theorem head (h : Shows markOf page found chars markAt? isStart) (h_row : InRow page found chars)
    (h_x : chars.head? = some x) : markAt? x.2 = none ∨ isStart x.2 = true := by
  obtain ⟨rest, rfl⟩ := List.head?_eq_some_iff.1 h_x
  cases h_find : found.find? (·.contains page x.2) with
  | none =>
    left
    rw [h.mark_eq x List.mem_cons_self, h_find, Option.map_none]
  | some m =>
    right
    have h_m := List.mem_of_find?_eq_some h_find
    have h_contains := @List.find?_some _ (fun n : Match => n.contains page x.2) _ _ h_find
    have h_le := (Match.contains_iff.1 h_contains).2.1
    rw [h.start_iff x List.mem_cons_self]
    refine ⟨m, h_m, ?_⟩
    -- the match begins at one of the characters, and all others come later
    obtain ⟨y, h_y, h_first⟩ := h_row.first_mem m h_m
    rcases List.mem_cons.1 h_y with rfl | h_y
    · exact h_first.symm
    · have h_before := (List.pairwise_cons.1 h_row.up).1 y h_y
      rw [h_first] at h_before
      exact absurd h_le (Point.not_le_iff.2 h_before)

/-- The characters of the first match have its mark, and it begins at the first of them only. -/
theorem of_part (h : Shows markOf page (m :: found) chars markAt? isStart)
    (h_row : InRow page (m :: found) chars) {before part behind : List (Char × Point)}
    (h_split : chars = before ++ part ++ behind)
    (h_span : (⟨m.first, m.last⟩ : Span Point).Delimits part) :
    ∃ first tail, part = first :: tail ∧
      (markAt? first.2 = some (markOf m) ∧ isStart first.2 = true) ∧
      ∀ x ∈ tail, markAt? x.2 = some (markOf m) ∧ isStart x.2 = false := by
  subst h_split
  obtain ⟨-, h_part, -⟩ := h_span.order h_row.up
  have h_of_part : ∀ x ∈ part, markAt? x.2 = some (markOf m) ∧
      (isStart x.2 = true ↔ m.first = x.2) := fun x h_x =>
    h.of_contains h_row (List.mem_append_left _ (List.mem_append_right _ h_x))
      (Match.contains_iff.2 ⟨h_row.page_eq m List.mem_cons_self, h_part x h_x⟩)
  obtain ⟨first, h_head, h_first⟩ := Option.map_eq_some_iff.1 h_span.first_eq
  obtain ⟨tail, rfl⟩ := List.head?_eq_some_iff.1 h_head
  obtain ⟨h_mark, h_start⟩ := h_of_part first List.mem_cons_self
  refine ⟨first, tail, rfl, ⟨h_mark, h_start.2 h_first.symm⟩, fun x h_x => ?_⟩
  obtain ⟨h_mark, h_start⟩ := h_of_part x (List.mem_cons_of_mem first h_x)
  refine ⟨h_mark, ?_⟩
  rw [← Bool.not_eq_true, h_start]
  intro h_eq
  -- the first character stands before all others
  have h_up := h_row.up
  rw [List.append_assoc, List.pairwise_append, List.cons_append, List.pairwise_cons] at h_up
  have h_later := h_up.2.1.1 x (List.mem_append_left behind h_x)
  rw [h_first, ← h_eq] at h_later
  exact Point.not_before_self _ h_later

end Shows

/-- Writing the characters of a page marks each match. -/
theorem writeMarked_marked {markOf : Match → Mark} {page : Nat} {found : List Match}
    {chars : List (Char × Point)} {markAt? : Point → Option Mark} {isStart : Point → Bool}
    (h_row : InRow page found chars) (h : Shows markOf page found chars markAt? isStart) :
    Marked markOf found chars (writeMarked markAt? isStart none chars) := by
  -- what is left after a match is a page with the matches behind it
  induction found generalizing chars with
  | nil =>
    have h_write := writeMarked_append (fun x h_x => h.of_before h_x (by simp)) []
    rw [List.append_nil] at h_write
    rw [h_write]
    show Marked markOf [] chars (chars.map Prod.fst ++ [])
    rw [List.append_nil]
    exact .none
  | cons m found ih =>
    obtain ⟨before, part, behind, rfl, h_span, h_row_behind⟩ := h_row.split
    obtain ⟨h_before, -, h_behind⟩ := h_span.order h_row.up
    have h_shows := h.behind (h_row.first_le_last m List.mem_cons_self) fun x h_x =>
      ⟨List.mem_append_right _ h_x, h_behind x h_x⟩
    obtain ⟨first, tail, rfl, h_first, h_tail⟩ := h.of_part h_row rfl h_span
    -- what is in front, the first character, the others, and the mark behind them
    have h_write_before := writeMarked_append (fun x h_x =>
      h.of_before (List.mem_append_left _ (List.mem_append_left _ h_x))
        (h_row.before_of_before (h_before x h_x))) (first :: tail ++ behind)
    have h_write_first := writeMarked_start h_first.1 h_first.2 (tail ++ behind)
    have h_write_tail := writeMarked_append h_tail behind
    have h_write_stop : writeMarked markAt? isStart (some (markOf m)) behind = _ :=
      writeMarked_stop fun x h_x => h_shows.head h_row_behind h_x
    have h_next : Marked markOf (m :: found) (before ++ (first :: tail) ++ behind) _ :=
      .next h_span (ih h_row_behind h_shows)
    rw [List.append_assoc, h_write_before, List.cons_append, h_write_first, h_write_tail,
      h_write_stop]
    rw [Mark.around, List.map_cons, List.append_assoc] at h_next
    simpa using h_next

/-! ## Results -/

/-- No character belongs to both matches. -/
def Match.Disjoint (m n : Match) : Prop :=
  ∀ page p, ¬ (m.contains page p = true ∧ n.contains page p = true)

namespace Match

variable {m n : Match}

theorem Disjoint.symm (h : m.Disjoint n) : n.Disjoint m := fun page p h_both => h page p h_both.symm

instance : Std.Symm Match.Disjoint := ⟨fun _ _ => Disjoint.symm⟩

/-- Matches are apart if on one page the second begins behind the end of the first. -/
theorem disjoint_of_before (h : m.page = n.page → m.last.Before n.first) : m.Disjoint n := by
  rintro page p ⟨h_m, h_n⟩
  obtain ⟨h_m_page, -, h_m_last⟩ := contains_iff.1 h_m
  obtain ⟨h_n_page, h_n_first, -⟩ := contains_iff.1 h_n
  have h_before := h (h_m_page.trans h_n_page.symm)
  exact Point.not_le_iff.2 h_before (Point.le_trans h_n_first h_m_last)

/-- Of disjoint matches of a page, the second one in document order begins behind the end of the
    first. -/
theorem Disjoint.before (h : m.Disjoint n) (h_le : m.le n = true) (h_page : m.page = n.page)
    (h_n : n.first.le n.last = true) : m.last.Before n.first := by
  rw [← Point.not_le_iff]
  intro h_last
  rw [le_iff, h_page] at h_le
  have h_first := h_le.resolve_left (Nat.lt_irrefl n.page)
  exact h n.page n.first ⟨contains_iff.2 ⟨h_page, h_first.2, h_last⟩,
    contains_of_le (Point.le_refl n.first) h_n⟩

end Match

namespace Results

/-- How a match is marked. -/
def markOf (r : Results) (m : Match) : Mark := if r.current? = some m then .current else .other

variable {r : Results} {l : List Match} {d : Document}

theorem mem_listed_of_current? {m : Match} (h : r.current? = some m) : m ∈ r.listed := by
  rw [current?, Option.bind_eq_some_iff] at h
  obtain ⟨i, -, h_m⟩ := h
  exact List.mem_of_getElem? h_m

theorem isCurrent_iff {page : Nat} {p : Point} :
    r.isCurrent page p = true ↔ ∃ m, r.current? = some m ∧ m.contains page p = true := by
  rw [isCurrent]
  cases r.current? with
  | none => simp
  | some m => simp

/-- A character has the mark of the match that it belongs to. -/
theorem Lists.markAt?_eq (h : r.Lists l) (h_disjoint : l.Pairwise Match.Disjoint) (page : Nat)
    (p : Point) : r.markAt? page p = ((r.onPage page).find? (·.contains page p)).map r.markOf := by
  -- the current match is one of the page if the character belongs to it
  have h_current : r.isCurrent page p = true → ∃ m ∈ r.onPage page, r.current? = some m ∧
      m.contains page p = true := by
    rw [isCurrent_iff]
    rintro ⟨m, h_m, h_contains⟩
    refine ⟨m, ?_, h_m, h_contains⟩
    rw [h.onPage_eq, List.mem_filter, decide_eq_true_eq]
    exact ⟨mem_listed_of_current? h_m, (Match.contains_iff.1 h_contains).1⟩
  cases h_find : (r.onPage page).find? (·.contains page p) with
  | none =>
    rw [List.find?_eq_none] at h_find
    rw [markAt?, if_neg, if_neg, Option.map_none]
    · rw [isAny, List.any_eq_true]
      rintro ⟨m, h_m, h_contains⟩
      exact h_find m h_m h_contains
    · intro h_is
      obtain ⟨m, h_m, -, h_contains⟩ := h_current h_is
      exact h_find m h_m h_contains
  | some m =>
    have h_m := List.mem_of_find?_eq_some h_find
    have h_contains := @List.find?_some _ (fun n : Match => n.contains page p) _ _ h_find
    have h_any : r.isAny page p = true := by
      rw [isAny, List.any_eq_true]
      exact ⟨m, h_m, h_contains⟩
    rw [markAt?, if_pos h_any, Option.map_some, markOf]
    by_cases h_eq : r.current? = some m
    · rw [if_pos h_eq, if_pos (isCurrent_iff.2 ⟨m, h_eq, h_contains⟩)]
    · rw [if_neg h_eq, if_neg]
      -- a character of two matches would keep them from being disjoint
      intro h_is
      obtain ⟨n, h_n, h_n_current, h_n_contains⟩ := h_current h_is
      rw [h.onPage_eq, List.mem_filter, h.mem_listed_iff] at h_m h_n
      have h_ne : m ≠ n := by
        rintro rfl
        exact h_eq h_n_current
      exact h_disjoint.forall h_m.1 h_n.1 h_ne page p ⟨h_contains, h_n_contains⟩

/-- The matches of a page in results are in a row. -/
theorem Lists.inRow (h : r.Lists l) (h_within : ∀ m ∈ l, m.Within d)
    (h_disjoint : l.Pairwise Match.Disjoint) (page : Nat) :
    InRow page (r.onPage page) (charactersOn (d.fragments page)) := by
  have h_mem : ∀ m ∈ r.onPage page, m.Within d ∧ m.page = page := by
    intro m h_m
    rw [h.onPage_eq, List.mem_filter, h.mem_listed_iff, decide_eq_true_eq] at h_m
    exact ⟨h_within m h_m.1, h_m.2⟩
  refine ⟨fun m h_m => (h_mem m h_m).2, fun m h_m => ?_, fun m h_m => ?_,
    fun m h_m => (h_mem m h_m).1.first_le_last, ?_, charactersOn_pairwise _⟩
  · obtain ⟨h_m_within, rfl⟩ := h_mem m h_m
    exact h_m_within.first_mem
  · obtain ⟨h_m_within, rfl⟩ := h_mem m h_m
    exact h_m_within.last_mem
  · have h_listed := h.sorted.pairwise.and
      ((h.sorted.perm.pairwise_iff Match.Disjoint.symm).2 h_disjoint)
    have h_page : (r.onPage page).Pairwise fun m n => m.le n = true ∧ m.Disjoint n := by
      rw [h.onPage_eq]
      exact h_listed.filter _
    refine h_page.imp_of_mem fun {m n} h_m h_n h_both => ?_
    obtain ⟨h_m, h_m_page⟩ := h_mem m h_m
    obtain ⟨h_n, h_n_page⟩ := h_mem n h_n
    exact h_both.2.before h_both.1 (h_m_page.trans h_n_page.symm) h_n.first_le_last

theorem Lists.shows (h : r.Lists l) (h_disjoint : l.Pairwise Match.Disjoint) (page : Nat)
    (chars : List (Char × Point)) :
    Shows r.markOf page (r.onPage page) chars (r.markAt? page)
      ((r.onPage page).map Match.first).contains where
  mark_eq x _ := h.markAt?_eq h_disjoint page x.2
  start_iff x _ := by rw [List.contains_iff_mem, List.mem_map]

end Results

/-- What a session lists are disjoint matches within the document. -/
theorem Session.findAll_disjoint (s : Session) (d : Document) (interrupt : Interrupt) :
    ∃ found, (s.findAll d interrupt).results = .ofList found ∧ (∀ m ∈ found, m.Within d) ∧
      found.Pairwise Match.Disjoint := by
  have h_front := matchesIn_prefix s.query d interrupt
  refine ⟨_, rfl, fun m h_m => ?_, ?_⟩
  · exact Query.within_of_mem_listed (h_front.subset h_m)
  · exact ((s.query.listed_pairwise d).sublist h_front.sublist).imp fun h_both =>
      Match.disjoint_of_before h_both.2

/-- For disjoint matches within a document, which are what a session lists, a page with its matches
    marked is its text with each of them between marks of its own: those of the current match or
    those of the others, wherever the cursor is. -/
theorem highlightPage_marked (d : Document) :
    (∀ (s : Session) (interrupt : Interrupt), ∃ found,
      (s.findAll d interrupt).results = .ofList found ∧ (∀ m ∈ found, m.Within d) ∧
        found.Pairwise Match.Disjoint) ∧
    ∀ l : List Match, (∀ m ∈ l, m.Within d) → l.Pairwise Match.Disjoint →
      ∀ (steps : List Step) page,
      let r := (Results.ofList l).run steps
      ∀ text, Marked r.markOf (r.listed.filter fun m => m.page = page)
        (charactersOn (d.fragments page)) text ↔ text = highlightPage d r page := by
  refine ⟨fun s interrupt => s.findAll_disjoint d interrupt, ?_⟩
  intro l h_within h_disjoint steps page r text
  have h : r.Lists l := (Results.lists_ofList l).run steps
  have h_marked : Marked r.markOf (r.onPage page) (charactersOn (d.fragments page))
      (highlightPage d r page) :=
    writeMarked_marked (h.inRow h_within h_disjoint page) (h.shows h_disjoint page _)
  rw [h.onPage_eq] at h_marked
  constructor
  · intro h_text
    exact h_text.unique (charactersOn_pairwise _) h_marked
  · rintro rfl
    exact h_marked

/-- Three matches without a character between them, the first one over an empty fragment, and the
    cursor on the second one. -/
theorem highlightPage_marked_adjacent :
    let r := (Results.ofList
      [⟨0, ⟨0, 1⟩, ⟨2, 0⟩⟩, ⟨0, ⟨2, 1⟩, ⟨2, 2⟩⟩, ⟨0, ⟨3, 0⟩, ⟨3, 0⟩⟩]).run [.next]
    Marked r.markOf (r.listed.filter fun m => m.page = 0)
      (charactersOn ["ab".toList, [], "cab".toList, "x".toList])
      "a[bc]\x7bab\x7d[x]".toList := by
  have h_within : ∀ m : Match, m ∈ [⟨0, ⟨0, 1⟩, ⟨2, 0⟩⟩, ⟨0, ⟨2, 1⟩, ⟨2, 2⟩⟩, ⟨0, ⟨3, 0⟩, ⟨3, 0⟩⟩] →
      m.Within (.ofFragments [["ab".toList, [], "cab".toList, "x".toList]]) := by
    rw [List.forall_mem_cons, List.forall_mem_cons, List.forall_mem_singleton]
    refine ⟨⟨by decide, ?_⟩, ⟨by decide, ?_⟩, ⟨by decide, ?_⟩⟩
    · exact @exists_delimited _ ('b', ⟨0, 1⟩) ('c', ⟨2, 0⟩) (charactersOn_pairwise _) (by decide)
        (by decide) (by decide)
    · exact @exists_delimited _ ('a', ⟨2, 1⟩) ('b', ⟨2, 2⟩) (charactersOn_pairwise _) (by decide)
        (by decide) (by decide)
    · exact @exists_delimited _ ('x', ⟨3, 0⟩) ('x', ⟨3, 0⟩) (charactersOn_pairwise _) (by decide)
        (by decide) (by decide)
  have h_before : List.Pairwise (fun m n : Match => m.page = n.page → m.last.Before n.first)
      [⟨0, ⟨0, 1⟩, ⟨2, 0⟩⟩, ⟨0, ⟨2, 1⟩, ⟨2, 2⟩⟩, ⟨0, ⟨3, 0⟩, ⟨3, 0⟩⟩] := by decide
  obtain ⟨-, h_marked⟩ := highlightPage_marked
    (.ofFragments [["ab".toList, [], "cab".toList, "x".toList]])
  exact (h_marked _ h_within (h_before.imp Match.disjoint_of_before) [.next] 0 _).2 (by cbv)

end PagedSearch
