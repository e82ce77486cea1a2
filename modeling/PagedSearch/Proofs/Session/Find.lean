/-
  PagedSearch.Proofs.Session.Find

  What a search for a literal pattern finds (`find_sought`): the nearest
  occurrence ahead on the page it starts on, else the nearest one on the
  first page on its way that has one, the start page coming last. It finds
  nothing only if the pattern occurs on no page.
-/
import Mathlib
import PagedSearch.Proofs.Session.Nearest
import PagedSearch.Proofs.Session.Reachable

namespace PagedSearch

namespace Session

/-! ## What is sought -/

/-- The session's pattern occurs where the match is. -/
def Occurs (s : Session) (d : Document) (m : Match) : Prop :=
  s.query.settings.Occurs s.query.pattern d m

/-- The match lies behind the selection in the session's direction. A selection on another page
    does not count. -/
def Ahead (s : Session) (m : Match) : Prop :=
  ∀ sel, s.selection = some sel → sel.page = m.page →
    match s.query.settings.direction with
    | .forward => sel.last.Before m.first
    | .backward => m.last.Before sel.first

/-- What a search that starts on a page is to find. Pages are counted on from the start page around
    the document. -/
inductive SoughtFrom (s : Session) (d : Document) (start : Nat) (m : Match) : Prop where
  /-- The nearest occurrence ahead on the start page. -/
  | ahead : s.Occurs d m → m.page = start → s.Ahead m →
      (∀ n, s.Occurs d n → n.page = start → s.Ahead n →
        s.query.settings.direction.NoFarther m n) → SoughtFrom s d start m
  /-- Nothing lies ahead on the start page, and the `k`-th page on from there is the first one
      with an occurrence. -/
  | around (k : Nat) : (∀ n, s.Occurs d n → n.page = start → ¬ s.Ahead n) →
      0 < k → k ≤ d.pageCount → s.Occurs d m →
      m.page = d.pageAt s.query.settings.direction start k →
      (∀ n, s.Occurs d n → n.page = m.page → s.query.settings.direction.NoFarther m n) →
      (∀ i, 0 < i → i < k → ∀ n, s.Occurs d n →
        n.page ≠ d.pageAt s.query.settings.direction start i) → SoughtFrom s d start m

/-- What a search is to find. It starts on the session's page if the document has that page, else on
    the first one. -/
structure Sought (s : Session) (d : Document) (m : Match) : Prop where
  from_page : s.page < d.pageCount → s.SoughtFrom d s.page m
  from_first : d.pageCount ≤ s.page → s.SoughtFrom d 0 m

section

variable {s : Session} {d : Document} {m : Match}

theorem SoughtFrom.occurs {start : Nat} (h : s.SoughtFrom d start m) : s.Occurs d m := by
  cases h with
  | ahead h_occurs => exact h_occurs
  | around _ _ _ _ h_occurs => exact h_occurs

theorem sought_iff : s.Sought d m ↔ s.SoughtFrom d (s.startPage d) m := by
  rw [startPage]
  split
  · rename_i h_page
    exact ⟨fun h => h.from_page h_page, fun h =>
      ⟨fun _ => h, fun h_le => absurd h_page (Nat.not_lt_of_le h_le)⟩⟩
  · rename_i h_page
    exact ⟨fun h => h.from_first (Nat.le_of_not_lt h_page), fun h =>
      ⟨fun h_lt => absurd h_lt h_page, fun _ => h⟩⟩

theorem Sought.occurs (h : s.Sought d m) : s.Occurs d m := (sought_iff.1 h).occurs

/-- A search goes on from the selection if that is on the page. -/
theorem ahead_resumePoint?_iff {page : Nat} (h_page : m.page = page) :
    s.query.settings.direction.Ahead (s.resumePoint? page) (m.entry s.query.settings.direction) ↔
      s.Ahead m := by
  rw [resumePoint?, Ahead]
  cases h_selection : s.selection with
  | none =>
    refine ⟨fun _ sel h_sel => absurd h_sel (by simp), fun _ => trivial⟩
  | some sel =>
    by_cases h_sel : sel.page = page
    · simp only [if_pos h_sel]
      constructor
      · rintro h_ahead other h_other -
        rw [← Option.some.inj h_other]
        cases h_dir : s.query.settings.direction with
        | forward =>
          rw [h_dir] at h_ahead
          exact h_ahead
        | backward =>
          rw [h_dir] at h_ahead
          exact h_ahead
      · -- the one selection that counts is the one that the search goes on from
        intro h_ahead
        have h_sel_ahead := h_ahead sel rfl (h_sel.trans h_page.symm)
        cases h_dir : s.query.settings.direction with
        | forward =>
          rw [h_dir] at h_sel_ahead
          exact h_sel_ahead
        | backward =>
          rw [h_dir] at h_sel_ahead
          exact h_sel_ahead
    · simp only [if_neg h_sel]
      -- the selection is on another page and does not count
      refine ⟨?_, fun _ => trivial⟩
      intro _ other h_other h_other_page
      rw [← Option.some.inj h_other, h_page] at h_other_page
      exact absurd h_other_page h_sel

end

/-! ## The first match of many pages -/

theorem head?_flatMap_range {β : Type} {f : Nat → List β} {n : Nat} {b : β} :
    ((List.range n).flatMap f).head? = some b ↔
      ∃ k < n, (f k).head? = some b ∧ ∀ i < k, f i = [] := by
  rw [List.head?_flatMap, List.findSome?_eq_some_iff]
  constructor
  · rintro ⟨front, k, back, h_range, h_k, h_front⟩
    obtain ⟨h_lt, rfl, -⟩ := range_eq_append_cons h_range
    exact ⟨k, h_lt, h_k, fun i h_i => List.head?_eq_none_iff.1 (h_front i (List.mem_range.2 h_i))⟩
  · rintro ⟨k, h_lt, h_k, h_front⟩
    refine ⟨List.range k, k, List.range' (k + 1) (n - (k + 1)), ?_, h_k, ?_⟩
    · rw [← List.range'_succ, List.range_eq_range', List.range_eq_range']
      have h_append := @List.range'_append_1 0 k (n - (k + 1) + 1)
      rw [Nat.zero_add] at h_append
      rw [h_append]
      congr 1
      omega
    · intro i h_i
      rw [h_front i (List.mem_range.1 h_i)]
      rfl

/-! ## What is found -/

section

variable {s : Session} {d : Document} {m : Match} {chain : Chain}

theorem nearest_start_iff : s.query.settings.Nearest s.query.pattern d
      (s.resumePoint? (s.startPage d)) (s.startPage d) m ↔
    s.Occurs d m ∧ m.page = s.startPage d ∧ s.Ahead m ∧
      ∀ n, s.Occurs d n → n.page = s.startPage d → s.Ahead n →
        s.query.settings.direction.NoFarther m n := by
  constructor
  · rintro ⟨h_occurs, h_page, h_ahead, h_nearest⟩
    refine ⟨h_occurs, h_page, (ahead_resumePoint?_iff h_page).1 h_ahead, ?_⟩
    intro n h_n h_n_page h_n_ahead
    exact h_nearest n h_n h_n_page ((ahead_resumePoint?_iff h_n_page).2 h_n_ahead)
  · rintro ⟨h_occurs, h_page, h_ahead, h_nearest⟩
    refine ⟨h_occurs, h_page, (ahead_resumePoint?_iff h_page).2 h_ahead, ?_⟩
    intro n h_n h_n_page h_n_ahead
    exact h_nearest n h_n h_n_page ((ahead_resumePoint?_iff h_n_page).1 h_n_ahead)

theorem start_eq_nil_iff (h_chain : chain.Spells (s.query.settings.word s.query.pattern)) :
    pageMatches s.query.settings chain d (s.resumePoint? (s.startPage d)) (s.startPage d) = [] ↔
      ∀ n, s.Occurs d n → n.page = s.startPage d → ¬ s.Ahead n := by
  rw [pageMatches_eq_nil_iff h_chain]
  constructor
  · intro h_absent n h_n h_page h_ahead
    exact h_absent n h_n h_page ((ahead_resumePoint?_iff h_page).2 h_ahead)
  · intro h_absent n h_n h_page h_ahead
    exact h_absent n h_n h_page ((ahead_resumePoint?_iff h_page).1 h_ahead)

theorem whole_eq_nil_iff (h_chain : chain.Spells (s.query.settings.word s.query.pattern))
    {page : Nat} :
    pageMatches s.query.settings chain d none page = [] ↔ ∀ n, s.Occurs d n → n.page ≠ page := by
  rw [pageMatches_eq_nil_iff h_chain]
  exact ⟨fun h_absent n h_n h_page => h_absent n h_n h_page trivial,
    fun h_absent n h_n h_page _ => h_absent n h_n h_page⟩

/-- Pages that do not exist hold no occurrence. -/
theorem page_lt_of_occurs (h_chain : chain.Spells (s.query.settings.word s.query.pattern))
    (h : s.Occurs d m) : m.page < d.pageCount := by
  apply Nat.lt_of_not_le
  intro h_le
  exact (whole_eq_nil_iff h_chain).1 (pageMatches_eq_nil h_le) m h rfl

/-- What a search meets first is what is sought. -/
theorem head?_upcoming_iff (h_chain : chain.Spells (s.query.settings.word s.query.pattern)) :
    (s.upcoming chain d).head? = some m ↔ s.Sought d m := by
  rw [sought_iff]
  rcases Nat.eq_zero_or_pos d.pageCount with h_none | h_pos
  · rw [upcoming_eq_nil s chain h_none, List.head?_nil]
    -- without pages nothing is found and nothing occurs
    refine ⟨fun h => absurd h (by simp), ?_⟩
    intro h_sought
    have h_lt := page_lt_of_occurs h_chain h_sought.occurs
    omega
  · rw [upcoming, itinerary_tail (s.startPage_lt h_pos), List.flatMap_map, List.head?_append,
      Option.or_eq_some_iff, head?_pageMatches h_chain, nearest_start_iff, List.head?_eq_none_iff,
      start_eq_nil_iff h_chain, head?_flatMap_range]
    constructor
    · rintro (⟨h_occurs, h_page, h_ahead, h_nearest⟩ | ⟨h_absent, k, h_k, h_first, h_before⟩)
      · exact .ahead h_occurs h_page h_ahead h_nearest
      · -- the walk counts the pages behind the start page from zero
        obtain ⟨h_occurs, h_page, -, h_nearest⟩ := (head?_pageMatches h_chain).1 h_first
        refine .around (k + 1) h_absent (Nat.succ_pos k) h_k h_occurs h_page ?_ ?_
        · intro n h_n h_n_page
          exact h_nearest n h_n (h_n_page.trans h_page) trivial
        · intro i h_i h_lt
          have h_nil := h_before (i - 1) (by omega)
          rw [Nat.sub_add_cancel h_i] at h_nil
          exact (whole_eq_nil_iff h_chain).1 h_nil
    · intro h_sought
      cases h_sought with
      | ahead h_occurs h_page h_ahead h_nearest =>
        exact .inl ⟨h_occurs, h_page, h_ahead, h_nearest⟩
      | around k h_absent h_k h_le h_occurs h_page h_nearest h_before =>
        refine .inr ⟨h_absent, k - 1, by omega, ?_, ?_⟩
        · rw [head?_pageMatches h_chain, Nat.sub_add_cancel h_k]
          exact ⟨h_occurs, h_page, trivial, fun n h_n h_n_page _ =>
            h_nearest n h_n (h_n_page.trans h_page.symm)⟩
        · intro i h_i
          exact (whole_eq_nil_iff h_chain).2 (h_before (i + 1) (Nat.succ_pos i) (by omega))

/-- A search meets nothing exactly if the pattern occurs nowhere. -/
theorem upcoming_eq_nil_iff (h_chain : chain.Spells (s.query.settings.word s.query.pattern)) :
    s.upcoming chain d = [] ↔ ∀ m, ¬ s.Occurs d m := by
  rw [upcoming_eq_nil_iff_pages, start_eq_nil_iff h_chain]
  constructor
  · rintro ⟨-, h_nil⟩ m h_occurs
    exact (whole_eq_nil_iff h_chain).1 (h_nil m.page) m h_occurs rfl
  · intro h_absent
    exact ⟨fun n h_n => absurd h_n (h_absent n), fun page =>
      (whole_eq_nil_iff h_chain).2 fun n h_n => absurd h_n (h_absent n)⟩

end

theorem Occurs.spanned_eq {s : Session} {d : Document} {m : Match} (h : s.Occurs d m) :
    m.first.fragment + m.spanned = m.last.fragment + 1 :=
  Match.first_add_spanned (first_le_last_of_occurs h)

end Session

/-- A search for a literal pattern finds what is sought, and nothing exactly if the pattern occurs
    on no page. What it finds is selected, and its page becomes the page to start on. -/
theorem find_sought (s : Session) (d : Document) (chain : Chain) (h_reachable : s.Reachable)
    (h_mode : s.query.settings.mode = .literal)
    (h_compiles : Chain.compile s.query.settings s.query.pattern = .ok chain) :
    (∀ m, (s.find d .never).2 = .found m ↔ s.Sought d m) ∧
    ((s.find d .never).2 = .notFound ↔ ∀ m, ¬ s.Occurs d m) ∧
    ∀ m, (s.find d .never).2 = .found m →
      (s.find d .never).1.selection = some m ∧ (s.find d .never).1.page = m.page ∧
      m.first.fragment + m.spanned = m.last.fragment + 1 := by
  have h_chain : s.query.chain = some chain := by
    rw [h_reachable.coherent.chain_of_literal h_mode, h_compiles]
    rfl
  have h_spells := Chain.spells_of_compile h_mode h_compiles
  have h_outcome := Session.find_outcome h_chain d
  have h_found : ∀ m, (s.find d .never).2 = .found m ↔ s.Sought d m := by
    intro m
    rw [← Session.head?_upcoming_iff h_spells, h_outcome]
    cases (s.upcoming chain d).head? with
    | none => exact ⟨fun h => absurd h (by simp [Outcome.ofOption]), fun h => absurd h (by simp)⟩
    | some n => simp only [Outcome.ofOption, Outcome.found.injEq, Option.some.injEq]
  refine ⟨h_found, ?_, ?_⟩
  · rw [← Session.upcoming_eq_nil_iff h_spells, h_outcome]
    cases s.upcoming chain d with
    | nil => exact ⟨fun _ => rfl, fun _ => rfl⟩
    | cons n found =>
      exact ⟨fun h => absurd h (by simp [Outcome.ofOption]), fun h => absurd h (by simp)⟩
  · intro m h_m
    obtain ⟨h_selection, h_page⟩ := Session.find_found h_m
    exact ⟨h_selection, h_page, ((h_found m).1 h_m).occurs.spanned_eq⟩

/-- Backward from the last of three pages and from a selection that another document has left, on to
    the page before. The pattern also occurs on the first page, where the search does not start. -/
theorem find_sought_aba :
    ((((Session.new { direction := .backward }).perform (.setQuery "aba".toList)).perform
      (.setPage 2)).perform (.find (.ofFragments [[], [], ["ababa".toList]]) .never)).Sought
        (.ofFragments [["aba".toList], ["xa".toList, [], "b a".toList], ["ab".toList, "aba".toList]])
        ⟨1, ⟨0, 1⟩, ⟨2, 2⟩⟩ := by
  have h := find_sought
    ((((Session.new { direction := .backward }).perform (.setQuery "aba".toList)).perform
      (.setPage 2)).perform (.find (.ofFragments [[], [], ["ababa".toList]]) .never))
    (.ofFragments [["aba".toList], ["xa".toList, [], "b a".toList], ["ab".toList, "aba".toList]])
    ⟨[.char 'a', .char 'b', .char 'a'], [0, 0, 0], rfl, rfl, by cbv⟩
    (.step _ (.step _ (.step _ (.new _)))) (by cbv) (by cbv)
  exact (h.1 _).1 (by cbv)

end PagedSearch
