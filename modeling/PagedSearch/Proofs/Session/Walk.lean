/-
  PagedSearch.Proofs.Session.Walk

  Walks that are not stopped. A search visits the pages in cyclic order, the
  first one again at the end (`itinerary_eq`), and comes to the first match
  on its way (`walk_outcome`); a listing takes all of them
  (`listing_never`). `Session.upcoming` is the list of matches that a session
  has before it, and a search comes to its head (`find_outcome`).
-/
import PagedSearch.Proofs.Session.Page
import PagedSearch.Proofs.Session.Stretch
import PagedSearch.Session

namespace PagedSearch

/-! ## From page to page -/

theorem range_eq_append_cons {n i : Nat} {front back : List Nat}
    (h : List.range n = front ++ i :: back) :
    i < n ∧ front = List.range i ∧ back = List.range' (i + 1) (n - (i + 1)) := by
  rw [List.range_eq_range', List.range'_eq_append_iff] at h
  obtain ⟨k, h_k, h_front, h_back⟩ := h
  rw [eq_comm, List.range'_eq_cons_iff] at h_back
  obtain ⟨h_i, h_lt, h_back⟩ := h_back
  have h_eq : k = i := by omega
  subst h_eq
  refine ⟨by omega, by rw [h_front, List.range_eq_range'], ?_⟩
  rw [h_back, Nat.sub_sub]

/-- The page `k` steps on from a page, around the ends of the document; `k` is at most the number
    of pages. -/
def Document.pageAt (d : Document) (dir : Direction) (page k : Nat) : Nat :=
  match dir with
  | .forward => (page + k) % d.pageCount
  | .backward => (page + (d.pageCount - k)) % d.pageCount

section

variable {d : Document} {dir : Direction} {page : Nat}

theorem pageAt_zero (h : page < d.pageCount) : d.pageAt dir page 0 = page := by
  cases dir with
  | forward => exact Nat.mod_eq_of_lt h
  | backward =>
    show (page + d.pageCount) % d.pageCount = page
    rw [Nat.add_mod_right, Nat.mod_eq_of_lt h]

theorem adjacent_lt (h : page < d.pageCount) : d.adjacent page dir < d.pageCount := by
  have h_pos : 0 < d.pageCount := Nat.lt_of_le_of_lt (Nat.zero_le _) h
  rw [Document.adjacent.eq_def, if_neg (Nat.ne_of_gt h_pos)]
  cases dir with
  | forward => exact Nat.mod_lt _ h_pos
  | backward =>
    show (if page = 0 ∨ d.pageCount ≤ page then d.pageCount - 1 else page - 1) < d.pageCount
    split <;> omega

/-- A step from the next page is one step more. -/
theorem pageAt_adjacent (h : page < d.pageCount) {k : Nat} (h_k : k < d.pageCount) :
    d.pageAt dir (d.adjacent page dir) k = d.pageAt dir page (k + 1) := by
  rw [Document.adjacent.eq_def, if_neg (by omega)]
  cases dir with
  | forward =>
    show ((page + 1) % d.pageCount + k) % d.pageCount = (page + (k + 1)) % d.pageCount
    rw [Nat.mod_add_mod, Nat.add_assoc, Nat.add_comm 1 k]
  | backward =>
    show ((if page = 0 ∨ d.pageCount ≤ page then d.pageCount - 1 else page - 1) +
      (d.pageCount - k)) % d.pageCount = (page + (d.pageCount - (k + 1))) % d.pageCount
    rcases Nat.eq_zero_or_pos page with h_zero | h_pos
    · -- from the first page around to the last
      rw [if_pos (.inl h_zero), show d.pageCount - 1 + (d.pageCount - k) =
        page + (d.pageCount - (k + 1)) + d.pageCount by omega, Nat.add_mod_right]
    · rw [if_neg (by omega), show page - 1 + (d.pageCount - k) =
        page + (d.pageCount - (k + 1)) by omega]

theorem visitsFrom_eq (h : page < d.pageCount) {k : Nat} (h_k : k ≤ d.pageCount) :
    visitsFrom d dir k page = (List.range (k + 1)).map (d.pageAt dir page) := by
  -- one step on, the same pages are counted from the neighbour
  induction k generalizing page with
  | zero => rw [visitsFrom, List.range_one, List.map_singleton, pageAt_zero h]
  | succ k ih =>
    rw [visitsFrom, ih (adjacent_lt h) (by omega), @List.range_succ_eq_map (k + 1), List.map_cons,
      pageAt_zero h, List.map_map, List.cons.injEq]
    refine ⟨rfl, ?_⟩
    apply List.map_congr_left
    intro i h_i
    rw [List.mem_range] at h_i
    exact pageAt_adjacent h (by omega)

/-- A search visits the pages in cyclic order, from the one it starts on to the same one again. -/
theorem itinerary_eq (h : page < d.pageCount) :
    itinerary d dir page = (List.range (d.pageCount + 1)).map (d.pageAt dir page) :=
  visitsFrom_eq h (Nat.le_refl _)

/-- A search starts on its start page, whether the document has it or not. -/
theorem itinerary_eq_cons (d : Document) (dir : Direction) (page : Nat) :
    itinerary d dir page = page :: (itinerary d dir page).tail := by
  rw [itinerary]
  cases d.pageCount with
  | zero => rfl
  | succ n => rfl

theorem itinerary_tail (h : page < d.pageCount) :
    (itinerary d dir page).tail =
      (List.range d.pageCount).map fun k => d.pageAt dir page (k + 1) := by
  rw [itinerary_eq h, List.range_succ_eq_map, List.map_cons, List.tail_cons, List.map_map]
  rfl

/-- Every page is met on the way. -/
theorem exists_pageAt {start : Nat} (h_start : start < d.pageCount) (h : page < d.pageCount) :
    ∃ k < d.pageCount, d.pageAt dir start (k + 1) = page := by
  cases dir with
  | forward =>
    -- the page lies behind the start page, or around the end of the document
    rcases Nat.lt_or_ge start page with h_lt | h_ge
    · refine ⟨page - start - 1, by omega, ?_⟩
      show (start + (page - start - 1 + 1)) % d.pageCount = page
      rw [show start + (page - start - 1 + 1) = page by omega, Nat.mod_eq_of_lt h]
    · refine ⟨page + d.pageCount - start - 1, by omega, ?_⟩
      show (start + (page + d.pageCount - start - 1 + 1)) % d.pageCount = page
      rw [show start + (page + d.pageCount - start - 1 + 1) = page + d.pageCount by omega,
        Nat.add_mod_right, Nat.mod_eq_of_lt h]
  | backward =>
    -- the page lies in front of the start page, or around the start of the document
    rcases Nat.lt_or_ge page start with h_lt | h_ge
    · refine ⟨start - page - 1, by omega, ?_⟩
      show (start + (d.pageCount - (start - page - 1 + 1))) % d.pageCount = page
      rw [show start + (d.pageCount - (start - page - 1 + 1)) = page + d.pageCount by omega,
        Nat.add_mod_right, Nat.mod_eq_of_lt h]
    · refine ⟨start + d.pageCount - page - 1, by omega, ?_⟩
      show (start + (d.pageCount - (start + d.pageCount - page - 1 + 1))) % d.pageCount = page
      rw [show start + (d.pageCount - (start + d.pageCount - page - 1 + 1)) = page by omega,
        Nat.mod_eq_of_lt h]

/-- Forward, the pages behind come first and then those from the first page on. -/
theorem itinerary_forward (h : page < d.pageCount) :
    itinerary d .forward page =
      page :: (List.range' (page + 1) (d.pageCount - (page + 1)) ++ List.range (page + 1)) := by
  -- up to the last page the pages are counted on
  have h_before : (List.range' 0 (d.pageCount - page)).map (d.pageAt .forward page) =
      page :: List.range' (page + 1) (d.pageCount - (page + 1)) := by
    have h_shift : (List.range' 0 (d.pageCount - page)).map (d.pageAt .forward page) =
        (List.range' 0 (d.pageCount - page)).map (page + ·) := by
      apply List.map_congr_left
      intro i h_i
      rw [List.mem_range'_1] at h_i
      exact Nat.mod_eq_of_lt (by omega)
    rw [h_shift, List.map_add_range', Nat.add_zero, ← List.range'_succ]
    congr 1
    omega
  -- from here on the pages are counted from the first one again
  have h_around : (List.range' (d.pageCount - page) (page + 1)).map (d.pageAt .forward page) =
      List.range (page + 1) := by
    have h_shift : (List.range' (d.pageCount - page) (page + 1)).map (d.pageAt .forward page) =
        (List.range' (d.pageCount - page) (page + 1)).map (· - (d.pageCount - page)) := by
      apply List.map_congr_left
      intro i h_i
      rw [List.mem_range'_1] at h_i
      show (page + i) % d.pageCount = i - (d.pageCount - page)
      rw [Nat.mod_eq_sub_mod (by omega), Nat.mod_eq_of_lt (by omega)]
      omega
    rw [h_shift, List.map_sub_range' (Nat.le_refl _), Nat.sub_self, ← List.range_eq_range']
  rw [itinerary_eq h, List.range_eq_range', ← List.cons_append, ← h_before, ← h_around,
    ← List.map_append]
  congr 1
  have h_append := @List.range'_append_1 0 (d.pageCount - page) (page + 1)
  rw [Nat.zero_add] at h_append
  rw [h_append]
  congr 1
  omega

end

/-! ## What a walk comes to -/

/-- A search that comes to the first of some matches. -/
def Outcome.ofOption : Option Match → Outcome
  | some m => .found m
  | none => .notFound

/-- A walk that is not stopped ends on a page with a match ahead or goes on. -/
theorem walk_cons (s : Settings) (chain : Chain) (d : Document) (call : Nat)
    (resume : Option Point) (page : Nat) (pages : List Nat) :
    walk s chain d .never false call resume (page :: pages) =
      match (pageMatches s chain d resume page).head? with
      | some m => ⟨[page], .found m, false⟩
      | none =>
        let trip := walk s chain d .never false (call + 1) none pages
        { trip with visited := page :: trip.visited } := by
  obtain ⟨h_stopped, h_spans⟩ := @Scanner.seek_lowered (Scanner.fresh s chain) chain
    (Interrupt.never.isUp false call) rfl (fun _ => rfl)
    (stretches s.direction resume (d.fragments page))
  have h_down : (false || Interrupt.never.raises call page) = false := rfl
  rw [walk, pageMatches, ← firstMatch?_eq_head?, firstMatch?, h_down, h_stopped, h_spans]
  cases (Scanner.fresh s chain).firstOf? (stretches s.direction resume (d.fragments page)) with
  | none => rfl
  | some span => rfl

theorem walk_outcome_whole (s : Settings) (chain : Chain) (d : Document) (call : Nat)
    (pages : List Nat) :
    (walk s chain d .never false call none pages).outcome =
      .ofOption (pages.flatMap (pageMatches s chain d none)).head? := by
  induction pages generalizing call with
  | nil => rfl
  | cons page pages ih =>
    rw [walk_cons, List.flatMap_cons, List.head?_append]
    cases (pageMatches s chain d none page).head? with
    | some m => rfl
    | none => exact ih (call + 1)

/-- A walk comes to the first match of the pages on its way. -/
theorem walk_outcome (s : Settings) (chain : Chain) (d : Document) (call : Nat)
    (resume : Option Point) (page : Nat) (pages : List Nat) :
    (walk s chain d .never false call resume (page :: pages)).outcome =
      .ofOption (pageMatches s chain d resume page ++
        pages.flatMap (pageMatches s chain d none)).head? := by
  rw [walk_cons, List.head?_append]
  cases (pageMatches s chain d resume page).head? with
  | some m => rfl
  | none => exact walk_outcome_whole s chain d (call + 1) pages

/-- A listing takes the matches of all pages. -/
theorem listing_never (s : Settings) (chain : Chain) (d : Document) (call : Nat)
    (pages : List Nat) :
    listing s chain d .never false call pages =
      (pages.flatMap (pageMatches s chain d none), false) := by
  induction pages generalizing call with
  | nil => rfl
  | cons page pages ih =>
    obtain ⟨h_stopped, h_spans⟩ := @Scanner.gather_lowered (Scanner.fresh s chain) chain
      (Interrupt.never.isUp false call) rfl (fun _ => rfl)
      (stretches s.direction none (d.fragments page))
    have h_down : (false || Interrupt.never.raises call page) = false := rfl
    rw [listing, List.flatMap_cons, h_down, h_stopped, h_spans, ih]
    rfl

/-! ## Sessions -/

/-- A page that does not exist has no matches. -/
theorem pageMatches_eq_nil {s : Settings} {chain : Chain} {d : Document} {resume : Option Point}
    {page : Nat} (h : d.pageCount ≤ page) : pageMatches s chain d resume page = [] := by
  have h_fragments : d.fragments page = [] := by
    rw [Document.fragments, List.getElem?_eq_none h]
  rw [pageMatches_eq, h_fragments, Settings.reading, Settings.inOrder]
  cases s.direction with
  | forward => rfl
  | backward => rfl

namespace Session

/-- The matches that a session has before it: those ahead on the page it starts on, then those of
    the other pages in cyclic order, the start page coming once more at the end. -/
def upcoming (s : Session) (chain : Chain) (d : Document) : List Match :=
  pageMatches s.query.settings chain d (s.resumePoint? (s.startPage d)) (s.startPage d) ++
    (itinerary d s.query.settings.direction (s.startPage d)).tail.flatMap
      (pageMatches s.query.settings chain d none)

theorem upcoming_eq_nil (s : Session) (chain : Chain) {d : Document} (h : d.pageCount = 0) :
    s.upcoming chain d = [] := by
  rw [upcoming, pageMatches_eq_nil (by omega), itinerary, h]
  rfl

theorem startPage_lt (s : Session) {d : Document} (h : 0 < d.pageCount) :
    s.startPage d < d.pageCount := by
  rw [startPage]
  split
  · assumption
  · exact h

/-- A session has nothing before it exactly if nothing is ahead on the page it starts on and no
    page has a match. -/
theorem upcoming_eq_nil_iff_pages {s : Session} {chain : Chain} {d : Document} :
    s.upcoming chain d = [] ↔
      pageMatches s.query.settings chain d (s.resumePoint? (s.startPage d)) (s.startPage d) = [] ∧
        ∀ page, pageMatches s.query.settings chain d none page = [] := by
  rw [upcoming, List.append_eq_nil_iff, List.flatMap_eq_nil_iff]
  refine and_congr_right fun _ => ⟨?_, fun h_nil page _ => h_nil page⟩
  intro h_nil page
  rcases Nat.lt_or_ge page d.pageCount with h_lt | h_ge
  · -- every page is met on the way around
    have h_start := s.startPage_lt (Nat.lt_of_le_of_lt (Nat.zero_le page) h_lt)
    obtain ⟨k, h_k, h_eq⟩ : ∃ k < d.pageCount,
        d.pageAt s.query.settings.direction (s.startPage d) (k + 1) = page :=
      exists_pageAt h_start h_lt
    apply h_nil
    rw [itinerary_tail h_start, List.mem_map]
    exact ⟨k, List.mem_range.2 h_k, h_eq⟩
  · exact pageMatches_eq_nil h_ge

/-- A search comes to the first match before it. -/
theorem find_outcome {s : Session} {chain : Chain} (h : s.query.chain = some chain)
    (d : Document) : (s.find d .never).2 = .ofOption (s.upcoming chain d).head? := by
  rw [find.eq_def, h]
  by_cases h_pages : d.pageCount = 0
  · simp only [if_pos h_pages, s.upcoming_eq_nil chain h_pages]
    rfl
  · simp only [if_neg h_pages]
    -- the start page is the only one that is read from the selection on
    rw [upcoming, itinerary_eq_cons]
    exact walk_outcome ..

theorem find_outcome_none {s : Session} (h : s.query.chain = none) (d : Document)
    (interrupt : Interrupt) : (s.find d interrupt).2 = .notFound := by
  rw [find.eq_def, h]

/-! ### What a search leaves -/

@[simp] theorem find_query (s : Session) (d : Document) (interrupt : Interrupt) :
    (s.find d interrupt).1.query = s.query := by
  rw [find.eq_def]
  simp only [recordAll, landed]
  split <;> rfl

@[simp] theorem find_error (s : Session) (d : Document) (interrupt : Interrupt) :
    (s.find d interrupt).1.error = s.error := by
  rw [find.eq_def]
  simp only [recordAll, landed]
  split <;> rfl

@[simp] theorem find_results (s : Session) (d : Document) (interrupt : Interrupt) :
    (s.find d interrupt).1.results = s.results := by
  rw [find.eq_def]
  simp only [recordAll, landed]
  split <;> rfl

/-- A match that was found is selected, and its page is the page to start on. -/
theorem find_found {s : Session} {d : Document} {interrupt : Interrupt} {m : Match}
    (h : (s.find d interrupt).2 = .found m) :
    (s.find d interrupt).1.selection = some m ∧ (s.find d interrupt).1.page = m.page := by
  rw [find.eq_def] at h ⊢
  simp only at h
  simp only [recordAll, h]
  exact ⟨rfl, rfl⟩

/-- Where nothing was found, the selection and the page stay. -/
theorem find_notFound {s : Session} {d : Document} {interrupt : Interrupt}
    (h : (s.find d interrupt).2 = .notFound) :
    (s.find d interrupt).1.selection = s.selection ∧ (s.find d interrupt).1.page = s.page := by
  rw [find.eq_def] at h ⊢
  simp only at h
  simp only [recordAll, h]
  exact ⟨rfl, rfl⟩

end Session

end PagedSearch
