/-
  PagedSearch.Proofs.Session.Tour

  The way of a search over the pages. A search is over on a page where it
  finds a match or is stopped, or else reads the page wholly and goes on
  (`search_cases`). So it visits a first part of its itinerary
  (`search_visits`), and one that finds nothing reads all of it
  (`search_notFound`): every page comes once behind the start page, and that
  one is visited twice (`itinerary_count`).
-/
import Mathlib
import PagedSearch.Proofs.Session.Reader

namespace PagedSearch

/-! ## Around the document -/

section

variable {d : Document} {dir : Direction} {start : Nat}

/-- Behind the start page every page comes once. -/
theorem itinerary_tail_perm (h : start < d.pageCount) :
    (itinerary d dir start).tail.Perm (List.range d.pageCount) := by
  -- every page comes, and there are as many steps as pages
  have h_subset : List.range d.pageCount ⊆ (itinerary d dir start).tail := by
    intro page h_page
    obtain ⟨k, h_k, rfl⟩ : ∃ k < d.pageCount, d.pageAt dir start (k + 1) = page :=
      exists_pageAt h (List.mem_range.1 h_page)
    rw [itinerary_tail h]
    exact List.mem_map_of_mem (List.mem_range.2 h_k)
  refine ((List.nodup_range.subperm h_subset).perm_of_length_le ?_).symm
  rw [List.length_tail, itinerary_length, List.length_range, Nat.add_sub_cancel]

/-- A search that finds nothing visits the start page twice and every other page once. -/
theorem itinerary_count (h : start < d.pageCount) {page : Nat} (h_page : page < d.pageCount) :
    (itinerary d dir start).count page = if page = start then 2 else 1 := by
  have h_tail : (itinerary d dir start).tail.count page = 1 := by
    rw [(@itinerary_tail_perm d dir start h).count_eq]
    exact List.count_eq_one_of_mem List.nodup_range (List.mem_range.2 h_page)
  rw [itinerary_eq_cons, List.count_cons, h_tail]
  by_cases h_eq : page = start
  · rw [if_pos h_eq, if_pos (beq_iff_eq.2 h_eq.symm)]
  · rw [if_neg h_eq, if_neg]
    rw [beq_iff_eq]
    exact Ne.symm h_eq

end

/-! ## Reading pages -/

/-- A visit on which the whole page is read. -/
def Visit.whole (dir : Direction) (d : Document) (page : Nat) : Visit :=
  ⟨page, stretches dir none (d.fragments page)⟩

theorem Match.ofFed_page (dir : Direction) (page : Nat) (parts : List Stretch)
    (span : Span Place) : (Match.ofFed dir page parts span).page = page := by
  cases dir with
  | forward => rfl
  | backward => rfl

namespace Scanner

variable {d : Document} {interrupt : Interrupt} {scanner : Scanner} {chain : Chain}
  {raised : Bool} {call : Nat} {resume : Option Point} {pages : List Nat}

/-- On a page a search finds a match or is stopped, and is then over, or it reads all of the page
    that lies ahead and goes on with the same query. -/
theorem search_cases (h : scanner.query.chain = some chain) (d : Document) (interrupt : Interrupt)
    (raised : Bool) (call : Nat) (resume : Option Point) (page : Nat) (pages : List Nat) :
    let passage := scanner.search d interrupt raised call resume (page :: pages)
    let parts := stretches scanner.query.settings.direction resume (d.fragments page)
    (∃ read, passage.visits = [⟨page, read⟩] ∧ passage.result ≠ .notFound ∧
      ∀ m, passage.result = .found m → m.page = page) ∨
    ∃ next : Scanner, next.query = scanner.query ∧
      let rest :=
        next.search d interrupt (raised || interrupt.raises call page) (call + 1) none pages
      passage.visits = ⟨page, parts⟩ :: rest.visits ∧ passage.result = rest.result := by
  rw [search]
  simp only
  generalize stretches scanner.query.settings.direction resume (d.fragments page) = parts
  split
  · refine .inl ⟨_, rfl, Outcome.noConfusion, ?_⟩
    rintro m ⟨⟩
    exact Match.ofFed_page ..
  · exact .inl ⟨_, rfl, Outcome.noConfusion, fun m => Outcome.noConfusion⟩
  · rename_i h_spans h_stopped
    have h_read := @seek_exhausted scanner.reset chain _ h parts h_spans h_stopped
    rw [h_read]
    exact .inr ⟨_, seek_query _ scanner.reset _, rfl, rfl⟩

/-- A search visits the first of the pages. It ends on the page where it finds a match. -/
theorem search_visits (h : scanner.query.chain = some chain) (d : Document) (interrupt : Interrupt)
    (raised : Bool) (call : Nat) (resume : Option Point) (pages : List Nat) :
    let passage := scanner.search d interrupt raised call resume pages
    passage.visits.map Visit.page <+: pages ∧ (pages ≠ [] → passage.visits ≠ []) ∧
      ∀ m, passage.result = .found m → (passage.visits.map Visit.page).getLast? = some m.page := by
  induction pages generalizing scanner raised call resume with
  | nil =>
    refine ⟨List.nil_prefix, fun h_nil => absurd rfl h_nil, ?_⟩
    rintro m ⟨⟩
  | cons page pages ih =>
    rcases search_cases h d interrupt raised call resume page pages with
      ⟨read, h_visits, -, h_found⟩ | ⟨next, h_query, h_visits, h_result⟩
    · simp only [h_visits, List.map_singleton, List.getLast?_singleton]
      refine ⟨List.cons_prefix_cons.2 ⟨rfl, List.nil_prefix⟩, fun _ => List.cons_ne_nil _ _, ?_⟩
      intro m h_m
      rw [h_found m h_m]
    · obtain ⟨h_front, -, h_last⟩ := ih ((congrArg Query.chain h_query).trans h)
        (raised || interrupt.raises call page) (call + 1) none
      simp only [h_visits, h_result, List.map_cons]
      refine ⟨List.cons_prefix_cons.2 ⟨rfl, h_front⟩, fun _ => List.cons_ne_nil _ _, ?_⟩
      intro m h_m
      rw [List.getLast?_cons, h_last m h_m, Option.getD_some]

/-- A search that finds nothing reads what is ahead on the first page and then whole pages. -/
theorem search_notFound (h : scanner.query.chain = some chain) (d : Document)
    (interrupt : Interrupt) (raised : Bool) (call : Nat) (resume : Option Point) (page : Nat)
    (pages : List Nat) :
    let passage := scanner.search d interrupt raised call resume (page :: pages)
    let dir := scanner.query.settings.direction
    passage.result = .notFound →
      passage.visits = ⟨page, stretches dir resume (d.fragments page)⟩ ::
        pages.map (Visit.whole dir d) := by
  induction pages generalizing scanner raised call resume page with
  | nil =>
    intro passage dir h_notFound
    rcases search_cases h d interrupt raised call resume page [] with
      ⟨read, -, h_over, -⟩ | ⟨next, -, h_visits, -⟩
    · exact absurd h_notFound h_over
    · exact h_visits
  | cons page' pages ih =>
    intro passage dir h_notFound
    rcases search_cases h d interrupt raised call resume page (page' :: pages) with
      ⟨read, -, h_over, -⟩ | ⟨next, h_query, h_visits, h_result⟩
    · exact absurd h_notFound h_over
    · have h_rest := ih ((congrArg Query.chain h_query).trans h)
        (raised || interrupt.raises call page) (call + 1) none page'
      rw [h_query] at h_rest
      rw [h_visits, h_rest (h_result.symm.trans h_notFound), List.map_cons]
      rfl

end Scanner

/-! ## Sessions -/

namespace Reader

variable {r : Reader} {d : Document} {chain : Chain}

/-- A reader with a chain walks over a document with a page. -/
theorem tour_eq (h : r.session.query.chain = some chain) (h_pages : 0 < d.pageCount)
    (interrupt : Interrupt) :
    r.tour d interrupt = r.scanner.search d interrupt false 1
      (r.session.resumePoint? (r.session.startPage d))
      (itinerary d r.session.query.settings.direction (r.session.startPage d)) := by
  rw [tour, h]
  exact if_neg (Nat.ne_of_gt h_pages)

/-- A search that finds nothing reads each page wholly behind the start page. -/
theorem tour_notFound (h : r.session.query.chain = some chain) (h_pages : 0 < d.pageCount)
    {interrupt : Interrupt} (h_result : (r.tour d interrupt).result = .notFound) :
    let dir := r.session.query.settings.direction
    let start := r.session.startPage d
    (r.tour d interrupt).visits =
      ⟨start, stretches dir (r.session.resumePoint? start) (d.fragments start)⟩ ::
        (itinerary d dir start).tail.map (Visit.whole dir d) := by
  have h_visits := Scanner.search_notFound (r.scanner_chain h) d interrupt false 1
    (r.session.resumePoint? (r.session.startPage d)) (r.session.startPage d)
    (itinerary d r.session.query.settings.direction (r.session.startPage d)).tail
  rw [← itinerary_eq_cons, ← tour_eq h h_pages interrupt, r.query_eq] at h_visits
  exact h_visits h_result

/-- A search that finds nothing visits the start page twice and every other page once, and reads
    each of them wholly. -/
theorem tour_count (h : r.session.query.chain = some chain) (h_pages : 0 < d.pageCount)
    {interrupt : Interrupt} (h_result : (r.tour d interrupt).result = .notFound) {page : Nat}
    (h_page : page < d.pageCount) :
    let visits := (r.tour d interrupt).visits
    (visits.map Visit.page).count page = (if page = r.session.startPage d then 2 else 1) ∧
      Visit.whole r.session.query.settings.direction d page ∈ visits := by
  intro visits
  have h_start := r.session.startPage_lt h_pages
  have h_read : visits = _ := tour_notFound h h_pages h_result
  constructor
  · have h_visits : visits.map Visit.page =
        itinerary d r.session.query.settings.direction (r.session.startPage d) := by
      rw [h_read, List.map_cons, List.map_map]
      exact (congrArg _ (List.map_id _)).trans (itinerary_eq_cons ..).symm
    rw [h_visits]
    exact itinerary_count h_start h_page
  · rw [h_read]
    refine List.mem_cons_of_mem _ (List.mem_map_of_mem ?_)
    exact (itinerary_tail_perm h_start).mem_iff.2 (List.mem_range.2 h_page)

/-- The pages that a search visits are the start page and those of the next steps. It goes around
    the document unless it finds a match on the last of them or is stopped there. -/
theorem tour_visits (h : r.session.query.chain = some chain) (h_pages : 0 < d.pageCount)
    (interrupt : Interrupt) :
    let dir := r.session.query.settings.direction
    let start := r.session.startPage d
    let tour := r.tour d interrupt
    ∃ k ≤ d.pageCount, tour.visits.map Visit.page = (List.range (k + 1)).map (d.pageAt dir start) ∧
      (tour.result = .notFound → k = d.pageCount) ∧
      ∀ m, tour.result = .found m → m.page = d.pageAt dir start k := by
  intro dir start tour
  have h_start : start < d.pageCount := r.session.startPage_lt h_pages
  have h_visits := Scanner.search_visits (r.scanner_chain h) d interrupt false 1
    (r.session.resumePoint? start) (itinerary d dir start)
  rw [← tour_eq h h_pages interrupt] at h_visits
  obtain ⟨h_front, h_some, h_last⟩ := h_visits
  have h_visited : tour.visits ≠ [] := by
    apply h_some
    rw [itinerary_eq_cons]
    exact List.cons_ne_nil _ _
  -- a first part of the itinerary, as long as there are visits
  obtain ⟨k, h_k⟩ := Nat.exists_eq_add_one_of_ne_zero (mt List.length_eq_zero_iff.1 h_visited)
  have h_le : k + 1 ≤ d.pageCount + 1 := by
    rw [← itinerary_length d dir start, ← h_k, ← List.length_map Visit.page]
    exact h_front.length_le
  have h_map : tour.visits.map Visit.page = (List.range (k + 1)).map (d.pageAt dir start) := by
    rw [List.prefix_iff_eq_take.1 h_front, List.length_map, itinerary_eq h_start, ← List.map_take,
      List.take_range, h_k, Nat.min_eq_left h_le]
  refine ⟨k, Nat.le_of_succ_le_succ h_le, h_map, fun h_notFound => ?_, fun m h_m => ?_⟩
  · have h_all := congrArg List.length (tour_notFound h h_pages h_notFound)
    rw [List.length_cons, List.length_map, List.length_tail, itinerary_length] at h_all
    exact Nat.succ.inj (h_k.symm.trans h_all)
  · have h_page := h_last m h_m
    rw [h_map, List.range_succ, List.map_append, List.map_singleton, List.getLast?_concat] at h_page
    exact (Option.some.inj h_page).symm

end Reader

end PagedSearch
