/-
  PagedSearch.Proofs.Session.Stopping

  Stopping a walk. Once the stop flag is raised while a page is asked for,
  nothing more is read (`search_raised`, `list_raised`). A search is over with
  the first page that has something to read, or comes to nothing if no page
  has; a list holds the matches of the pages before (`stop_ends_reading`).
  The flag may also be raised between two stretches of a page, and then the
  walk is over with this page (`stop_ends_page`).
-/
import Mathlib
import PagedSearch.Proofs.Session.Listing
import PagedSearch.Proofs.Session.Reader

namespace PagedSearch

/-- What is to be read of pages, page by page; `resume` is the point on the first one to go on
    from. -/
def route (dir : Direction) (d : Document) (resume : Option Point) : List Nat → List (List Stretch)
  | [] => []
  | page :: pages => stretches dir resume (d.fragments page) :: route dir d none pages

/-- What a session reads in a search that finds nothing, page by page. -/
def Session.route (s : Session) (d : Document) : List (List Stretch) :=
  let dir := s.query.settings.direction
  let start := s.startPage d
  PagedSearch.route dir d (s.resumePoint? start) (itinerary d dir start)

/-- What a stopped search comes to if these stretches are still to be read. -/
def Outcome.ofUnread (unread : List Stretch) : Outcome :=
  if unread = [] then .notFound else .stopped

theorem Outcome.ofUnread_ne_found (unread : List Stretch) (m : Match) :
    Outcome.ofUnread unread ≠ .found m := by
  rw [ofUnread]
  split
  · exact Outcome.noConfusion
  · exact Outcome.noConfusion

namespace Scanner

variable {d : Document} {interrupt : Interrupt} {scanner : Scanner} {chain : Chain}

/-! ## Searches -/

/-- While the stop flag is up, a search reads nothing. -/
theorem search_raised (d : Document) (interrupt : Interrupt) (call : Nat) (resume : Option Point)
    (scanner : Scanner) (pages : List Nat) :
    let passage := scanner.search d interrupt true call resume pages
    (∀ visit ∈ passage.visits, visit.read = []) ∧
      passage.result =
        .ofUnread (route scanner.query.settings.direction d resume pages).flatten := by
  induction pages generalizing scanner call resume with
  | nil => exact ⟨fun visit h_visit => absurd h_visit List.not_mem_nil, rfl⟩
  | cons page pages ih =>
    rw [search, route, List.flatten_cons]
    simp only [Bool.true_or, seek_raised (interrupt.isUp_raised call 0)]
    cases h_parts : stretches scanner.query.settings.direction resume (d.fragments page) with
    | nil =>
      -- the page has nothing to read, and the walk goes on
      obtain ⟨h_visits, h_result⟩ := ih (call + 1) none scanner.reset
      exact ⟨List.forall_mem_cons.2 ⟨rfl, h_visits⟩, h_result⟩
    | cons st parts => exact ⟨fun visit h_visit => by rw [List.mem_singleton.1 h_visit], rfl⟩

/-- A search reads a page and is then over, or has read all that lies ahead there without a match
    and goes on to the next pages with the same query. -/
theorem search_cons (d : Document) (interrupt : Interrupt) (raised : Bool) (call : Nat)
    (resume : Option Point) (scanner : Scanner) (page : Nat) (pages : List Nat) :
    let passage := scanner.search d interrupt raised call resume (page :: pages)
    let up := interrupt.isUp (raised || interrupt.raises call page) call
    let reading := scanner.reset.seek up
      (stretches scanner.query.settings.direction resume (d.fragments page))
    ∃ later, passage.visits = ⟨page, reading.read⟩ :: later ∧
      (later = [] ∧ passage.result ≠ .notFound ∨
        reading.spans = [] ∧ reading.stopped = false ∧
          ∃ next : Scanner, next.query = scanner.query ∧
            let rest :=
              next.search d interrupt (raised || interrupt.raises call page) (call + 1) none pages
            later = rest.visits ∧ passage.result = rest.result) := by
  rw [search]
  simp only
  split
  · exact ⟨[], rfl, .inl ⟨rfl, Outcome.noConfusion⟩⟩
  · exact ⟨[], rfl, .inl ⟨rfl, Outcome.noConfusion⟩⟩
  · rename_i h_spans h_stopped
    exact ⟨_, rfl, .inr ⟨h_spans, h_stopped, _, seek_query _ scanner.reset _, rfl, rfl⟩⟩

/-- If the stop flag is raised when the `i`-th page is asked for, a search reads nothing from that
    page on. -/
theorem search_raised_at {raised : Bool} {call i : Nat} {resume : Option Point} {pages : List Nat}
    {visit : Visit}
    (h_visit : (scanner.search d interrupt raised call resume pages).visits[i]? = some visit)
    (h_raises : interrupt.raises (call + i) visit.page = true) :
    let passage := scanner.search d interrupt raised call resume pages
    pages[i]? = some visit.page ∧ (∀ later ∈ passage.visits.drop i, later.read = []) ∧
      passage.result =
        .ofUnread ((route scanner.query.settings.direction d resume pages).drop i).flatten := by
  induction pages generalizing scanner raised call resume i with
  | nil => exact absurd h_visit (by simp [search])
  | cons page pages ih =>
    obtain ⟨later, h_visits, h_later⟩ :=
      search_cons d interrupt raised call resume scanner page pages
    rw [h_visits] at h_visit
    cases i with
    | zero =>
      -- the flag is up before anything is read
      obtain rfl := Option.some.inj h_visit
      have h_up : scanner.search d interrupt raised call resume (page :: pages) =
          scanner.search d interrupt true call resume (page :: pages) := by
        have h_raises : interrupt.raises call page = true := h_raises
        rw [search, search, h_raises, Bool.or_true, Bool.or_true]
      rw [h_up]
      exact ⟨rfl, search_raised d interrupt call resume scanner (page :: pages)⟩
    | succ i =>
      rw [List.getElem?_cons_succ] at h_visit
      rcases h_later with ⟨rfl, -⟩ | ⟨-, -, next, h_query, rfl, h_result⟩
      · exact absurd h_visit (by simp)
      · obtain ⟨h_page, h_read, h_rest⟩ := ih h_visit (by rwa [Nat.add_assoc, Nat.add_comm 1 i])
        rw [h_query] at h_rest
        simp only [h_visits, h_result, route, List.drop_succ_cons]
        exact ⟨h_page, h_read, h_rest⟩

/-- If the stop flag is raised before a look on the `i`-th page, a search reads at most the
    stretches in front of the look. If there are others, it is over with the page. -/
theorem search_breaks_at (h : scanner.query.chain = some chain) {raised : Bool}
    {call i look : Nat} {resume : Option Point} {pages : List Nat} {visit : Visit}
    (h_visit : (scanner.search d interrupt raised call resume pages).visits[i]? = some visit)
    (h_breaks : interrupt.breaks (call + i) look = true) :
    let passage := scanner.search d interrupt raised call resume pages
    visit.read.length ≤ look ∧
      ∀ parts, (route scanner.query.settings.direction d resume pages)[i]? = some parts →
        look < parts.length → passage.visits.length = i + 1 ∧ passage.result ≠ .notFound := by
  induction pages generalizing scanner raised call resume i with
  | nil => exact absurd h_visit (by simp [search])
  | cons page pages ih =>
    obtain ⟨later, h_visits, h_later⟩ :=
      search_cons d interrupt raised call resume scanner page pages
    rw [h_visits] at h_visit
    cases i with
    | zero =>
      obtain rfl := Option.some.inj h_visit
      rw [Nat.add_zero] at h_breaks
      have h_up := Interrupt.isUp_of_breaks h_breaks (raised || interrupt.raises call page)
      have h_length := (@seek_read scanner.reset chain h (interrupt.isUp _ call)
        (stretches scanner.query.settings.direction resume (d.fragments page))).1.length_le.trans
          (ready_length_le h_up _)
      refine ⟨h_length, ?_⟩
      rintro parts h_parts h_look
      obtain rfl := Option.some.inj h_parts
      rcases h_later with ⟨rfl, h_over⟩ | ⟨h_spans, h_stopped, -⟩
      · exact ⟨congrArg List.length h_visits, h_over⟩
      · -- else all stretches would have been read, also those behind the look
        rw [@seek_exhausted scanner.reset chain _ h _ h_spans h_stopped] at h_length
        exact absurd h_look (Nat.not_lt_of_le h_length)
    | succ i =>
      rw [List.getElem?_cons_succ] at h_visit
      rcases h_later with ⟨rfl, -⟩ | ⟨-, -, next, h_query, rfl, h_result⟩
      · exact absurd h_visit (by simp)
      · obtain ⟨h_read, h_rest⟩ := ih ((congrArg Query.chain h_query).trans h) h_visit
          (by rwa [Nat.add_assoc, Nat.add_comm 1 i])
        rw [h_query] at h_rest
        simp only [h_visits, h_result, route, List.getElem?_cons_succ, List.length_cons,
          Nat.add_right_cancel_iff]
        exact ⟨h_read, h_rest⟩

/-! ## Lists -/

/-- While the stop flag is up, a list takes nothing. -/
theorem list_raised (d : Document) (interrupt : Interrupt) (call : Nat) (scanner : Scanner)
    (pages : List Nat) :
    let passage := scanner.list d interrupt true call pages
    (∀ visit ∈ passage.visits, visit.read = []) ∧ passage.result = [] := by
  induction pages generalizing scanner call with
  | nil => exact ⟨fun visit h_visit => absurd h_visit List.not_mem_nil, rfl⟩
  | cons page pages ih =>
    rw [list]
    simp only [Bool.true_or, gather_raised (interrupt.isUp_raised call 0)]
    cases h_parts : stretches scanner.query.settings.direction none (d.fragments page) with
    | nil =>
      obtain ⟨h_visits, h_result⟩ := ih (call + 1) scanner.reset
      exact ⟨List.forall_mem_cons.2 ⟨rfl, h_visits⟩, h_result⟩
    | cons st parts => exact ⟨fun visit h_visit => by rw [List.mem_singleton.1 h_visit], rfl⟩

/-- A list reads a page and is then over, or takes the matches of the whole page and goes on to the
    next ones with the same query. -/
theorem list_cons (h : scanner.query.chain = some chain) (d : Document) (interrupt : Interrupt)
    (raised : Bool) (call page : Nat) (pages : List Nat) :
    let passage := scanner.list d interrupt raised call (page :: pages)
    let up := interrupt.isUp (raised || interrupt.raises call page) call
    let parts := stretches scanner.query.settings.direction none (d.fragments page)
    ∃ later, passage.visits = ⟨page, ready up parts⟩ :: later ∧
      (later = [] ∨ ready up parts = parts ∧ ∃ next : Scanner, next.query = scanner.query ∧
        let rest := next.list d interrupt (raised || interrupt.raises call page) (call + 1) pages
        later = rest.visits ∧ passage.result =
          pageMatches scanner.query.settings chain d none page ++ rest.result) := by
  rw [list]
  simp only
  generalize interrupt.isUp (raised || interrupt.raises call page) call = up
  have h_ready := @gather_ready scanner.reset chain h up
    (stretches scanner.query.settings.direction none (d.fragments page))
  obtain ⟨h_spans, h_read, h_stopped⟩ := h_ready
  rw [h_read]
  split
  · exact ⟨[], rfl, .inl rfl⟩
  · rename_i h_left
    have h_all := ready_eq_self (h_stopped.symm.trans (Bool.eq_false_iff.2 h_left))
    refine ⟨_, rfl, .inr ⟨h_all, _, gather_query _ scanner.reset _, rfl, ?_⟩⟩
    rw [h_spans, h_all, allOf_reset h, pageMatches, allMatches]

/-- If the stop flag is raised when the `n`-th page is asked for, a list takes the pages before. -/
theorem list_raised_at (h : scanner.query.chain = some chain) {raised : Bool} {call n : Nat}
    {pages : List Nat} {visit : Visit}
    (h_visit : (scanner.list d interrupt raised call pages).visits[n]? = some visit)
    (h_raises : interrupt.raises (call + n) visit.page = true) :
    let passage := scanner.list d interrupt raised call pages
    pages[n]? = some visit.page ∧ (∀ later ∈ passage.visits.drop n, later.read = []) ∧
      passage.result =
        (pages.take n).flatMap (pageMatches scanner.query.settings chain d none) := by
  induction pages generalizing scanner raised call n with
  | nil => exact absurd h_visit (by simp [list])
  | cons page pages ih =>
    obtain ⟨later, h_visits, h_later⟩ := list_cons h d interrupt raised call page pages
    rw [h_visits] at h_visit
    cases n with
    | zero =>
      -- the flag is up before anything is read
      obtain rfl := Option.some.inj h_visit
      have h_up : scanner.list d interrupt raised call (page :: pages) =
          scanner.list d interrupt true call (page :: pages) := by
        have h_raises : interrupt.raises call page = true := h_raises
        rw [list, list, h_raises, Bool.or_true, Bool.or_true]
      rw [h_up]
      exact ⟨rfl, list_raised d interrupt call scanner (page :: pages)⟩
    | succ n =>
      rw [List.getElem?_cons_succ] at h_visit
      rcases h_later with rfl | ⟨-, next, h_query, rfl, h_result⟩
      · exact absurd h_visit (by simp)
      · obtain ⟨h_page, h_read, h_rest⟩ := ih ((congrArg Query.chain h_query).trans h) h_visit
          (by rwa [Nat.add_assoc, Nat.add_comm 1 n])
        rw [h_query] at h_rest
        simp only [h_visits, h_result]
        refine ⟨h_page, h_read, ?_⟩
        rw [h_rest, List.take_succ_cons, List.flatMap_cons]

/-- If the stop flag is raised before a look on the `n`-th page, a list reads at most the stretches
    in front of the look. If there are others, it is over with the page. -/
theorem list_breaks_at (h : scanner.query.chain = some chain) {raised : Bool}
    {call n look : Nat} {pages : List Nat} {visit : Visit}
    (h_visit : (scanner.list d interrupt raised call pages).visits[n]? = some visit)
    (h_breaks : interrupt.breaks (call + n) look = true) :
    let passage := scanner.list d interrupt raised call pages
    visit.read.length ≤ look ∧
      ∀ parts, (route scanner.query.settings.direction d none pages)[n]? = some parts →
        look < parts.length → passage.visits.length = n + 1 := by
  induction pages generalizing scanner raised call n with
  | nil => exact absurd h_visit (by simp [list])
  | cons page pages ih =>
    obtain ⟨later, h_visits, h_later⟩ := list_cons h d interrupt raised call page pages
    rw [h_visits] at h_visit
    cases n with
    | zero =>
      obtain rfl := Option.some.inj h_visit
      rw [Nat.add_zero] at h_breaks
      have h_up := Interrupt.isUp_of_breaks h_breaks (raised || interrupt.raises call page)
      have h_length := ready_length_le h_up
        (stretches scanner.query.settings.direction none (d.fragments page))
      refine ⟨h_length, ?_⟩
      rintro parts h_parts h_look
      obtain rfl := Option.some.inj h_parts
      rcases h_later with rfl | ⟨h_all, -⟩
      · exact congrArg List.length h_visits
      · rw [h_all] at h_length
        exact absurd h_look (Nat.not_lt_of_le h_length)
    | succ n =>
      rw [List.getElem?_cons_succ] at h_visit
      rcases h_later with rfl | ⟨-, next, h_query, rfl, -⟩
      · exact absurd h_visit (by simp)
      · obtain ⟨h_read, h_rest⟩ := ih ((congrArg Query.chain h_query).trans h) h_visit
          (by rwa [Nat.add_assoc, Nat.add_comm 1 n])
        rw [h_query] at h_rest
        simp only [h_visits, route, List.getElem?_cons_succ, List.length_cons,
          Nat.add_right_cancel_iff]
        exact ⟨h_read, h_rest⟩

end Scanner

/-! ## Sessions -/

/-- The matches on the pages before one. -/
theorem filter_flatMap_range {s : Settings} {chain : Chain} {d : Document} {n k : Nat}
    (h : n ≤ k) :
    ((List.range k).flatMap (pageMatches s chain d none)).filter (fun m => decide (m.page < n)) =
      (List.range n).flatMap (pageMatches s chain d none) := by
  obtain ⟨i, rfl⟩ := Nat.exists_eq_add_of_le h
  rw [List.range_add, List.flatMap_append, List.filter_append, List.filter_eq_self.2,
    List.filter_eq_nil_iff.2, List.append_nil]
  · intro m h_m
    obtain ⟨page, h_page, h_m⟩ := List.mem_flatMap.1 h_m
    obtain ⟨j, -, rfl⟩ := List.mem_map.1 h_page
    rw [page_of_mem_pageMatches h_m]
    simp
  · intro m h_m
    obtain ⟨page, h_page, h_m⟩ := List.mem_flatMap.1 h_m
    rw [page_of_mem_pageMatches h_m]
    exact decide_eq_true (List.mem_range.1 h_page)

namespace Reader

variable {r : Reader} {d : Document} {interrupt : Interrupt} {visit : Visit}

/-- A reader that asks for a page walks over the document. -/
theorem tour_eq_search {i : Nat} (h : (r.tour d interrupt).visits[i]? = some visit) :
    r.tour d interrupt = r.scanner.search d interrupt false 1
      (r.session.resumePoint? (r.session.startPage d))
      (itinerary d r.session.query.settings.direction (r.session.startPage d)) := by
  rw [tour] at h ⊢
  split at h
  · exact absurd h (by simp)
  · split at h
    · exact absurd h (by simp)
    · rename_i h_pages
      rw [if_neg h_pages]

theorem tour_raised_at {i : Nat} (h_visit : (r.tour d interrupt).visits[i]? = some visit)
    (h_raises : interrupt.raises (i + 1) visit.page = true) :
    (itinerary d r.session.query.settings.direction (r.session.startPage d))[i]? =
        some visit.page ∧
      (∀ later ∈ (r.tour d interrupt).visits.drop i, later.read = []) ∧
      (r.tour d interrupt).result = .ofUnread ((r.session.route d).drop i).flatten := by
  have h_tour := tour_eq_search h_visit
  rw [h_tour] at h_visit ⊢
  rw [Nat.add_comm] at h_raises
  have h_search := Scanner.search_raised_at h_visit h_raises
  rw [r.query_eq] at h_search
  exact h_search

theorem survey_eq_list {n : Nat} (h : (r.survey d interrupt).visits[n]? = some visit) :
    ∃ chain, (r.turned .forward).scanner.query.chain = some chain ∧
      let passage := (r.turned .forward).scanner.list d interrupt false 1 (List.range d.pageCount)
      (r.survey d interrupt).visits = passage.visits ∧
        (r.survey d interrupt).result = passage.result := by
  rw [survey] at h ⊢
  simp only at h ⊢
  split at h
  · exact absurd h (by simp)
  · rename_i chain h_chain
    exact ⟨chain, (r.turned .forward).scanner_chain h_chain, rfl, rfl⟩

theorem survey_raised_at {n : Nat} (h_visit : (r.survey d interrupt).visits[n]? = some visit)
    (h_raises : interrupt.raises (n + 1) visit.page = true) :
    visit.page = n ∧ (∀ later ∈ (r.survey d interrupt).visits.drop n, later.read = []) ∧
      (r.survey d interrupt).result =
        (r.session.query.listed d).filter fun m => decide (m.page < n) := by
  obtain ⟨chain, h_chain, h_visits, h_result⟩ := survey_eq_list h_visit
  rw [h_visits] at h_visit
  rw [Nat.add_comm] at h_raises
  obtain ⟨h_page, h_read, h_list⟩ := Scanner.list_raised_at h_chain h_visit h_raises
  obtain ⟨h_n, h_page⟩ := List.getElem?_eq_some_iff.1 h_page
  rw [List.length_range] at h_n
  rw [List.getElem_range] at h_page
  rw [(r.turned .forward).query_eq] at h_chain h_list
  refine ⟨h_page.symm, ?_, ?_⟩
  · rw [h_visits]
    exact h_read
  · rw [h_result, h_list, Query.listed_eq h_chain, List.take_range, Nat.min_eq_left h_n.le]
    exact (filter_flatMap_range h_n.le).symm

theorem tour_breaks_at {i look : Nat} (h_visit : (r.tour d interrupt).visits[i]? = some visit)
    (h_breaks : interrupt.breaks (i + 1) look = true) :
    visit.read.length ≤ look ∧
      ∀ parts, (r.session.route d)[i]? = some parts → look < parts.length →
        (r.tour d interrupt).visits.length = i + 1 ∧ (r.tour d interrupt).result ≠ .notFound := by
  have h_tour := tour_eq_search h_visit
  rw [h_tour] at h_visit ⊢
  rw [Nat.add_comm] at h_breaks
  cases h_chain : r.session.query.chain with
  | none =>
    -- without a chain no page is asked for
    rw [← h_tour, tour, h_chain] at h_visit
    exact absurd h_visit (by simp)
  | some chain =>
    have h_search := Scanner.search_breaks_at (r.scanner_chain h_chain) h_visit h_breaks
    rw [r.query_eq] at h_search
    exact h_search

theorem survey_breaks_at {n look : Nat}
    (h_visit : (r.survey d interrupt).visits[n]? = some visit)
    (h_breaks : interrupt.breaks (n + 1) look = true) :
    visit.read.length ≤ look ∧
      ∀ parts, (route .forward d none (List.range d.pageCount))[n]? = some parts →
        look < parts.length → (r.survey d interrupt).visits.length = n + 1 := by
  obtain ⟨chain, h_chain, h_visits, -⟩ := survey_eq_list h_visit
  rw [h_visits] at h_visit ⊢
  rw [Nat.add_comm] at h_breaks
  have h_list := Scanner.list_breaks_at h_chain h_visit h_breaks
  have h_direction : (r.turned .forward).session.query.settings.direction = .forward :=
    Query.turned_direction ..
  rw [(r.turned .forward).query_eq, h_direction] at h_list
  exact h_list

end Reader

/-- Raising the stop flag while the `i`-th page of a walk is asked for. From then on nothing is
    read. A search comes to no match: it is stopped if anything is left to read on its way, and else
    finds nothing. A list holds the matches of the pages before. The query with its settings stays,
    also that of the scanner, which a list turns forward and back, and so do the selection and the
    page to start on. A flag that is raised before changes nothing. -/
theorem stop_ends_reading (r : Reader) (d : Document) (interrupt : Interrupt) :
    (∀ i visit, (r.tour d interrupt).visits[i]? = some visit →
      interrupt.raises (i + 1) visit.page = true →
        let (after, outcome) := r.session.find d interrupt
        (itinerary d r.session.query.settings.direction (r.session.startPage d))[i]? =
          some visit.page ∧
        (∀ later ∈ (r.tour d interrupt).visits.drop i, later.read = []) ∧
        outcome = (if ((r.session.route d).drop i).flatten = [] then .notFound else .stopped) ∧
        (r.find d interrupt).scanner.query = r.scanner.query ∧ after.query = r.session.query ∧
        after.selection = r.session.selection ∧ after.page = r.session.page) ∧
    (∀ i visit, (r.survey d interrupt).visits[i]? = some visit →
      interrupt.raises (i + 1) visit.page = true →
        let after := r.session.findAll d interrupt
        visit.page = i ∧
        (∀ later ∈ (r.survey d interrupt).visits.drop i, later.read = []) ∧
        after.results.listed =
          (r.session.findAll d .never).results.listed.filter (fun m => decide (m.page < i)) ∧
        (r.findAll d interrupt).scanner.query = r.scanner.query ∧ after.query = r.session.query ∧
        after.selection = r.session.selection ∧ after.page = r.session.page) ∧
    r.session.stop.find d interrupt = r.session.find d interrupt ∧
    r.session.stop.findAll d interrupt = r.session.findAll d interrupt := by
  refine ⟨?_, ?_, rfl, rfl⟩
  · intro i visit h_visit h_raises
    obtain ⟨h_page, h_read, h_result⟩ := Reader.tour_raised_at h_visit h_raises
    have h_outcome : (r.session.trip d interrupt).outcome =
        .ofUnread ((r.session.route d).drop i).flatten := by
      rw [r.trip_eq_tour]
      exact h_result
    have h_unmoved := @r.session.concluded_unmoved (r.session.trip d interrupt) fun m h_m =>
      Outcome.ofUnread_ne_found _ m (h_outcome.symm.trans h_m)
    obtain ⟨h_selection, h_start⟩ := h_unmoved
    exact ⟨h_page, h_read, h_outcome, (r.tour_query d interrupt).trans r.query_eq.symm,
      Session.find_query .., h_selection, h_start⟩
  · intro i visit h_visit h_raises
    obtain ⟨h_page, h_read, h_result⟩ := Reader.survey_raised_at h_visit h_raises
    refine ⟨h_page, h_read, ?_, (r.survey_query d interrupt).trans r.query_eq.symm, rfl, rfl, rfl⟩
    rw [r.session_findAll, Session.findAll_listed]
    show (r.survey d interrupt).result.mergeSort Match.le = _
    rw [h_result]
    exact List.mergeSort_of_pairwise
      (((r.session.query.listed_pairwise d).imp And.left).filter _)

/-- Stopped on a page with nothing to read: a search goes on to the next page and reads nothing of
    it, though there is a match, and a list keeps the match of the page before. -/
theorem stop_ends_reading_emptyPage :
    let d : Document := .ofFragments [["ab a".toList], [], ["b c".toList, "ab".toList]]
    let s := ((Session.new {}).withQuery "ab".toList).withPage 1
    (s.find d (.onPage 1)).2 = .stopped ∧ (s.find d (.onPage 1)).1.page = 1 ∧
      (s.findAll d (.onPage 1)).results.listed = [⟨0, ⟨0, 0⟩, ⟨0, 1⟩⟩] ∧
      (s.findAll d .never).results.listed =
        [⟨0, ⟨0, 0⟩, ⟨0, 1⟩⟩, ⟨2, ⟨1, 0⟩, ⟨1, 1⟩⟩] := by
  have h_tour : ((((Reader.new {}).perform (.setQuery "ab".toList)).perform (.setPage 1)).tour
      (.ofFragments [["ab a".toList], [], ["b c".toList, "ab".toList]]) (.onPage 1)).visits =
        [⟨1, []⟩, ⟨2, []⟩] := by cbv
  have h_survey : ((((Reader.new {}).perform (.setQuery "ab".toList)).perform (.setPage 1)).survey
      (.ofFragments [["ab a".toList], [], ["b c".toList, "ab".toList]]) (.onPage 1)).visits =
        [⟨0, [⟨0, 0, "ab a".toList⟩]⟩, ⟨1, []⟩, ⟨2, []⟩] := by cbv
  have h_unread : ((((Session.new {}).withQuery "ab".toList).withPage 1).route
      (.ofFragments [["ab a".toList], [], ["b c".toList, "ab".toList]])).flatten =
        [⟨0, 0, "b c".toList⟩, ⟨1, 0, "ab".toList⟩, ⟨0, 0, "ab a".toList⟩] := by cbv
  have h_listed : ((((Session.new {}).withQuery "ab".toList).withPage 1).findAll
      (.ofFragments [["ab a".toList], [], ["b c".toList, "ab".toList]]) .never).results.listed =
        [⟨0, ⟨0, 0⟩, ⟨0, 1⟩⟩, ⟨2, ⟨1, 0⟩, ⟨1, 1⟩⟩] := by cbv
  obtain ⟨h_find, h_findAll, -⟩ := stop_ends_reading
    (((Reader.new {}).perform (.setQuery "ab".toList)).perform (.setPage 1))
    (.ofFragments [["ab a".toList], [], ["b c".toList, "ab".toList]]) (.onPage 1)
  obtain ⟨-, -, h_outcome, -, -, -, h_page⟩ := h_find 0 _ (by rw [h_tour]; rfl) (by decide)
  obtain ⟨-, -, h_results, -⟩ := h_findAll 1 _ (by rw [h_survey]; rfl) (by decide)
  refine ⟨h_outcome.trans (if_neg ?_), h_page, ?_, h_listed⟩
  · exact fun h_nil => List.cons_ne_nil _ _ (h_unread.symm.trans h_nil)
  · exact h_results.trans (congrArg (List.filter fun m => decide (m.page < 1)) h_listed)

/-- Raising the stop flag before a look on the `i`-th page of a walk. At most the stretches in front
    of the look are read of this page. If there are others, it is the last page that is asked for,
    and a search has found a match in front of the look or is stopped. What a list holds is the
    beginning of the whole list. -/
theorem stop_ends_page (r : Reader) (d : Document) (interrupt : Interrupt) :
    (∀ i look visit, (r.tour d interrupt).visits[i]? = some visit →
      interrupt.breaks (i + 1) look = true →
        visit.read.length ≤ look ∧
        ∀ parts, (r.session.route d)[i]? = some parts → look < parts.length →
          (r.tour d interrupt).visits.length = i + 1 ∧
          (r.session.find d interrupt).2 ≠ .notFound) ∧
    (∀ i look visit, (r.survey d interrupt).visits[i]? = some visit →
      interrupt.breaks (i + 1) look = true →
        visit.read.length ≤ look ∧
        ∀ parts, (route .forward d none (List.range d.pageCount))[i]? = some parts →
          look < parts.length → (r.survey d interrupt).visits.length = i + 1) ∧
    (Session.matchesIn r.session.query d interrupt).1 <+: r.session.query.listed d := by
  refine ⟨?_, ?_, Session.matchesIn_prefix ..⟩
  · intro i look visit h_visit h_breaks
    rw [r.session_find]
    exact Reader.tour_breaks_at h_visit h_breaks
  · intro i look visit h_visit h_breaks
    exact Reader.survey_breaks_at h_visit h_breaks

/-- Stopped between two stretches of a page, a search does not come to the match in the second one,
    and a list keeps the match in the first one. -/
example :
    let d : Document := .ofFragments [["ab a".toList, "b ab".toList]]
    let s := ((Session.new {}).withQuery "ab".toList)
    (s.findAll d (.onLook 1 1)).results.listed = [⟨0, ⟨0, 0⟩, ⟨0, 1⟩⟩] ∧
      ((s.find d .never).1.find d (.onLook 1 1)).2 = .stopped := by
  constructor
  · cbv
  · cbv

end PagedSearch
