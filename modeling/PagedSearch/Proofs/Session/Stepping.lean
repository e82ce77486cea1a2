/-
  PagedSearch.Proofs.Session.Stepping

  Stepping from match to match. Behind the match that is selected a search
  meets the matches that the list has behind it, and then the list from its
  start (`upcoming_selected`). So one search leads from each match of the
  list to the next and from the last to the first (`findNext_next`), and
  searching again and again goes around the list (`findNext_cycles`).
-/
import Mathlib
import PagedSearch.CommandLine.Search
import PagedSearch.Proofs.Session.Listing

namespace PagedSearch

namespace Session

/-! ## What lies ahead -/

section

variable {s : Session} {chain : Chain} {d : Document}

theorem resumePoint?_selected {m : Match} (h : s.selection = some m) :
    s.resumePoint? m.page = some (m.resumption s.query.settings.direction) := by
  rw [resumePoint?, h]
  exact if_pos rfl

/-- From the start of the document a search meets the whole list first. -/
theorem upcoming_start (h_dir : s.query.settings.direction = .forward) (h_page : s.page = 0)
    (h_selection : s.selection = none) :
    (s.upcoming chain d).head? =
      ((List.range d.pageCount).flatMap (pageMatches s.query.settings chain d none)).head? := by
  have h_start : s.startPage d = 0 := by
    rw [startPage, h_page]
    split <;> rfl
  have h_resume : s.resumePoint? 0 = none := by rw [resumePoint?, h_selection]
  rw [upcoming, h_start, h_resume, h_dir]
  rcases Nat.eq_zero_or_pos d.pageCount with h_none | h_pos
  · rw [pageMatches_eq_nil (by omega), itinerary, h_none]
    rfl
  · -- the first page comes once more at the end, and is empty if it comes to that
    have h_range : List.range d.pageCount = 0 :: List.range' 1 (d.pageCount - 1) := by
      rw [List.range_eq_range', List.range'_eq_cons_iff]
      exact ⟨rfl, h_pos, rfl⟩
    rw [itinerary_forward h_pos, h_range, List.tail_cons, List.flatMap_append, List.flatMap_cons,
      ← List.append_assoc, List.head?_append, List.range_one, List.flatMap_singleton]
    cases h_first : pageMatches s.query.settings chain d none 0 with
    | nil => rw [List.head?_nil, Option.or_none]
    | cons m found => rfl

/-- Behind the match that is selected a search meets what the list has behind it, and then the
    list from its start. -/
theorem upcoming_selected {m : Match} {front back : List Match}
    (h_dir : s.query.settings.direction = .forward) (h_selection : s.selection = some m)
    (h_page : s.page = m.page)
    (h : (List.range d.pageCount).flatMap (pageMatches s.query.settings chain d none) =
      front ++ m :: back) :
    ∃ more, s.upcoming chain d = back ++ (front ++ m :: more) := by
  -- the match stands on a page, between the matches of that page and those of the others
  obtain ⟨before, page, behind, pre, post, h_range, h_found, rfl, rfl⟩ := exists_of_flatMap_eq h
  have h_m : m.page = page :=
    page_of_mem_pageMatches (h_found ▸ List.mem_append_right pre List.mem_cons_self)
  obtain ⟨h_lt, rfl, rfl⟩ := range_eq_append_cons h_range
  have h_start : s.startPage d = page := by
    rw [startPage, h_page, h_m, if_pos h_lt]
  have h_resume : s.resumePoint? page = some (m.resumption .forward) := by
    rw [← h_m, resumePoint?_selected h_selection, h_dir]
  have h_ahead : pageMatches s.query.settings chain d (some (m.resumption .forward)) page =
      post := by
    rw [← h_dir]
    exact pageMatches_resumed h_found
  refine ⟨post, ?_⟩
  rw [upcoming, h_start, h_resume, h_ahead, h_dir, itinerary_forward h_lt, List.tail_cons,
    List.range_succ, List.flatMap_append, List.flatMap_append, List.flatMap_singleton, h_found,
    List.append_assoc, List.append_assoc]

end

/-! ## One search forward -/

section

variable {s : Session} {d : Document}

theorem findNext_outcome {chain : Chain} (h : (s.query.turned .forward).chain = some chain) :
    (s.findNext d .never).2 = .ofOption ((s.turned .forward).upcoming chain d).head? :=
  find_outcome h d

@[simp] theorem findNext_query (s : Session) (d : Document) (interrupt : Interrupt) :
    (s.findNext d interrupt).1.query = s.query.turned .forward :=
  find_query _ d interrupt

/-- From the start of the document a search leads to the first match of the list. -/
theorem findNext_start (h_page : s.page = 0) (h_selection : s.selection = none) :
    (s.findNext d .never).2 = .ofOption (s.query.listed d).head? := by
  cases h_chain : (s.query.turned .forward).chain with
  | none =>
    rw [Query.listed_eq_nil h_chain]
    exact find_outcome_none h_chain d .never
  | some chain =>
    have h_dir : (s.turned .forward).query.settings.direction = .forward :=
      Query.turned_direction s.query .forward
    rw [findNext_outcome h_chain, upcoming_start h_dir h_page h_selection,
      Query.listed_eq h_chain]
    rfl

/-- From a match of the list a search leads to the next one, from the last one to the first. -/
theorem findNext_next {m : Match} {i : Nat} (h_m : (s.query.listed d)[i]? = some m)
    (h_selection : s.selection = some m) (h_page : s.page = m.page) :
    (s.findNext d .never).2 =
      .ofOption (s.query.listed d)[(i + 1) % (s.query.listed d).length]? := by
  cases h_chain : (s.query.turned .forward).chain with
  | none =>
    rw [Query.listed_eq_nil h_chain] at h_m
    exact absurd h_m (by simp)
  | some chain =>
    have h_dir : (s.turned .forward).query.settings.direction = .forward :=
      Query.turned_direction s.query .forward
    obtain ⟨h_lt, h_get⟩ := List.getElem?_eq_some_iff.1 h_m
    -- the list is what it has in front of the match, the match, and what it has behind
    have h_split : s.query.listed d =
        (s.query.listed d).take i ++ m :: (s.query.listed d).drop (i + 1) := by
      rw [← h_get, ← List.drop_eq_getElem_cons h_lt, List.take_append_drop]
    obtain ⟨more, h_more⟩ := upcoming_selected h_dir h_selection h_page
      ((Query.listed_eq h_chain d).symm.trans h_split)
    rw [findNext_outcome h_chain, h_more, List.head?_append, List.head?_drop]
    rcases Nat.lt_or_ge (i + 1) (s.query.listed d).length with h_next | h_last
    · rw [Nat.mod_eq_of_lt h_next, List.getElem?_eq_getElem h_next]
      rfl
    · -- behind the last match nothing is left, so the list begins again
      have h_length : i + 1 = (s.query.listed d).length := by omega
      rw [List.getElem?_eq_none h_last, Option.none_or, h_length, Nat.mod_self,
        ← List.head?_eq_getElem?]
      congr 1
      conv_rhs => rw [h_split, List.head?_append]
      rw [List.head?_append]
      rfl

end

/-! ## Searching again and again -/

/-- A session after `j` searches forward. -/
def afterNext (s : Session) (d : Document) : Nat → Session
  | 0 => s
  | j + 1 => ((s.afterNext d j).findNext d .never).1

section

variable {s : Session} {d : Document}

theorem afterNext_listed (s : Session) (d : Document) (j : Nat) :
    (s.afterNext d j).query.listed d = s.query.listed d := by
  induction j with
  | zero => rfl
  | succ j ih => rw [afterNext, findNext_query, Query.listed_turned, ih]

/-- Where nothing is listed, nothing is found and the session stays where it is. -/
theorem afterNext_of_nil (h_page : s.page = 0) (h_selection : s.selection = none)
    (h_nil : s.query.listed d = []) (j : Nat) :
    (s.afterNext d j).page = 0 ∧ (s.afterNext d j).selection = none ∧
      ((s.afterNext d j).findNext d .never).2 = .notFound := by
  have h_next : ∀ u : Session, u.page = 0 → u.selection = none → u.query.listed d = [] →
      (u.findNext d .never).2 = .notFound := by
    intro u h_u_page h_u_selection h_u_nil
    rw [findNext_start h_u_page h_u_selection, h_u_nil]
    rfl
  induction j with
  | zero => exact ⟨h_page, h_selection, h_next s h_page h_selection h_nil⟩
  | succ j ih =>
    obtain ⟨ih_page, ih_selection, ih_outcome⟩ := ih
    obtain ⟨h_selection', h_page'⟩ := find_notFound ih_outcome
    have h_listed := (afterNext_listed s d (j + 1)).trans h_nil
    exact ⟨h_page'.trans ih_page, h_selection'.trans ih_selection,
      h_next _ (h_page'.trans ih_page) (h_selection'.trans ih_selection) h_listed⟩

/-- Where something is listed, the searches go around the list. -/
theorem afterNext_of_ne_nil (h_page : s.page = 0) (h_selection : s.selection = none)
    (h_ne : s.query.listed d ≠ []) (j : Nat) :
    ((s.afterNext d j).findNext d .never).2 =
      .ofOption (s.query.listed d)[j % (s.query.listed d).length]? := by
  have h_pos := List.length_pos_iff.2 h_ne
  induction j with
  | zero =>
    rw [afterNext, findNext_start h_page h_selection, Nat.zero_mod, List.head?_eq_getElem?]
  | succ j ih =>
    -- the search before has selected the match that it found
    obtain ⟨m, h_m⟩ : ∃ m, (s.query.listed d)[j % (s.query.listed d).length]? = some m :=
      ⟨_, List.getElem?_eq_getElem (Nat.mod_lt j h_pos)⟩
    rw [h_m] at ih
    obtain ⟨h_selected, h_on_page⟩ := find_found ih
    have h_listed := afterNext_listed s d (j + 1)
    rw [← h_listed] at h_m
    have h_next := findNext_next h_m h_selected h_on_page
    rw [h_listed, Nat.mod_add_mod] at h_next
    exact h_next

end

end Session

/-! ## The command line -/

theorem Session.settings_of_ofPattern? {settings : Settings} {pattern : Text} {s : Session}
    (h : Session.ofPattern? settings pattern = .ok s) : s.query.settings = settings := by
  rw [Session.ofPattern?, Session.withQuery, Session.new, Query.compile] at h
  cases h_chain : Chain.compile settings pattern with
  | error e => simp [h_chain] at h
  | ok chain =>
    rw [h_chain] at h
    rw [← Except.ok.inj h]

/-- A search for the first match gives the head of the list. -/
theorem searchDocument_first (d : Document) (pattern : Text) (settings : Settings)
    (h_dir : settings.direction = .forward) :
    searchDocument d pattern settings false =
      (searchDocument d pattern settings true).map (·.take 1) := by
  rw [searchDocument, searchDocument]
  cases h : Session.ofPattern? settings pattern with
  | error e => rfl
  | ok s =>
    -- a forward search starts where stepping starts
    rw [← Session.settings_of_ofPattern? h] at h_dir
    have h_rewound : s.rewound d = (s.withPage 0).turned .forward := by
      have h_turned : (s.withPage 0).query.turned .forward = s.query :=
        Query.turned_of_direction h_dir
      rw [Session.rewound, h_dir, Session.turned, h_turned]
      rfl
    have h_found : ((s.rewound d).find d .never).2 = .ofOption (s.query.listed d).head? := by
      rw [h_rewound]
      exact @Session.findNext_start (s.withPage 0) d rfl rfl
    show Except.ok (s.lookUp d false) = Except.ok ((s.lookUp d true).take 1)
    rw [Session.lookUp, Session.lookUp, if_pos rfl, if_neg Bool.false_ne_true, h_found,
      Session.findAll_listed]
    cases s.query.listed d with
    | nil => rfl
    | cons m found => rfl

/-- Searching forward again and again from the start of a document goes around the list of all
    matches, and finds nothing if the list is empty. In particular a forward search of the
    command line for one match gives the first one of its list. -/
theorem findNext_cycles (d : Document) :
    (∀ s t : Session, t.query = s.query → t.page = 0 → t.selection = none →
      ((s.findAll d .never).results.listed = [] →
        ∀ j, ((t.afterNext d j).findNext d .never).2 = .notFound) ∧
      ((s.findAll d .never).results.listed ≠ [] → ∀ j, ∃ m,
        (s.findAll d .never).results.listed[j % (s.findAll d .never).results.listed.length]? =
          some m ∧
        ((t.afterNext d j).findNext d .never).2 = .found m)) ∧
    (∀ pattern settings, settings.direction = .forward →
      searchDocument d pattern settings false =
        (searchDocument d pattern settings true).map (·.take 1)) := by
  refine ⟨?_, searchDocument_first d⟩
  intro s t h_query h_page h_selection
  rw [Session.findAll_listed, ← h_query]
  constructor
  · intro h_nil j
    exact (Session.afterNext_of_nil h_page h_selection h_nil j).2.2
  · intro h_ne j
    have h_lt := Nat.mod_lt j (List.length_pos_iff.2 h_ne)
    have h_get := List.getElem?_eq_getElem h_lt
    refine ⟨_, h_get, ?_⟩
    rw [Session.afterNext_of_ne_nil h_page h_selection h_ne, h_get]
    rfl

/-- The eighth search leads to the second of three matches. -/
theorem findNext_cycles_eighth :
    ((((Session.new { mode := .wildcard }).withQuery "ab*c".toList).afterNext
        (.ofFragments [["ab".toList, "bc ac".toList], [], ["abc".toList]]) 7).findNext
      (.ofFragments [["ab".toList, "bc ac".toList], [], ["abc".toList]]) .never).2 =
    .found ⟨0, ⟨1, 3⟩, ⟨1, 4⟩⟩ := by
  have h := ((findNext_cycles
    (.ofFragments [["ab".toList, "bc ac".toList], [], ["abc".toList]])).1
    ((Session.new { mode := .wildcard }).withQuery "ab*c".toList) _ rfl rfl rfl).2
  have h_listed : (((Session.new { mode := .wildcard }).withQuery "ab*c".toList).findAll
      (.ofFragments [["ab".toList, "bc ac".toList], [], ["abc".toList]]) .never).results.listed =
      [⟨0, ⟨0, 0⟩, ⟨1, 1⟩⟩, ⟨0, ⟨1, 3⟩, ⟨1, 4⟩⟩, ⟨2, ⟨0, 0⟩, ⟨0, 2⟩⟩] := by cbv
  rw [h_listed] at h
  obtain ⟨m, h_m, h_found⟩ := h (List.cons_ne_nil _ _) 7
  rw [h_found, ← Option.some.inj h_m]

end PagedSearch
