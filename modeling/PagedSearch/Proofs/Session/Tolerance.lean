/-
  PagedSearch.Proofs.Session.Tolerance

  What tolerant settings do to a literal search. A page holds an occurrence
  exactly if the significant characters of the pattern stand one after the
  other among those of the page (`exists_occurs_iff`), and then a listing has
  a match there (`listsOn_iff`). Where letter case does not count, both texts
  are folded (`significantOf_ignoringCase`); where hyphens are tolerated, both
  lose them (`significantOf_toleratingHyphens`). Neither parts characters that
  stand side by side, so a page that is listed under strict settings is listed
  under tolerant ones (`listsOn_tolerant`).
-/
import PagedSearch.Proofs.Document.Characters
import PagedSearch.Proofs.Session.Find
import PagedSearch.Proofs.Session.Listing
import PagedSearch.Proofs.Text.Lowercase

namespace PagedSearch

/-! ## Significant characters -/

namespace Settings

/-- The same settings, but hyphens are tolerated. -/
def toleratingHyphens (s : Settings) : Settings := { s with hyphenTolerant := true }

theorem significantOf_eq_filterMap (s : Settings) (t : Text) :
    s.significantOf t =
      t.filterMap fun c => if s.skips (s.foldChar c) then none else some (s.foldChar c) := by
  rw [significantOf, fold_eq_map, ← List.filterMap_eq_filter, List.filterMap_map]
  apply List.filterMap_congr
  intro c _
  by_cases h_skip : s.skips (s.foldChar c) = true
  · simp [h_skip, Option.guard]
  · simp [h_skip, Option.guard]

theorem significantOf_ne_nil_iff {s : Settings} {t : Text} :
    s.significantOf t ≠ [] ↔ ∃ c ∈ t, s.skips c = false := by
  rw [significantOf, fold_eq_map, List.filter_map, ne_eq, List.map_eq_nil_iff,
    List.filter_eq_nil_iff]
  simp [skips_foldChar]

/-- The cuts of a page do not matter to what is significant on it. -/
theorem significantOn_map_fst (s : Settings) (fragments : List Text) :
    (s.significantOn fragments).map Prod.fst = s.significantOf fragments.flatten := by
  rw [significantOn_eq, significantOf_eq_filterMap, ← charactersFrom_map_fst 0, ← charactersOn,
    List.map_filterMap, List.filterMap_map]
  apply List.filterMap_congr
  intro x _
  by_cases h_skip : s.skips (s.foldChar x.1) = true
  · simp [h_skip]
  · simp [h_skip]

/-- Where letter case does not count, the significant characters are folded. -/
theorem significantOf_ignoringCase {s : Settings} (h_case : s.caseSensitive = true) (t : Text) :
    s.ignoringCase.significantOf t = PagedSearch.fold (s.significantOf t) := by
  have h_strict : s.fold t = t := if_pos h_case
  have h_folded : s.ignoringCase.fold t = PagedSearch.fold t := if_neg Bool.false_ne_true
  rw [significantOf, significantOf, h_strict, h_folded, PagedSearch.fold, PagedSearch.fold,
    List.filter_map]
  congr 1
  apply List.filter_congr
  intro c _
  exact congrArg not (isInsignificant_foldChar s.hyphenTolerant c)

/-- Where hyphens are tolerated, the significant characters lose them. -/
theorem significantOf_toleratingHyphens (s : Settings) (t : Text) :
    s.toleratingHyphens.significantOf t =
      (s.significantOf t).filter fun c => !isInsignificant true c := by
  have h_fold : s.toleratingHyphens.fold t = s.fold t := rfl
  rw [significantOf, significantOf, h_fold, List.filter_filter]
  apply List.filter_congr
  intro c _
  -- what is skipped without tolerance is skipped with it
  have h_more : s.skips c = true → isInsignificant true c = true := by
    intro h_skip
    rw [skips, isInsignificant, Bool.or_eq_true, Bool.and_eq_true] at h_skip
    rw [isInsignificant, Bool.true_and, Bool.or_eq_true]
    exact h_skip.imp_right And.right
  have h_skips : s.toleratingHyphens.skips c = isInsignificant true c := rfl
  rw [h_skips]
  cases h_skip : s.skips c with
  | false => simp
  | true => simp [h_more h_skip]

end Settings

/-! ## Pages -/

section

variable {s : Settings} {pattern : Text} {d : Document} {page : Nat}

/-- Two ends can be told of every part that is not empty. -/
theorem exists_delimits {α : Type} {part : List (Char × α)} (h : part ≠ []) :
    ∃ span : Span α, span.Delimits part := by
  refine ⟨⟨(part.head h).2, (part.getLast h).2⟩, ?_, ?_⟩
  · rw [List.head?_eq_some_head h]
    rfl
  · rw [List.getLast?_eq_some_getLast h]
    rfl

/-- A pattern occurs on a page exactly if its significant characters, of which there are some,
    stand one after the other among those of the page. -/
theorem exists_occurs_iff :
    (∃ m, s.Occurs pattern d m ∧ m.page = page) ↔ s.significantOf pattern ≠ [] ∧
      s.significantOf pattern <:+: s.significantOf (d.fragments page).flatten := by
  rw [← s.significantOn_map_fst, ← exists_occurrence_iff]
  constructor
  · rintro ⟨m, h_m, rfl⟩
    obtain ⟨before, part, behind, h_occ, -⟩ := id h_m
    exact ⟨significantOf_ne_nil_of_occurs h_m, before, part, behind, h_occ⟩
  · rintro ⟨h_some, before, part, behind, h_occ⟩
    have h_part : part ≠ [] := by
      rintro rfl
      exact h_some h_occ.spelled.symm
    obtain ⟨span, h_span⟩ := exists_delimits h_part
    exact ⟨⟨page, span.first, span.last⟩, ⟨before, part, behind, h_occ, h_span⟩, rfl⟩

end

/-! ## Listings -/

namespace Session

/-- Listing all matches lists one on the page. -/
def ListsOn (s : Session) (d : Document) (page : Nat) : Prop :=
  ∃ m ∈ (s.findAll d .never).results.listed, m.page = page

/-- A page on which a search meets something is listed, and no other one. -/
theorem listsOn_iff_pageMatches {s : Session} {chain : Chain} {d : Document} {page : Nat}
    (h_chain : (s.query.turned .forward).chain = some chain) :
    s.ListsOn d page ↔ pageMatches (s.query.turned .forward).settings chain d none page ≠ [] := by
  rw [ListsOn, findAll_listed, Query.listed_eq h_chain]
  constructor
  · rintro ⟨m, h_m, rfl⟩
    obtain ⟨page, -, h_page⟩ := List.mem_flatMap.1 h_m
    rw [page_of_mem_pageMatches h_page]
    exact List.ne_nil_of_mem h_page
  · intro h_some
    obtain ⟨m, h_m⟩ := List.exists_mem_of_ne_nil _ h_some
    have h_lt : page < d.pageCount := by
      by_contra h_ge
      exact h_some (pageMatches_eq_nil (Nat.not_lt.1 h_ge))
    exact ⟨m, List.mem_flatMap.2 ⟨page, List.mem_range.2 h_lt, h_m⟩, page_of_mem_pageMatches h_m⟩

/-- A literal pattern is listed on a page exactly if it has significant characters and these stand
    one after the other among those of the page. -/
theorem listsOn_iff {s : Session} {d : Document} {page : Nat} (h_compiled : s.query.Compiled)
    (h_mode : s.query.settings.mode = .literal) :
    s.ListsOn d page ↔ s.query.settings.significantOf s.query.pattern ≠ [] ∧
      s.query.settings.significantOf s.query.pattern <:+:
        s.query.settings.significantOf (d.fragments page).flatten := by
  -- a listing goes forward, which changes nothing about what is significant
  have h_forward := h_compiled.turned .forward
  have h_settings := s.query.turned_settings .forward
  have h_mode' : (s.query.turned .forward).settings.mode = .literal := by
    rw [h_settings]
    exact h_mode
  have h_significant : (s.query.turned .forward).settings.significantOf =
      s.query.settings.significantOf := by
    rw [h_settings]
    rfl
  cases h_chain : (s.query.turned .forward).chain with
  | none =>
    have h_nil : s.query.settings.significantOf s.query.pattern = [] := by
      obtain ⟨e, h_error⟩ := h_forward.chain_eq_none_iff.1 h_chain
      rw [Query.turned_pattern] at h_error
      rw [← h_significant]
      by_contra h_some
      obtain ⟨chain, h_ok⟩ := (Chain.exists_compile_literal_iff h_mode').2 h_some
      rw [h_error] at h_ok
      exact absurd h_ok (by simp)
    rw [ListsOn, findAll_listed, Query.listed_eq_nil h_chain]
    exact iff_of_false (by simp) fun h => h.1 h_nil
  | some chain =>
    have h_compile := h_forward.chain_eq_some_iff.1 h_chain
    have h_spells := Chain.spells_of_compile h_mode' h_compile
    rw [Query.turned_pattern] at h_spells
    rw [listsOn_iff_pageMatches h_chain, ← h_significant, ← exists_occurs_iff, ne_eq,
      pageMatches_eq_nil_iff h_spells]
    constructor
    · intro h_not
      by_contra h_none
      exact h_not fun m h_m h_page => absurd ⟨m, h_m, h_page⟩ h_none
    · rintro ⟨m, h_m, h_page⟩ h_none
      exact h_none m h_m h_page trivial

end Session

/-- A page that a literal query is listed on is listed as well if letter case stops to count, and
    if hyphens come to be tolerated, as long as the query has a character that is neither blank nor
    a hyphen. -/
theorem listsOn_tolerant (s t : Session) (d : Document) (page : Nat) (h_s : s.Reachable)
    (h_t : t.Reachable) (h_pattern : t.query.pattern = s.query.pattern)
    (h_mode : s.query.settings.mode = .literal) (h_lists : s.ListsOn d page) :
    (t.query.settings = s.query.settings.ignoringCase → t.ListsOn d page) ∧
    (t.query.settings = s.query.settings.toleratingHyphens →
      (∃ c ∈ s.query.pattern, isInsignificant true c = false) → t.ListsOn d page) := by
  obtain ⟨h_some, h_infix⟩ := (Session.listsOn_iff h_s.compiled h_mode).1 h_lists
  constructor
  · intro h_settings
    rw [Session.listsOn_iff h_t.compiled (h_settings ▸ h_mode), h_settings, h_pattern]
    by_cases h_case : s.query.settings.caseSensitive = true
    · rw [Settings.significantOf_ignoringCase h_case, Settings.significantOf_ignoringCase h_case]
      exact ⟨mt List.map_eq_nil_iff.1 h_some, h_infix.map _⟩
    · -- letter case did not count before
      have h_same : s.query.settings.ignoringCase = s.query.settings := by
        rw [Bool.not_eq_true] at h_case
        rw [Settings.ignoringCase, ← h_case]
      rw [h_same]
      exact ⟨h_some, h_infix⟩
  · intro h_settings h_significant
    rw [Session.listsOn_iff h_t.compiled (h_settings ▸ h_mode), h_settings, h_pattern]
    refine ⟨Settings.significantOf_ne_nil_iff.2 h_significant, ?_⟩
    rw [Settings.significantOf_toleratingHyphens, Settings.significantOf_toleratingHyphens]
    exact h_infix.filter _

/-- A word over a cut, with a hyphen that a tolerant search drops on either side. -/
theorem listsOn_tolerant_coop :
    ((Session.new { direction := .backward }).perform (.setQuery "Co-op".toList)).ListsOn
      (.ofFragments [["none".toList], ["a Co".toList, "- op".toList]]) 1 ∧
    ((Session.new { caseSensitive := true, hyphenTolerant := true, direction := .backward }).perform
      (.setQuery "Co-op".toList)).ListsOn
      (.ofFragments [["none".toList], ["a Co".toList, "- op".toList]]) 1 := by
  have h_lists : ((Session.new { caseSensitive := true, direction := .backward }).perform
      (.setQuery "Co-op".toList)).ListsOn
      (.ofFragments [["none".toList], ["a Co".toList, "- op".toList]]) 1 :=
    ⟨⟨1, ⟨0, 2⟩, ⟨1, 3⟩⟩, by cbv; exact .head _, rfl⟩
  constructor
  · exact (listsOn_tolerant _ _ _ _ (.step _ (.new _)) (.step _ (.new _)) (by cbv) (by cbv)
      h_lists).1 (by cbv)
  · exact (listsOn_tolerant _ _ _ _ (.step _ (.new _)) (.step _ (.new _)) (by cbv) (by cbv)
      h_lists).2 (by cbv) ⟨'C', by cbv; exact .head _, by decide⟩

end PagedSearch
