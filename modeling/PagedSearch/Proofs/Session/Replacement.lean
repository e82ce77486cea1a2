/-
  PagedSearch.Proofs.Session.Replacement

  Replacing all matches. The matches that a session lists stand within the
  document (`Query.within_of_mem_listed`) and apart from each other, so all of
  them are replaced at once and nothing else changes
  (`replaceAll_substituted`).
-/
import Mathlib
import PagedSearch.Proofs.Document.Substitution
import PagedSearch.Proofs.Session.Listing

namespace PagedSearch

/-- A match of a page stands within the document. -/
theorem within_of_mem_pageMatches {s : Settings} {chain : Chain} {d : Document}
    {resume : Option Point} {page : Nat} {m : Match}
    (h : m ∈ pageMatches s chain d resume page) : m.Within d := by
  have h_eq := page_of_mem_pageMatches h
  subst h_eq
  constructor
  · -- a page that does not exist has no matches
    by_contra h_page
    rw [pageMatches_eq_nil (Nat.le_of_not_lt h_page)] at h
    exact absurd h List.not_mem_nil
  · -- the significant characters where the match begins and ends are characters of the page
    obtain ⟨x, h_x, y, h_y, h_first, h_last, h_le⟩ := exists_points_of_mem_pageMatches h
    obtain ⟨x', h_x', h_x_eq⟩ := exists_of_mem_significantOn h_x
    obtain ⟨y', h_y', h_y_eq⟩ := exists_of_mem_significantOn h_y
    rw [← h_first, ← h_last, ← h_x_eq, ← h_y_eq] at h_le ⊢
    exact exists_delimited (charactersOn_pairwise _) h_x' h_y' h_le

/-- A listed match stands within the document. -/
theorem Query.within_of_mem_listed {q : Query} {d : Document} {m : Match} (h : m ∈ q.listed d) :
    m.Within d := by
  cases h_chain : (q.turned .forward).chain with
  | none =>
    rw [listed_eq_nil h_chain] at h
    exact absurd h List.not_mem_nil
  | some chain =>
    rw [listed_eq h_chain, List.mem_flatMap] at h
    obtain ⟨page, -, h_m⟩ := h
    exact within_of_mem_pageMatches h_m

namespace Session

/-- Replacing all matches replaces exactly the listed ones, all at once. Fragments keep their
    number, those that no match touches keep their text, and the session forgets the matches. -/
theorem replaceAll_substituted (s : Session) (d : Document) (replacement : Text) :
    ∃ after d' listed,
      (s.findAll d .never).results.listed = listed ∧
      s.replaceAll d replacement = (after, d', listed.length) ∧
      d'.pageCount = d.pageCount ∧
      (∀ page, (d'.fragments page).length = (d.fragments page).length ∧
        (∀ text, Substituted replacement (listed.filter fun m => m.page = page)
          (charactersOn (d.fragments page)) text ↔ text = (d'.fragments page).flatten) ∧
        ∀ i t, (d.fragments page)[i]? = some t →
          (∀ m ∈ listed, ∀ offset < t.length, m.contains page ⟨i, offset⟩ = false) →
          (d'.fragments page)[i]? = some t) ∧
      after.results = .empty ∧ after.selection = none := by
  have h_listed := s.findAll_listed d
  have h_within : ∀ m ∈ s.query.listed d, m.Within d := fun m h_m => Query.within_of_mem_listed h_m
  have h_apart := (s.query.listed_pairwise d).imp And.right
  obtain ⟨d', h_run, h_replaced⟩ := replaceMatches_replaced replacement h_within h_apart
  refine ⟨{ s.findAll d .never with results := .empty, selection := none }, d', _, h_listed, ?_,
    h_replaced.pageCount_eq, ?_, rfl, rfl⟩
  · rw [replaceAll, h_listed, h_run]
  · intro page
    refine ⟨h_replaced.length_eq page, ?_, h_replaced.untouched page⟩
    -- the whole page stands behind its start
    obtain ⟨tail, h_tail, h_substituted⟩ :=
      h_replaced.substituted page [] (charactersOn (d.fragments page)) rfl fun m h_m h_page =>
        h_page ▸ (h_within m h_m).first_mem
    have h_text : tail.map Prod.fst = (d'.fragments page).flatten := by
      rw [← charactersFrom_map_fst 0 (d'.fragments page)]
      exact congrArg _ h_tail.symm
    rw [h_text] at h_substituted
    intro text
    constructor
    · intro h_other
      exact h_other.unique (charactersOn_pairwise _) h_substituted
    · rintro rfl
      exact h_substituted

/-- A match over a cut and one in a single fragment, which leave the last fragment as it is. -/
theorem replaceAll_substituted_overCut :
    ∃ after d',
      ((Session.new {}).withQuery "ab".toList).replaceAll
        (.ofFragments [["xa".toList, "b ab".toList, "q".toList], ["zz".toList]]) "Z".toList =
          (after, d', 2) ∧
      (d'.fragments 0)[2]? = some "q".toList := by
  obtain ⟨after, d', listed, h_listed, h_run, -, h_pages, -⟩ :=
    replaceAll_substituted ((Session.new {}).withQuery "ab".toList)
      (.ofFragments [["xa".toList, "b ab".toList, "q".toList], ["zz".toList]]) "Z".toList
  have h_two : listed = [⟨0, ⟨0, 1⟩, ⟨1, 0⟩⟩, ⟨0, ⟨1, 2⟩, ⟨1, 3⟩⟩] := by
    rw [← h_listed]
    cbv
  subst h_two
  exact ⟨after, d', h_run, (h_pages 0).2.2 2 "q".toList rfl (by decide +kernel)⟩

end Session

end PagedSearch
