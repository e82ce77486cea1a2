/-
  PagedSearch.Proofs.Document.PlainText

  Replacing matches in a plain text. `Edited` is the meaning: on every page
  all matches are replaced at once, and the form feeds between the pages stay.
  A document that is read from a plain text, has matches replaced and is
  written as plain text again is the edited text (`Replaced.edited`), and
  there is only one (`Edited.unique`).
-/
import PagedSearch.Document.PlainText
import PagedSearch.Proofs.Document.Substitution
import PagedSearch.Proofs.Text.Line

namespace PagedSearch

/-- The text `t'` is the plain text `t` with matches replaced by another text, page by page; all
    other characters, blanks and form feeds among them, are kept in their places. -/
def Edited (replacement : Text) (found : List Match) (t t' : Text) : Prop :=
  ∃ pages pages' : List Text,
    pages ≠ [] ∧ (∀ page ∈ pages, formFeed ∉ page) ∧ t = joinWith [formFeed] pages ∧
    pages'.length = pages.length ∧ t' = joinWith [formFeed] pages' ∧
    ∀ i page page', pages[i]? = some page → pages'[i]? = some page' →
      Substituted replacement (found.filter fun m => m.page = i) (charactersOn (cutWords page))
        page'

section

variable {replacement t t' t'' : Text} {found : List Match} {d d' : Document}

/-- Matches can be replaced in one way only. -/
theorem Edited.unique (h : Edited replacement found t t') (h' : Edited replacement found t t'') :
    t' = t'' := by
  obtain ⟨pages, pages', h_nil, h_feed, rfl, h_length, rfl, h_pages⟩ := h
  obtain ⟨others, others', h_nil', h_feed', h_text, h_length', rfl, h_others⟩ := h'
  obtain rfl : pages = others := by
    rw [← splitAtAll_joinWith h_nil h_feed, h_text, splitAtAll_joinWith h_nil' h_feed']
  congr 1
  apply List.ext_getElem (h_length.trans h_length'.symm)
  intro i h_i h_i'
  have h_page : pages[i]? = some pages[i] := List.getElem?_eq_getElem (h_length ▸ h_i)
  exact (h_pages i _ _ h_page (List.getElem?_eq_getElem h_i)).unique (charactersOn_pairwise _)
    (h_others i _ _ h_page (List.getElem?_eq_getElem h_i'))

/-- On every page all matches are replaced at once. -/
theorem Replaced.page_substituted (h : Replaced replacement d found d')
    (h_found : ∀ m ∈ found, m.Within d) (page : Nat) :
    Substituted replacement (found.filter fun m => m.page = page)
      (charactersOn (d.fragments page)) (d'.fragments page).flatten := by
  -- the whole page stands behind its start
  obtain ⟨tail, h_tail, h_substituted⟩ :=
    h.substituted page [] (charactersOn (d.fragments page)) rfl fun m h_m h_page =>
      h_page ▸ (h_found m h_m).first_mem
  have h_text : tail.map Prod.fst = (d'.fragments page).flatten := by
    rw [← charactersFrom_map_fst 0 (d'.fragments page)]
    exact congrArg _ h_tail.symm
  rw [h_text] at h_substituted
  exact h_substituted

/-- Replacing matches in the document of a plain text edits the text. -/
theorem Replaced.edited (h : Replaced replacement (.ofPlainText t) found d')
    (h_found : ∀ m ∈ found, m.Within (.ofPlainText t)) :
    Edited replacement found t d'.toPlainText := by
  refine ⟨splitAtAll (· == formFeed) t, d'.pages.map Page.text, splitAtAll_ne_nil _ t,
    fun page h_page => not_mem_of_mem_splitAtAll h_page, (joinWith_splitAtAll formFeed t).symm,
    ?_, rfl, ?_⟩
  · have h_count := h.pageCount_eq
    rw [Document.pageCount, Document.pageCount, Document.ofPlainText, List.length_map] at h_count
    rw [List.length_map, h_count]
  · intro i page page' h_page h_page'
    have h_substituted := h.page_substituted h_found i
    rw [List.getElem?_map, Option.map_eq_some_iff] at h_page'
    obtain ⟨p, h_p, rfl⟩ := h_page'
    have h_before : (Document.ofPlainText t).fragments i = cutWords page := by
      rw [Document.fragments, Document.ofPlainText, List.getElem?_map, h_page]
      rfl
    have h_after : (d'.fragments i).flatten = p.text := by
      rw [Document.fragments, h_p]
      rfl
    rw [h_before, h_after] at h_substituted
    exact h_substituted

end

end PagedSearch
