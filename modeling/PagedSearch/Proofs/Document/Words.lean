/-
  PagedSearch.Proofs.Document.Words

  Documents as plain text, both ways. A text is cut in front of each word and
  nowhere else (`CutInWords`), and there is only one such cut
  (`cutWords_eq_iff`). So reading a plain text loses nothing, and of the
  documents with a page it gives exactly those back whose pages are cut in
  this way (`ofPlainText_canonical`).
-/
import Mathlib.Data.List.SplitBy
import PagedSearch.Document.PlainText
import PagedSearch.Proofs.Text.Line

namespace PagedSearch

/-- True of a blank and the character behind it if a word begins there. -/
def wordBegins (c d : Char) : Bool := isBlank c && !isBlank d

/-- No fragment is empty, and the fragments are cut exactly where a word begins. -/
structure CutInWords (fragments : List Text) : Prop where
  nil_notMem : [] ∉ fragments
  inside : ∀ t ∈ fragments, t.IsChain fun c d => wordBegins c d = false
  between : fragments.IsChain fun t u => ∃ h_t h_u, wordBegins (t.getLast h_t) (u.head h_u) = true

/-! ## Cutting a page -/

/-- The first fragment begins with the first character. -/
theorem exists_cutWords_cons (c : Char) (t : Text) :
    ∃ u rest, cutWords (c :: t) = (c :: u) :: rest := by
  cases t with
  | nil => exact ⟨[], [], rfl⟩
  | cons d t =>
    rw [cutWords]
    split
    · exact ⟨[], _, rfl⟩
    · cases cutWords (d :: t) with
      | nil => exact ⟨[], [], rfl⟩
      | cons u rest => exact ⟨u, rest, rfl⟩

/-- Where a word begins, a character in front of it is a fragment of its own. -/
theorem CutInWords.cons_singleton {c d : Char} {u : Text} {rest : List Text}
    (h : CutInWords ((d :: u) :: rest)) (h_begins : wordBegins c d = true) :
    CutInWords ([c] :: (d :: u) :: rest) where
  nil_notMem := by
    rw [List.mem_cons, not_or]
    exact ⟨(List.cons_ne_nil _ _).symm, h.nil_notMem⟩
  inside := by
    rw [List.forall_mem_cons]
    exact ⟨.singleton c, h.inside⟩
  between := by
    rw [List.isChain_cons_cons]
    exact ⟨⟨List.cons_ne_nil _ _, List.cons_ne_nil _ _, h_begins⟩, h.between⟩

/-- Where no word begins, a character in front belongs to the first fragment. -/
theorem CutInWords.cons_cons {c d : Char} {u : Text} {rest : List Text}
    (h : CutInWords ((d :: u) :: rest)) (h_begins : wordBegins c d = false) :
    CutInWords ((c :: d :: u) :: rest) where
  nil_notMem := by
    have h_notMem := h.nil_notMem
    rw [List.mem_cons, not_or] at h_notMem ⊢
    exact ⟨(List.cons_ne_nil _ _).symm, h_notMem.2⟩
  inside := by
    have h_inside := h.inside
    rw [List.forall_mem_cons] at h_inside ⊢
    exact ⟨List.isChain_cons_cons.2 ⟨h_begins, h_inside.1⟩, h_inside.2⟩
  between := by
    -- the fragment ends as it did
    have h_between := h.between
    rw [List.isChain_cons] at h_between ⊢
    refine ⟨fun t h_t => ?_, h_between.2⟩
    obtain ⟨h_u, h_nil, h_last⟩ := h_between.1 t h_t
    refine ⟨List.cons_ne_nil _ _, h_nil, ?_⟩
    rw [List.getLast_cons h_u]
    exact h_last

theorem cutInWords_cutWords (t : Text) : CutInWords (cutWords t) := by
  fun_induction cutWords t with
  | case1 => exact ⟨List.not_mem_nil, by simp, .nil⟩
  | case2 c => exact ⟨by simp, by simp, .singleton _⟩
  | case3 c d t h_begins ih =>
    obtain ⟨u, rest, h_cut⟩ := exists_cutWords_cons d t
    rw [h_cut] at ih ⊢
    exact ih.cons_singleton h_begins
  | case4 c d t h_begins ih =>
    obtain ⟨u, rest, h_cut⟩ := exists_cutWords_cons d t
    rw [h_cut] at ih ⊢
    exact ih.cons_cons (Bool.not_eq_true _ ▸ h_begins)

/-- A text is cut into words in one way only. -/
theorem CutInWords.splitBy_eq {fragments : List Text} (h : CutInWords fragments) :
    fragments.flatten.splitBy (fun c d => !wordBegins c d) = fragments := by
  apply List.splitBy_flatten h.nil_notMem
  · simpa using h.inside
  · simpa using h.between

theorem cutWords_eq_iff {t : Text} {fragments : List Text} :
    cutWords t = fragments ↔ fragments.flatten = t ∧ CutInWords fragments := by
  constructor
  · rintro rfl
    exact ⟨flatten_cutWords t, cutInWords_cutWords t⟩
  · rintro ⟨rfl, h⟩
    rw [← (cutInWords_cutWords _).splitBy_eq, flatten_cutWords, h.splitBy_eq]

/-! ## Documents -/

namespace Document

@[simp] theorem toPlainText_ofPlainText (t : Text) : (ofPlainText t).toPlainText = t := by
  rw [toPlainText, ofPlainText, List.map_map]
  have h_text : (Page.text ∘ fun page => ⟨cutWords page⟩) = id := funext flatten_cutWords
  rw [h_text, List.map_id, joinWith_splitAtAll]

/-- Without a form feed in a fragment, each page is cut anew. -/
theorem ofPlainText_toPlainText {d : Document} (h_pages : d.pages ≠ [])
    (h_feed : ∀ p ∈ d.pages, ∀ t ∈ p.fragments, formFeed ∉ t) :
    ofPlainText d.toPlainText = ⟨d.pages.map fun p => ⟨cutWords p.text⟩⟩ := by
  have h_texts : splitAtAll (· == formFeed) d.toPlainText = d.pages.map Page.text := by
    apply splitAtAll_joinWith (by simpa using h_pages)
    rw [List.forall_mem_map]
    intro p h_p
    rw [Page.text, List.mem_flatten]
    rintro ⟨t, h_t, h_mem⟩
    exact h_feed p h_p t h_t h_mem
  rw [ofPlainText, h_texts, List.map_map]
  rfl

end Document

/-- A plain text is cut into pages and words without loss, no fragment is empty, and the fragments
    of a page are cut exactly where a word begins. A document with a page and without a form feed
    in a fragment is written so that reading it gives as many pages with the same texts. It gives
    the document back exactly if its fragments are not empty and cut in this way. -/
theorem ofPlainText_canonical :
    (∀ t, (Document.ofPlainText t).toPlainText = t ∧
      ∀ p ∈ (Document.ofPlainText t).pages, CutInWords p.fragments) ∧
    ∀ d : Document, d.pages ≠ [] → (∀ p ∈ d.pages, ∀ t ∈ p.fragments, formFeed ∉ t) →
      (Document.ofPlainText d.toPlainText).pages.map Page.text = d.pages.map Page.text ∧
      (Document.ofPlainText d.toPlainText = d ↔ ∀ p ∈ d.pages, CutInWords p.fragments) := by
  refine ⟨fun t => ⟨Document.toPlainText_ofPlainText t, ?_⟩, fun d h_pages h_feed => ?_⟩
  · rw [Document.ofPlainText, List.forall_mem_map]
    exact fun page _ => cutInWords_cutWords page
  · rw [Document.ofPlainText_toPlainText h_pages h_feed]
    constructor
    · rw [List.map_map]
      exact List.map_congr_left fun p _ => flatten_cutWords p.text
    · -- a page is given back exactly if its fragments are those into which its text is cut
      have h_page : ∀ p ∈ d.pages, (⟨cutWords p.text⟩ : Page) = id p ↔ CutInWords p.fragments := by
        rintro ⟨fragments⟩ -
        rw [id, Page.mk.injEq]
        exact cutWords_eq_iff.trans (and_iff_right rfl)
      obtain ⟨pages⟩ := d
      rw [Document.mk.injEq, ← forall₂_congr h_page, ← List.map_inj_left, List.map_id]

/-- A page that begins with blanks, one that is empty and one that is cut inside a word: reading
    changes the last one only. -/
theorem ofPlainText_canonical_cut :
    let d : Document := .ofFragments
      [["  ".toList, "ab \t".toList, "c".toList], [], ["d".toList, [], "e f".toList]]
    (Document.ofPlainText d.toPlainText).pages.map Page.text = d.pages.map Page.text ∧
      Document.ofPlainText d.toPlainText ≠ d := by
  intro d
  obtain ⟨h_text, h_eq⟩ := ofPlainText_canonical.2 d (List.cons_ne_nil _ _) (by decide)
  refine ⟨h_text, ?_⟩
  rw [Ne, h_eq]
  intro h_cut
  exact (h_cut ⟨["d".toList, [], "e f".toList]⟩ (by decide)).nil_notMem (by decide)

end PagedSearch
