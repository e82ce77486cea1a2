/-
  PagedSearch.Proofs.Document.Mirror

  The mirror image of a document: pages, the fragments of a page and the
  characters of a fragment come in the opposite order. A page read from its
  end is the mirrored page read from its start (`charactersOn_mirrored`), and
  the order of characters is reversed (`mirrorPoint_before_iff`). A selection
  that another document has left need not begin at a character; it is mirrored
  as if it began at the next one (`Document.mirrorSelection?`).
-/
import PagedSearch.Proofs.Document.Characters

namespace PagedSearch

/-! ## Mirror images -/

/-- The fragments of a page from the last to the first, each read from its end. -/
def mirrorFragments (fragments : List Text) : List Text := (fragments.map List.reverse).reverse

/-- The point of a character of a page in the mirror image of the page. -/
def mirrorPoint (fragments : List Text) (p : Point) : Point :=
  ⟨fragments.length - 1 - p.fragment, (fragments.getD p.fragment []).length - 1 - p.offset⟩

namespace Document

/-- The document with its pages from the last to the first, each mirrored. -/
def mirror (d : Document) : Document :=
  ⟨(d.pages.map fun page => ⟨mirrorFragments page.fragments⟩).reverse⟩

/-- The number of a page in the mirror image of the document. -/
def mirrorPage (d : Document) (page : Nat) : Nat := d.pageCount - 1 - page

/-- A match in the mirror image of the document: it begins where it ended. -/
def mirrorMatch (d : Document) (m : Match) : Match :=
  ⟨d.mirrorPage m.page, mirrorPoint (d.fragments m.page) m.last,
    mirrorPoint (d.fragments m.page) m.first⟩

@[simp] theorem mirror_pageCount (d : Document) : d.mirror.pageCount = d.pageCount := by
  rw [pageCount, mirror, List.length_reverse, List.length_map, pageCount]

theorem mirrorPage_lt {d : Document} {page : Nat} (h : page < d.pageCount) :
    d.mirrorPage page < d.mirror.pageCount := by
  rw [mirror_pageCount, mirrorPage]
  omega

theorem mirror_fragments {d : Document} {page : Nat} (h : page < d.pageCount) :
    d.mirror.fragments (d.mirrorPage page) = mirrorFragments (d.fragments page) := by
  have h_get : d.mirror.pages[d.mirrorPage page]? =
      d.pages[page]?.map fun page => ⟨mirrorFragments page.fragments⟩ := by
    rw [mirror, List.getElem?_reverse, List.getElem?_map, List.length_map]
    · congr 2
      rw [mirrorPage, pageCount] at *
      omega
    · rw [List.length_map]
      rw [mirrorPage, pageCount] at *
      omega
  rw [fragments, fragments, h_get]
  cases d.pages[page]? with
  | some page => rfl
  | none => rfl

end Document

/-! ## The characters of a page -/

/-- A mirrored page has the characters of the page in the opposite order. -/
theorem charactersOn_mirrored (fragments : List Text) :
    charactersOn (mirrorFragments fragments) =
      ((charactersOn fragments).map fun x => (x.1, mirrorPoint fragments x.2)).reverse := by
  rw [charactersOn, charactersFrom, mirrorFragments, zipIdx_reverse, List.zipIdx_map, List.map_map,
    List.length_map, ← List.map_reverse, List.flatMap_map, charactersOn, charactersFrom,
    List.map_flatMap, List.reverse_flatMap]
  apply List.flatMap_congr
  rintro ⟨t, i⟩ h_t
  -- each fragment is read from its end and counted from the end of the page
  have h_get : fragments[i]? = some t :=
    List.mem_zipIdx_iff_getElem?.1 (List.mem_reverse.1 h_t)
  have h_length : (fragments.getD i []).length = t.length := by
    rw [List.getD_eq_getElem?_getD, h_get, Option.getD_some]
  show charactersIn (fragments.length - 1 - i) 0 t.reverse =
    ((charactersIn i 0 t).map fun x => (x.1, mirrorPoint fragments x.2)).reverse
  rw [charactersIn, zipIdx_reverse, List.map_reverse, List.map_map, charactersIn, List.map_map]
  congr 2
  funext x
  obtain ⟨c, offset⟩ := x
  show (c, (⟨fragments.length - 1 - i, t.length - 1 - offset⟩ : Point)) =
    (c, ⟨fragments.length - 1 - i, (fragments.getD i []).length - 1 - offset⟩)
  rw [h_length]

/-- In the mirror image the order of two characters is reversed. -/
theorem mirrorPoint_before_iff {fragments : List Text} {x y : Char × Point}
    (h_x : x ∈ charactersOn fragments) (h_y : y ∈ charactersOn fragments) :
    (mirrorPoint fragments x.2).Before (mirrorPoint fragments y.2) ↔ y.2.Before x.2 := by
  obtain ⟨t, h_t, h_offset⟩ := exists_of_mem_charactersOn h_x
  obtain ⟨u, h_u, h_offset'⟩ := exists_of_mem_charactersOn h_y
  obtain ⟨h_lt, -⟩ := List.getElem?_eq_some_iff.1 h_t
  obtain ⟨h_lt', -⟩ := List.getElem?_eq_some_iff.1 h_u
  rw [Point.before_iff, Point.before_iff, mirrorPoint, mirrorPoint,
    List.getD_eq_getElem?_getD, List.getD_eq_getElem?_getD, h_t, h_u]
  simp only [Option.getD_some]
  by_cases h_same : x.2.fragment = y.2.fragment
  · -- in one fragment the offsets decide, counted from its other end
    have h_eq : t = u := by
      rw [h_same, h_u] at h_t
      exact (Option.some.inj h_t).symm
    subst h_eq
    omega
  · omega

/-! ## Selections -/

/-- The point of the first character of a page that does not stand before a point. -/
def firstFrom? (fragments : List Text) (p : Point) : Option Point :=
  ((charactersOn fragments).find? fun x => p.le x.2).map Prod.snd

theorem exists_of_firstFrom?_some {fragments : List Text} {p q : Point}
    (h : firstFrom? fragments p = some q) : ∃ x ∈ charactersOn fragments, x.2 = q := by
  rw [firstFrom?, Option.map_eq_some_iff] at h
  obtain ⟨x, h_find, h_q⟩ := h
  exact ⟨x, List.mem_of_find?_eq_some h_find, h_q⟩

/-- Where no character is left, every character stands before the point. -/
theorem before_of_firstFrom?_none {fragments : List Text} {p : Point} {x : Char × Point}
    (h : firstFrom? fragments p = none) (h_x : x ∈ charactersOn fragments) : x.2.Before p := by
  rw [firstFrom?, Option.map_eq_none_iff, List.find?_eq_none] at h
  exact Point.not_le_iff.1 (h x h_x)

/-- A character stands before a point exactly if it stands before the first character from there
    on. -/
theorem before_iff_of_firstFrom?_some {fragments : List Text} {p q : Point} {x : Char × Point}
    (h : firstFrom? fragments p = some q) (h_x : x ∈ charactersOn fragments) :
    x.2.Before p ↔ x.2.Before q := by
  rw [firstFrom?, Option.map_eq_some_iff] at h
  obtain ⟨y, h_find, rfl⟩ := h
  obtain ⟨h_le, before, rest, h_split, h_front⟩ := List.find?_eq_some_iff_append.1 h_find
  have h_up := charactersOn_pairwise fragments
  rw [h_split, List.pairwise_append, List.pairwise_cons] at h_up
  rw [h_split] at h_x
  have h_not : ¬ y.2.Before p := fun h_before => Point.not_le_iff.2 h_before h_le
  rcases List.mem_append.1 h_x with h_x | h_x
  · -- in front of the first character both hold
    have h_before := h_front x h_x
    rw [Bool.not_eq_true', ← Bool.not_eq_true, Point.not_le_iff] at h_before
    exact iff_of_true h_before (h_up.2.2 x h_x y List.mem_cons_self)
  · apply iff_of_false
    · intro h_before
      rcases List.mem_cons.1 h_x with rfl | h_x
      · exact h_not h_before
      · exact h_not ((h_up.2.1.1 x h_x).trans h_before)
    · intro h_before
      rcases List.mem_cons.1 h_x with rfl | h_x
      · exact Point.not_before_self _ h_before
      · exact Point.not_before_self _ (h_before.trans (h_up.2.1.1 x h_x))

/-- Only a page of the document has a character to go on from. -/
theorem lt_of_firstFrom?_some {d : Document} {page : Nat} {p q : Point}
    (h : firstFrom? (d.fragments page) p = some q) : page < d.pageCount := by
  rw [← Nat.not_le]
  intro h_le
  have h_fragments : d.fragments page = [] := by
    rw [Document.fragments, List.getElem?_eq_none h_le]
  rw [h_fragments] at h
  exact absurd h (by simp [firstFrom?, charactersOn, charactersFrom])

/-- A selection in the mirror image of the document. One that does not begin at a character of its
    page counts as one that begins at the next character, and as none if no character is left. -/
def Document.mirrorSelection? (d : Document) (m : Match) : Option Match :=
  (firstFrom? (d.fragments m.page) m.first).map fun p => d.mirrorMatch { m with first := p }

end PagedSearch
