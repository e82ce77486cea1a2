/-
  PagedSearch.Proofs.Document.Replace

  Putting another text in the place of one match. A match lies in one fragment
  or runs from one into another (`Match.Lies`), so it can be replaced
  (`Document.exists_replaceUpTo?`). The page stays as it is up to the match;
  behind that stand the new text and what stood behind the match
  (`Match.Lies.charactersOn_replaced`).
-/
import PagedSearch.Proofs.Document.Characters
import PagedSearch.Document.Replace

namespace PagedSearch

/-! ## The place of a match -/

/-- How a match lies in the fragments of its page, with the characters in front of it and the text
    behind it. -/
inductive Match.Lies (m : Match) : List Text → List (Char × Point) → Text → Prop where
  /-- Inside one fragment. -/
  | inside {front back : List Text} {u w v : Text} :
      m.first = ⟨front.length, u.length⟩ → m.last.fragment = front.length →
      m.last.offset + 1 = (u ++ w).length →
      Lies m (front ++ (u ++ w ++ v) :: back)
        (charactersOn front ++ charactersIn front.length 0 u) (v ++ back.flatten)
  /-- From one fragment into another. -/
  | across {front mid back : List Text} {u w w' v : Text} :
      m.first = ⟨front.length, u.length⟩ → m.last.fragment = front.length + (mid.length + 1) →
      m.last.offset + 1 = w'.length →
      Lies m (front ++ (u ++ w) :: (mid ++ (w' ++ v) :: back))
        (charactersOn front ++ charactersIn front.length 0 u) (v ++ back.flatten)

section

variable {m : Match} {stop : Nat} {fragments : List Text} {before part behind : List (Char × Point)}

/-- Cuts of the fragments at the first and the last character show how a match lies. -/
theorem Match.lies_of_cuts {front front' back back' : List Text} {u u' v v' : Text} {c c' : Char}
    (h : front ++ (u ++ c :: v) :: back = front' ++ (u' ++ c' :: v') :: back')
    (h_first : m.first = ⟨front.length, u.length⟩)
    (h_last : m.last = ⟨front'.length, u'.length⟩) (h_le : m.first.le m.last = true) :
    m.Lies (front ++ (u ++ c :: v) :: back) (charactersOn front ++ charactersIn front.length 0 u)
      (v' ++ back'.flatten) := by
  have h_fragment : m.last.fragment = front'.length := by rw [h_last]
  have h_offset : m.last.offset + 1 = (u' ++ [c']).length := by
    rw [h_last, List.length_append, List.length_singleton]
  rw [h_first, h_last, Point.le_iff] at h_le
  simp only at h_le
  rcases cut_eq_or_behind h (by omega) with ⟨rfl, h_text, rfl⟩ | ⟨mid, rfl, rfl⟩
  · -- both characters stand in one fragment
    rcases cut_eq_or_behind h_text.symm (by omega) with ⟨rfl, rfl, rfl⟩ | ⟨w, rfl, rfl⟩
    · have h_lies : m.Lies (front' ++ (u' ++ [c'] ++ v') :: back') _ (v' ++ back'.flatten) :=
        .inside h_first h_fragment h_offset
      rw [List.append_assoc, List.singleton_append] at h_lies
      exact h_lies
    · rw [List.append_assoc] at h_offset
      have h_lies : m.Lies (front' ++ (u ++ (c :: w ++ [c']) ++ v') :: back') _
          (v' ++ back'.flatten) := .inside h_first h_fragment h_offset
      rw [List.append_assoc, List.append_assoc, List.singleton_append] at h_lies
      exact h_lies
  · -- the last character stands in a fragment further back
    rw [List.length_append, List.length_cons] at h_fragment
    have h_lies : m.Lies (front ++ (u ++ c :: v) :: (mid ++ (u' ++ [c'] ++ v') :: back')) _
        (v' ++ back'.flatten) := .across h_first h_fragment h_offset
    rw [List.append_assoc u', List.singleton_append] at h_lies
    exact h_lies

/-- A match that delimits a part of a page ends where it begins or behind. -/
theorem Match.first_le_last_of_delimits
    (h_split : charactersOn fragments = before ++ part ++ behind)
    (h_span : (⟨m.first, m.last⟩ : Span Point).Delimits part) : m.first.le m.last = true := by
  have h_up := charactersOn_pairwise fragments
  rw [h_split, List.pairwise_append, List.pairwise_append] at h_up
  exact h_span.first_le h_up.1.2.1

/-- A match that delimits a part of a page lies in the page's fragments. -/
theorem Match.lies_of_delimits (h_split : charactersOn fragments = before ++ part ++ behind)
    (h_span : (⟨m.first, m.last⟩ : Span Point).Delimits part) :
    m.Lies fragments before (behind.map Prod.fst) := by
  have h_le := Match.first_le_last_of_delimits h_split h_span
  -- the first and the last character each cut a fragment
  obtain ⟨⟨c, p⟩, h_head, h_first⟩ := Option.map_eq_some_iff.1 h_span.first_eq
  obtain ⟨⟨c', q⟩, h_tail, h_last⟩ := Option.map_eq_some_iff.1 h_span.last_eq
  have h_cut : ∃ rest, charactersOn fragments = before ++ (c, p) :: rest := by
    obtain ⟨part', h_part⟩ := List.head?_eq_some_iff.1 h_head
    exact ⟨part' ++ behind, by rw [h_split, h_part, List.append_assoc, List.cons_append]⟩
  have h_cut' : ∃ part', charactersOn fragments = (before ++ part') ++ (c', q) :: behind := by
    obtain ⟨part', h_part⟩ := List.getLast?_eq_some_iff.1 h_tail
    exact ⟨part', by rw [h_split, h_part, ← List.append_assoc, List.append_assoc,
      List.singleton_append]⟩
  obtain ⟨rest, h_cut⟩ := h_cut
  obtain ⟨part', h_cut'⟩ := h_cut'
  obtain ⟨front, u, v, back, h_fragments, rfl, rfl, -⟩ := charactersOn_cut h_cut
  obtain ⟨front', u', v', back', h_fragments', rfl, -, rfl⟩ := charactersOn_cut h_cut'
  rw [List.map_append, charactersIn_map_fst, charactersFrom_map_fst, h_fragments]
  exact Match.lies_of_cuts (h_fragments.symm.trans h_fragments') h_first.symm h_last.symm h_le

/-- A match that lies in fragments can be replaced among them. -/
theorem Match.Lies.fits {behind : Text} (h : m.Lies fragments before behind) :
    m.fits (m.last.offset + 1) fragments = true := by
  cases h with
  | @inside front back u w v h_first h_fragment h_offset =>
    have h_get : (front ++ (u ++ w ++ v) :: back)[m.last.fragment]? = some (u ++ w ++ v) := by
      rw [h_fragment, List.getElem?_append_right (Nat.le_refl _), Nat.sub_self,
        List.getElem?_cons_zero]
    rw [List.length_append] at h_offset
    rw [Match.fits, h_get, h_fragment, h_first]
    simp only [Nat.lt_irrefl, decide_false, Bool.false_or, beq_self_eq_true, Bool.true_and,
      decide_eq_true_eq, List.length_append]
    omega
  | @across front mid back u w w' v h_first h_fragment h_offset =>
    have h_get : (front ++ (u ++ w) :: (mid ++ (w' ++ v) :: back))[m.last.fragment]? =
        some (w' ++ v) := by
      rw [h_fragment, List.getElem?_append_right (Nat.le_add_right _ _), Nat.add_sub_cancel_left,
        List.getElem?_cons_succ, List.getElem?_append_right (Nat.le_refl _), Nat.sub_self,
        List.getElem?_cons_zero]
    have h_lt : m.first.fragment < m.last.fragment := by
      rw [h_fragment, h_first]
      exact Nat.lt_add_of_pos_right (Nat.succ_pos _)
    rw [Match.fits, h_get]
    simp only [h_lt, decide_true, Bool.true_or]

/-- Fragments outside of a match stay as they are. -/
theorem replacedFragment_outside {i : Nat} (h : i < m.first.fragment ∨ m.last.fragment < i)
    (replacement t : Text) : replacedFragment m stop replacement i t = t := by
  rw [replacedFragment, if_pos h]

/-- Fragments that a match covers are emptied. -/
theorem replacedFragment_covered {i : Nat} (h_first : m.first.fragment < i)
    (h_last : i < m.last.fragment) (replacement t : Text) :
    replacedFragment m stop replacement i t = [] := by
  rw [replacedFragment, if_neg (by omega), if_neg (by omega), if_neg (by omega), List.append_nil]

theorem mapIdx_eq_self {α : Type} {f : Nat → α → α} {l : List α}
    (h : ∀ i < l.length, ∀ a, f i a = a) : l.mapIdx f = l := by
  apply List.ext_getElem
  · exact List.length_mapIdx
  · intro i h_i _
    rw [List.length_mapIdx] at h_i
    rw [List.getElem_mapIdx]
    exact h i h_i _

/-- A match inside one fragment changes no other one. -/
theorem mapIdx_replaced_inside {front back : List Text} {t : Text}
    (h_first : m.first.fragment = front.length) (h_last : m.last.fragment = front.length)
    (replacement : Text) :
    (front ++ t :: back).mapIdx (replacedFragment m stop replacement) =
      front ++ (t.take m.first.offset ++ replacement ++ t.drop stop) :: back := by
  have h_in : replacedFragment m stop replacement front.length t =
      t.take m.first.offset ++ replacement ++ t.drop stop := by
    rw [replacedFragment, if_neg (by omega), if_pos h_first.symm, if_pos h_last.symm]
  have h_front : front.mapIdx (replacedFragment m stop replacement) = front :=
    mapIdx_eq_self fun i _ t => replacedFragment_outside (by omega) replacement t
  rw [List.mapIdx_append, List.mapIdx_cons, Nat.zero_add, h_in, h_front, mapIdx_eq_self (l := back)]
  intro i _ t
  exact replacedFragment_outside (by omega) replacement t

/-- Of a match from one fragment into another the new text ends the first one, and the last one
    begins behind the match. Those in between are emptied. -/
theorem mapIdx_replaced_across {front mid back : List Text} {t t' : Text}
    (h_first : m.first.fragment = front.length)
    (h_last : m.last.fragment = front.length + (mid.length + 1)) (replacement : Text) :
    ∃ emptied, emptied.flatten = [] ∧
      (front ++ t :: (mid ++ t' :: back)).mapIdx (replacedFragment m stop replacement) =
        front ++ (t.take m.first.offset ++ replacement) ::
          (emptied ++ t'.drop stop :: back) := by
  have h_in : replacedFragment m stop replacement front.length t =
      t.take m.first.offset ++ replacement := by
    rw [replacedFragment, if_neg (by omega), if_pos h_first.symm, if_neg (by omega),
      List.append_nil]
  have h_in_last : replacedFragment m stop replacement (mid.length + 1 + front.length) t' =
      t'.drop stop := by
    rw [replacedFragment, if_neg (by omega), if_neg (by omega), if_pos (by omega), List.nil_append]
  have h_front : front.mapIdx (replacedFragment m stop replacement) = front :=
    mapIdx_eq_self fun i _ t => replacedFragment_outside (by omega) replacement t
  refine ⟨mid.mapIdx fun i => replacedFragment m stop replacement (i + 1 + front.length), ?_, ?_⟩
  · rw [List.flatten_eq_nil_iff]
    intro t h_t
    obtain ⟨i, h_i, rfl⟩ := List.mem_mapIdx.1 h_t
    exact replacedFragment_covered (by omega) (by omega) replacement _
  · rw [List.mapIdx_append, List.mapIdx_cons, List.mapIdx_append, List.mapIdx_cons, Nat.zero_add,
      Nat.zero_add, h_in, h_front, h_in_last, mapIdx_eq_self (l := back)]
    intro i _ t
    exact replacedFragment_outside (by omega) replacement t

/-- Where the match begins the new text goes into the fragment; the fragments in front stay as they
    are. -/
theorem Match.Lies.mapIdx_replaced {behind : Text} (h : m.Lies fragments before behind)
    (replacement : Text) :
    ∃ front u v back,
      fragments.mapIdx (replacedFragment m (m.last.offset + 1) replacement) =
        front ++ (u ++ (replacement ++ v)) :: back ∧
      before = charactersOn front ++ charactersIn front.length 0 u ∧
      behind = v ++ back.flatten := by
  cases h with
  | @inside front back u w v h_first h_last h_end =>
    have h_fragment : m.first.fragment = front.length := by rw [h_first]
    have h_offset : m.first.offset = u.length := by rw [h_first]
    refine ⟨front, u, v, back, ?_, rfl, rfl⟩
    rw [mapIdx_replaced_inside h_fragment h_last, h_offset, h_end, List.drop_left,
      List.append_assoc u w v, List.take_left, List.append_assoc]
  | @across front mid back u w w' v h_first h_last h_end =>
    have h_fragment : m.first.fragment = front.length := by rw [h_first]
    have h_offset : m.first.offset = u.length := by rw [h_first]
    obtain ⟨emptied, h_emptied, h_mapIdx⟩ :=
      @mapIdx_replaced_across m (m.last.offset + 1) front mid back (u ++ w) (w' ++ v) h_fragment
        h_last replacement
    refine ⟨front, u, [], emptied ++ v :: back, ?_, rfl, ?_⟩
    · rw [h_mapIdx, h_offset, h_end, List.take_left, List.drop_left, List.append_nil]
    · rw [List.flatten_append, h_emptied, List.nil_append, List.nil_append, List.flatten_cons]

/-- Replacing a match leaves the page as it is up to the match; behind that stand the new text and
    what stood behind the match. -/
theorem Match.Lies.charactersOn_replaced {behind : Text} (h : m.Lies fragments before behind)
    (replacement : Text) :
    ∃ tail, charactersOn (fragments.mapIdx (replacedFragment m (m.last.offset + 1) replacement)) =
        before ++ tail ∧
      tail.map Prod.fst = replacement ++ behind := by
  obtain ⟨front, u, v, back, h_mapIdx, rfl, rfl⟩ := h.mapIdx_replaced replacement
  rw [h_mapIdx, charactersOn_append_cons]
  refine ⟨_, rfl, ?_⟩
  rw [List.map_append, charactersIn_map_fst, charactersFrom_map_fst, List.append_assoc]

/-! ## Documents -/

/-- A match that fits its page can be replaced, and no other page changes. -/
theorem Document.exists_replaceUpTo? {d : Document} (h_page : m.page < d.pageCount)
    (h_fits : m.fits stop (d.fragments m.page) = true) (replacement : Text) :
    ∃ d', d.replaceUpTo? m stop replacement = some d' ∧ d'.pageCount = d.pageCount ∧
      d'.fragments m.page = (d.fragments m.page).mapIdx (replacedFragment m stop replacement) ∧
      ∀ page, page ≠ m.page → d'.fragments page = d.fragments page := by
  obtain ⟨page, h_get⟩ : ∃ page, d.pages[m.page]? = some page :=
    ⟨_, List.getElem?_eq_getElem h_page⟩
  have h_fragments : d.fragments m.page = page.fragments := by
    rw [Document.fragments, h_get]
  rw [h_fragments] at h_fits ⊢
  refine ⟨⟨d.pages.set m.page ⟨page.fragments.mapIdx (replacedFragment m stop replacement)⟩⟩,
    ?_, ?_, ?_, ?_⟩
  · rw [Document.replaceUpTo?, h_get]
    exact if_pos h_fits
  · exact List.length_set
  · rw [Document.fragments, List.getElem?_set_self h_page]
  · intro other h_other
    rw [Document.fragments, List.getElem?_set_ne h_other.symm]
    rfl

end

end PagedSearch
