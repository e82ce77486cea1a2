/-
  PagedSearch.Proofs.Document.Substitution

  Putting another text in the place of many matches. `Substituted` is the
  meaning: all matches of a page are replaced at once. They are replaced match
  by match, the last one first; as each page stays as it is up to the match
  that was replaced last, the matches in front stay where they are
  (`Replaced.step`), and in the end all of them are replaced
  (`replaceMatches_replaced`).
-/
import PagedSearch.Proofs.Document.Replace
import PagedSearch.Session

namespace PagedSearch

/-- The characters of a match stand on its page. -/
structure Match.Within (m : Match) (d : Document) : Prop where
  page_lt : m.page < d.pageCount
  delimits : ∃ before part behind, charactersOn (d.fragments m.page) = before ++ part ++ behind ∧
    (⟨m.first, m.last⟩ : Span Point).Delimits part

/-- In characters with points, the parts that matches delimit, one behind the other, are replaced
    by another text. What stands between them is kept. -/
inductive Substituted (replacement : Text) : List Match → List (Char × Point) → Text → Prop where
  | none {chars} : Substituted replacement [] chars (chars.map Prod.fst)
  | next {m found before part behind text} : (⟨m.first, m.last⟩ : Span Point).Delimits part →
      Substituted replacement found behind text →
      Substituted replacement (m :: found) (before ++ part ++ behind)
        (before.map Prod.fst ++ replacement ++ text)

theorem Substituted.rewritten {replacement text : Text} {found : List Match}
    {chars : List (Char × Point)} (h : Substituted replacement found chars text) :
    Rewritten (fun _ _ => replacement) found chars text := by
  induction h with
  | none => exact .none
  | next h_span _ ih => exact .next h_span ih

/-- Where points go up, matches can be replaced in one way only. -/
theorem Substituted.unique {replacement text text' : Text} {found : List Match}
    {chars : List (Char × Point)} (h_up : chars.Pairwise fun x y => x.2.Before y.2)
    (h : Substituted replacement found chars text)
    (h' : Substituted replacement found chars text') : text = text' :=
  h.rewritten.unique h_up h'.rewritten

/-! ## One match after the other -/

/-- What replacing some matches makes of a document: everything in front of the matches is as it
    was, and behind that all of them are replaced at once. -/
structure Replaced (replacement : Text) (d : Document) (found : List Match) (d' : Document) :
    Prop where
  pageCount_eq : d'.pageCount = d.pageCount
  length_eq : ∀ page, (d'.fragments page).length = (d.fragments page).length
  substituted : ∀ page front rest, charactersOn (d.fragments page) = front ++ rest →
    (∀ m ∈ found, m.page = page → ∃ x ∈ rest, x.2 = m.first) →
    ∃ tail, charactersOn (d'.fragments page) = front ++ tail ∧
      Substituted replacement (found.filter fun m => m.page = page) rest (tail.map Prod.fst)
  untouched : ∀ page i t, (d.fragments page)[i]? = some t →
    (∀ m ∈ found, ∀ offset < t.length, m.contains page ⟨i, offset⟩ = false) →
    (d'.fragments page)[i]? = some t

theorem Replaced.nil (replacement : Text) (d : Document) : Replaced replacement d [] d where
  pageCount_eq := rfl
  length_eq _ := rfl
  substituted _ _ rest h _ := ⟨rest, h, .none⟩
  untouched _ _ _ h _ := h

section

variable {replacement : Text} {d d' : Document} {m : Match} {found : List Match}

/-- The first character of a match is a character of its page. -/
theorem Match.Within.first_mem (h : m.Within d) :
    ∃ x ∈ charactersOn (d.fragments m.page), x.2 = m.first := by
  obtain ⟨before, part, behind, h_split, h_span⟩ := h.delimits
  obtain ⟨x, h_x, h_first⟩ := h_span.first_mem
  rw [h_split]
  exact ⟨x, List.mem_append_left _ (List.mem_append_right _ h_x), h_first⟩

/-- The last character of a match is a character of its page. -/
theorem Match.Within.last_mem (h : m.Within d) :
    ∃ x ∈ charactersOn (d.fragments m.page), x.2 = m.last := by
  obtain ⟨before, part, behind, h_split, h_span⟩ := h.delimits
  obtain ⟨x, h_x, h_last⟩ := h_span.last_mem
  rw [h_split]
  exact ⟨x, List.mem_append_left _ (List.mem_append_right _ h_x), h_last⟩

theorem Match.Within.first_le_last (h : m.Within d) : m.first.le m.last = true := by
  obtain ⟨before, part, behind, h_split, h_span⟩ := h.delimits
  exact Match.first_le_last_of_delimits h_split h_span

/-- A match contains what stands between its first and its last character. -/
theorem Match.contains_of_le {p : Point} (h_first : m.first.le p = true)
    (h_last : p.le m.last = true) : m.contains m.page p = true :=
  Match.contains_iff.2 ⟨rfl, h_first, h_last⟩

/-- A fragment of which no character belongs to a match stays as it is. -/
theorem replacedFragment_untouched (h : m.Within d) {i : Nat} {t : Text}
    (h_t : (d.fragments m.page)[i]? = some t)
    (h_free : ∀ offset < t.length, m.contains m.page ⟨i, offset⟩ = false) (replacement : Text) :
    replacedFragment m (m.last.offset + 1) replacement i t = t := by
  have h_not : ∀ offset < t.length, ¬ m.contains m.page ⟨i, offset⟩ = true := by
    intro offset h_offset
    rw [h_free offset h_offset]
    decide
  -- the characters of the match stand in other fragments
  have h_other : ∀ x ∈ charactersOn (d.fragments m.page), m.contains m.page x.2 = true →
      x.2.fragment ≠ i := by
    rintro x h_x h_in rfl
    obtain ⟨t', h_t', h_offset⟩ := exists_of_mem_charactersOn h_x
    have h_eq : t' = t := Option.some.inj (h_t'.symm.trans h_t)
    exact h_not x.2.offset (h_eq ▸ h_offset) h_in
  obtain ⟨x, h_x, h_x_first⟩ := h.first_mem
  obtain ⟨y, h_y, h_y_last⟩ := h.last_mem
  have h_le := h.first_le_last
  have h_first : m.first.fragment ≠ i := by
    rw [← h_x_first]
    apply h_other x h_x
    rw [h_x_first]
    exact Match.contains_of_le (Point.le_refl m.first) h_le
  have h_last : m.last.fragment ≠ i := by
    rw [← h_y_last]
    apply h_other y h_y
    rw [h_y_last]
    exact Match.contains_of_le h_le (Point.le_refl m.last)
  by_cases h_out : i < m.first.fragment ∨ m.last.fragment < i
  · exact replacedFragment_outside h_out replacement t
  · -- the match covers the fragment, so nothing is in it
    have h_behind : m.first.fragment < i := by omega
    have h_before : i < m.last.fragment := by omega
    rw [replacedFragment_covered h_behind h_before]
    cases t with
    | nil => rfl
    | cons c t =>
      have h_in := Match.contains_of_le (m := m) (p := ⟨i, 0⟩) (Point.le_iff.2 (.inl h_behind))
        (Point.le_iff.2 (.inl h_before))
      exact absurd h_in (h_not 0 (Nat.succ_pos _))

/-- Up to the end of a match its page is as it was if all matches that were replaced stand behind
    it. -/
theorem Replaced.exists_behind (h : Replaced replacement d found d')
    (h_found : ∀ n ∈ found, n.Within d)
    (h_apart : ∀ n ∈ found, m.page = n.page → m.last.Before n.first)
    {before part behind : List (Char × Point)}
    (h_split : charactersOn (d.fragments m.page) = before ++ part ++ behind)
    (h_span : (⟨m.first, m.last⟩ : Span Point).Delimits part) :
    ∃ tail, charactersOn (d'.fragments m.page) = before ++ part ++ tail ∧
      Substituted replacement (found.filter fun n => n.page = m.page) behind
        (tail.map Prod.fst) := by
  apply h.substituted m.page (before ++ part) behind h_split
  intro n h_n h_page
  obtain ⟨x, h_x, h_first⟩ := (h_found n h_n).first_mem
  rw [h_page] at h_x
  have h_before : m.last.Before x.2 := by
    rw [h_first]
    exact h_apart n h_n h_page.symm
  exact ⟨x, mem_behind (charactersOn_pairwise _) h_split h_span h_x h_before, h_first⟩

/-- Replacing one match more, in front of the others. -/
theorem Replaced.step (h : Replaced replacement d found d') (h_within : m.Within d)
    (h_found : ∀ n ∈ found, n.Within d)
    (h_apart : ∀ n ∈ found, m.page = n.page → m.last.Before n.first) :
    ∃ d'', d'.replace? m replacement = some d'' ∧ Replaced replacement d (m :: found) d'' := by
  obtain ⟨before, part, behind, h_split, h_span⟩ := h_within.delimits
  obtain ⟨tail, h_now, h_rest⟩ := h.exists_behind h_found h_apart h_split h_span
  have h_lies := Match.lies_of_delimits h_now h_span
  have h_page : m.page < d'.pageCount := by
    rw [h.pageCount_eq]
    exact h_within.page_lt
  obtain ⟨d'', h_replace, h_pages, h_same, h_other⟩ :=
    Document.exists_replaceUpTo? h_page h_lies.fits replacement
  obtain ⟨tail', h_then, h_text⟩ := h_lies.charactersOn_replaced replacement
  -- on its own page the match changes what is behind its first character, elsewhere nothing
  refine ⟨d'', h_replace, ?_, ?_, ?_, ?_⟩
  · rw [h_pages, h.pageCount_eq]
  · intro page
    by_cases h_eq : page = m.page
    · rw [h_eq, h_same, List.length_mapIdx, h.length_eq]
    · rw [h_other page h_eq, h.length_eq]
  · intro page front rest h_cut h_first
    by_cases h_eq : page = m.page
    · subst h_eq
      obtain ⟨x, h_x, h_x_first⟩ := h_first m List.mem_cons_self rfl
      obtain ⟨mid, rfl, rfl⟩ :=
        exists_between (charactersOn_pairwise _) h_cut h_split h_span h_x h_x_first
      have h_mine : (m :: found).filter (fun n => n.page = m.page) =
          m :: found.filter fun n => n.page = m.page := List.filter_cons_of_pos (decide_eq_true rfl)
      refine ⟨mid ++ tail', ?_, ?_⟩
      · rw [h_same, h_then, List.append_assoc]
      · rw [h_mine, List.map_append, h_text, ← List.append_assoc]
        exact .next h_span h_rest
    · have h_others : (m :: found).filter (fun n => n.page = page) =
          found.filter fun n => n.page = page := by
        apply List.filter_cons_of_neg
        rw [decide_eq_true_eq]
        exact Ne.symm h_eq
      rw [h_others, h_other page h_eq]
      exact h.substituted page front rest h_cut fun n h_n => h_first n (List.mem_cons_of_mem _ h_n)
  · intro page i t h_t h_free
    have h_kept := h.untouched page i t h_t fun n h_n => h_free n (List.mem_cons_of_mem _ h_n)
    by_cases h_eq : page = m.page
    · subst h_eq
      rw [h_same, List.getElem?_mapIdx, h_kept, Option.map_some, Option.some.injEq]
      exact replacedFragment_untouched h_within h_t (h_free m List.mem_cons_self) replacement
    · rw [h_other page h_eq]
      exact h_kept

theorem replaceMatches_cons {count : Nat} {d'' : Document}
    (h : Session.replaceMatches d replacement found = (d', count))
    (h_replace : d'.replace? m replacement = some d'') :
    Session.replaceMatches d replacement (m :: found) = (d'', count + 1) := by
  rw [Session.replaceMatches] at h ⊢
  rw [List.foldr_cons, h]
  simp only [h_replace]

/-- Replacing matches from the last one to the first is replacing all of them at once. -/
theorem replaceMatches_replaced (replacement : Text)
    (h_found : ∀ n ∈ found, n.Within d)
    (h_apart : found.Pairwise fun m n => m.page = n.page → m.last.Before n.first) :
    ∃ d', Session.replaceMatches d replacement found = (d', found.length) ∧
      Replaced replacement d found d' := by
  -- the matches behind the first one have been replaced already
  induction found with
  | nil => exact ⟨d, rfl, .nil replacement d⟩
  | cons m found ih =>
    rw [List.pairwise_cons] at h_apart
    rw [List.forall_mem_cons] at h_found
    obtain ⟨d', h_run, h_replaced⟩ := ih h_found.2 h_apart.2
    obtain ⟨d'', h_replace, h_step⟩ := h_replaced.step h_found.1 h_found.2 h_apart.1
    exact ⟨d'', replaceMatches_cons h_run h_replace, h_step⟩

end

end PagedSearch
