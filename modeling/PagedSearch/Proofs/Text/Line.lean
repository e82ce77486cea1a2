/-
  PagedSearch.Proofs.Text.Line

  Cutting at a character and joining with it undo each other: joining gives
  the text back that was cut (`joinWith_splitAtAll`), and cutting gives the
  pieces back that were joined, if the character is in none of them
  (`splitAtAll_joinWith`).

  A text is made of its lines with their ends (`flatten_fullLines`). Any of
  them can be left out: the others are read as they were
  (`fullLines_flatten`, `WellCut.sublist`).
-/
import PagedSearch.Text.Line

namespace PagedSearch

section

variable {p : Char → Bool} {mark : Char}

theorem joinWith_cons (mark t : Text) {rest : List Text} (h : rest ≠ []) :
    joinWith mark (t :: rest) = t ++ mark ++ joinWith mark rest := by
  cases rest with
  | nil => exact absurd rfl h
  | cons u rest => rfl

theorem joinWith_consFirst (mark : Text) (c : Char) (l : List Text) :
    joinWith mark (consFirst c l) = c :: joinWith mark l := by
  cases l with
  | nil => rfl
  | cons t rest =>
    cases rest with
    | nil => rfl
    | cons u rest => rfl

/-- Joining the pieces of a text gives the text back. -/
theorem joinWith_splitAtAll (mark : Char) (t : Text) :
    joinWith [mark] (splitAtAll (· == mark) t) = t := by
  induction t with
  | nil => rfl
  | cons c t ih =>
    rw [splitAtAll]
    by_cases h_c : (c == mark) = true
    · rw [if_pos h_c, joinWith_cons _ _ (splitAtAll_ne_nil _ t), ih, eq_of_beq h_c]
      rfl
    · rw [if_neg h_c, joinWith_consFirst, ih]

/-- No piece contains the character at which a text is cut. -/
theorem not_mem_of_mem_splitAtAll {t piece : Text} (h : piece ∈ splitAtAll (· == mark) t) :
    mark ∉ piece := by
  induction t generalizing piece with
  | nil =>
    obtain rfl := List.mem_singleton.1 h
    exact List.not_mem_nil
  | cons c t ih =>
    rw [splitAtAll] at h
    by_cases h_c : (c == mark) = true
    · rw [if_pos h_c, List.mem_cons] at h
      rcases h with rfl | h
      · exact List.not_mem_nil
      · exact ih h
    · rw [if_neg h_c] at h
      cases h_split : splitAtAll (· == mark) t with
      | nil => exact absurd h_split (splitAtAll_ne_nil _ t)
      | cons first rest =>
        rw [h_split] at h ih
        rcases List.mem_cons.1 h with rfl | h
        · -- the character goes to the front of the first piece
          rw [List.mem_cons, not_or]
          exact ⟨fun h_eq => h_c (beq_iff_eq.2 h_eq.symm), ih List.mem_cons_self⟩
        · exact ih (List.mem_cons_of_mem _ h)

/-- A text without the character is one piece, which what follows the character does not touch. -/
theorem splitAtAll_append {t : Text} (h : mark ∉ t) (rest : Text) :
    splitAtAll (· == mark) (t ++ mark :: rest) = t :: splitAtAll (· == mark) rest := by
  induction t with
  | nil => rw [List.nil_append, splitAtAll, if_pos (beq_self_eq_true mark)]
  | cons c t ih =>
    rw [List.mem_cons, not_or] at h
    rw [List.cons_append, splitAtAll, if_neg, ih h.2]
    · rfl
    · rw [beq_iff_eq]
      exact fun h_eq => h.1 h_eq.symm

theorem splitAtAll_of_not_mem {t : Text} (h : mark ∉ t) : splitAtAll (· == mark) t = [t] := by
  induction t with
  | nil => rfl
  | cons c t ih =>
    rw [List.mem_cons, not_or] at h
    rw [splitAtAll, if_neg, ih h.2]
    · rfl
    · rw [beq_iff_eq]
      exact fun h_eq => h.1 h_eq.symm

/-- Cutting gives the pieces back that were joined. -/
theorem splitAtAll_joinWith {pieces : List Text} (h_pieces : pieces ≠ [])
    (h : ∀ piece ∈ pieces, mark ∉ piece) :
    splitAtAll (· == mark) (joinWith [mark] pieces) = pieces := by
  induction pieces with
  | nil => exact absurd rfl h_pieces
  | cons piece rest ih =>
    rw [List.forall_mem_cons] at h
    by_cases h_rest : rest = []
    · subst h_rest
      exact splitAtAll_of_not_mem h.1
    · rw [joinWith_cons _ _ h_rest, List.append_assoc, List.singleton_append,
        splitAtAll_append h.1, ih h_rest h.2]

/-- A character in front that is not the one to cut at stands in front of what is cut off. -/
theorem cutAt?_cons {c : Char} (h : c ≠ mark) (t : Text) :
    cutAt? (· == mark) (c :: t) =
      (cutAt? (· == mark) t).map fun (before, behind) => (c :: before, behind) := by
  have h_c : (!(c == mark)) = true := bne_iff_ne.2 h
  rw [cutAt?, cutAt?, List.dropWhile_cons, if_pos h_c, List.takeWhile_cons, if_pos h_c]
  cases t.dropWhile fun c => !(c == mark) with
  | nil => rfl
  | cons _ behind => rfl

/-- Only a text that is empty or ends in such a character is cut so that the last piece is
    empty. -/
theorem eq_nil_or_of_getLast?_splitAtAll {t : Text} (h : (splitAtAll p t).getLast? = some []) :
    t = [] ∨ ∃ c, t.getLast? = some c ∧ p c = true := by
  induction t with
  | nil => exact .inl rfl
  | cons c t ih =>
    right
    rw [splitAtAll] at h
    cases h_split : splitAtAll p t with
    | nil => exact absurd h_split (splitAtAll_ne_nil p t)
    | cons first rest =>
      rw [h_split] at h ih
      by_cases h_c : p c = true
      · rw [if_pos h_c, List.getLast?_cons_cons] at h
        rcases ih h with rfl | ⟨d, h_d, h_p⟩
        · exact ⟨c, rfl, h_c⟩
        · exact ⟨d, by rw [List.getLast?_cons, h_d]; rfl, h_p⟩
      · rw [if_neg h_c, consFirst] at h
        cases rest with
        | nil => exact absurd h (by simp)
        | cons u rest =>
          rw [List.getLast?_cons_cons] at h
          rcases ih (by rw [List.getLast?_cons_cons, h]) with rfl | ⟨d, h_d, h_p⟩
          · exact absurd h_split (by simp [splitAtAll])
          · exact ⟨d, by rw [List.getLast?_cons, h_d]; rfl, h_p⟩

end

/-! ## Lines with their ends -/

/-- The lines of a text, each with its line feed if it has one. -/
def fullLines : Text → List Text
  | [] => []
  | c :: t => if c = '\n' then [c] :: fullLines t else consFirst c (fullLines t)

@[simp] theorem flatten_fullLines (t : Text) : (fullLines t).flatten = t := by
  induction t with
  | nil => rfl
  | cons c t ih =>
    rw [fullLines]
    by_cases h_c : c = '\n'
    · rw [if_pos h_c, List.flatten_cons, ih]
      rfl
    · rw [if_neg h_c, flatten_consFirst, ih]

theorem fullLines_append {line : Text} (h : '\n' ∉ line) (t : Text) :
    fullLines (line ++ '\n' :: t) = (line ++ ['\n']) :: fullLines t := by
  induction line with
  | nil => rw [List.nil_append, fullLines, if_pos rfl, List.nil_append]
  | cons c line ih =>
    rw [List.mem_cons, not_or] at h
    rw [List.cons_append, fullLines, if_neg (Ne.symm h.1), ih h.2]
    rfl

theorem fullLines_of_not_mem {line : Text} (h_line : line ≠ []) (h : '\n' ∉ line) :
    fullLines line = [line] := by
  induction line with
  | nil => exact absurd rfl h_line
  | cons c line ih =>
    rw [List.mem_cons, not_or] at h
    rw [fullLines, if_neg (Ne.symm h.1)]
    by_cases h_nil : line = []
    · rw [h_nil]
      rfl
    · rw [ih h_nil h.2]
      rfl

/-- A line has a line feed at its end or nowhere, and only the last line can be without one. -/
structure WellCut (ls : List Text) : Prop where
  cut : ∀ line ∈ ls, line ≠ [] ∧ '\n' ∉ line.dropLast
  ended : ls.Pairwise fun line _ => line.getLast? = some '\n'

theorem WellCut.sublist {ls ls' : List Text} (h : WellCut ls) (h_ls : ls'.Sublist ls) :
    WellCut ls' where
  cut line h_line := h.cut line (h_ls.subset h_line)
  ended := h.ended.sublist h_ls

theorem wellCut_fullLines (t : Text) : WellCut (fullLines t) := by
  induction t with
  | nil => exact ⟨fun line h => absurd h List.not_mem_nil, .nil⟩
  | cons c t ih =>
    obtain ⟨h_cut, h_ended⟩ := ih
    rw [fullLines]
    by_cases h_c : c = '\n'
    · subst h_c
      rw [if_pos rfl]
      constructor
      · rw [List.forall_mem_cons]
        exact ⟨⟨List.cons_ne_nil _ _, List.not_mem_nil⟩, h_cut⟩
      · exact List.pairwise_cons.2 ⟨fun _ _ => rfl, h_ended⟩
    · rw [if_neg h_c]
      cases h_lines : fullLines t with
      | nil =>
        refine ⟨?_, List.pairwise_singleton _ _⟩
        intro line h_line
        obtain rfl := List.mem_singleton.1 h_line
        exact ⟨List.cons_ne_nil _ _, List.not_mem_nil⟩
      | cons first rest =>
        rw [h_lines, List.forall_mem_cons] at h_cut
        rw [h_lines, List.pairwise_cons] at h_ended
        obtain ⟨⟨h_first, h_feed⟩, h_rest⟩ := h_cut
        -- the character goes to the front of the first line, whose end stays as it is
        have h_end : (c :: first).getLast? = first.getLast? := List.getLast?_cons_of_ne_nil h_first
        constructor
        · rw [consFirst, List.forall_mem_cons, List.dropLast_cons_of_ne_nil h_first, List.mem_cons,
            not_or]
          exact ⟨⟨List.cons_ne_nil _ _, Ne.symm h_c, h_feed⟩, h_rest⟩
        · rw [consFirst, List.pairwise_cons, h_end]
          exact h_ended

/-- Lines put together again are read as these lines. -/
theorem fullLines_flatten {ls : List Text} (h : WellCut ls) : fullLines ls.flatten = ls := by
  induction ls with
  | nil => rfl
  | cons line ls ih =>
    have h_ls : WellCut ls := h.sublist (List.sublist_cons_self line ls)
    obtain ⟨h_line, h_feed⟩ := h.cut line List.mem_cons_self
    by_cases h_end : line.getLast? = some '\n'
    · obtain ⟨front, rfl⟩ := List.getLast?_eq_some_iff.1 h_end
      rw [List.dropLast_concat] at h_feed
      rw [List.flatten_cons, List.append_assoc, List.singleton_append, fullLines_append h_feed,
        ih h_ls]
    · -- a line without a line feed is the last one
      have h_last : ls = [] := by
        match ls with
        | [] => rfl
        | next :: _ => exact absurd ((List.pairwise_cons.1 h.ended).1 next List.mem_cons_self) h_end
      have h_none : '\n' ∉ line := by
        rw [← List.dropLast_concat_getLast h_line, List.mem_append, not_or, List.mem_singleton]
        refine ⟨h_feed, fun h_eq => h_end ?_⟩
        rw [List.getLast?_eq_some_getLast h_line, h_eq]
      rw [h_last, List.flatten_cons, List.flatten_nil, List.append_nil]
      exact fullLines_of_not_mem h_line h_none

/-- A line without its end. -/
def withoutEnd (line : Text) : Text :=
  if line.getLast? = some '\n' then dropReturn line.dropLast else line

/-- Every piece but the last one is a line without its line feed; the last one is a line unless it
    is empty. -/
theorem fullLines_eq (t : Text) :
    fullLines t = ((splitAtAll (· == '\n') t).dropLast.map (· ++ ['\n'])) ++
      match (splitAtAll (· == '\n') t).getLast? with
      | some [] => []
      | some last => [last]
      | none => [] := by
  induction t with
  | nil => rfl
  | cons c t ih =>
    rw [fullLines, splitAtAll]
    cases h_split : splitAtAll (· == '\n') t with
    | nil => exact absurd h_split (splitAtAll_ne_nil _ t)
    | cons first rest =>
      rw [h_split] at ih
      by_cases h_c : c = '\n'
      · rw [if_pos h_c, if_pos (beq_iff_eq.2 h_c), ih, h_c]
        rfl
      · rw [if_neg h_c, if_neg (mt beq_iff_eq.1 h_c), ih]
        cases rest with
        | nil =>
          cases first with
          | nil => rfl
          | cons d first => rfl
        | cons second rest => rfl

theorem lines_eq_map_withoutEnd (t : Text) : lines t = (fullLines t).map withoutEnd := by
  have h_ended : ∀ line : Text, withoutEnd (line ++ ['\n']) = dropReturn line := by
    intro line
    rw [withoutEnd, if_pos List.getLast?_concat, List.dropLast_concat]
  have h_map : (splitAtAll (· == '\n') t).dropLast.map dropReturn =
      ((splitAtAll (· == '\n') t).dropLast.map (· ++ ['\n'])).map withoutEnd := by
    rw [List.map_map]
    exact (List.map_congr_left fun line _ => h_ended line).symm
  rw [lines.eq_def, fullLines_eq, List.map_append, ← h_map]
  simp only
  cases h_last : (splitAtAll (· == '\n') t).getLast? with
  | none => exact absurd (List.getLast?_eq_none_iff.1 h_last) (splitAtAll_ne_nil _ t)
  | some last =>
    cases last with
    | nil => exact (List.append_nil _).symm
    | cons c last =>
      -- no line feed is left in the last piece
      have h_none : '\n' ∉ c :: last := not_mem_of_mem_splitAtAll (List.mem_of_getLast? h_last)
      have h_same : withoutEnd (c :: last) = c :: last :=
        if_neg fun h_end => h_none (List.mem_of_getLast? h_end)
      show _ ++ [c :: last] = _ ++ [withoutEnd (c :: last)]
      rw [h_same]

end PagedSearch
