/-
  PagedSearch.Proofs.Scan.Literal

  Scanning for a word is exact. The invariant `Tracks` ties a scan to what
  was read since the last match: the state is the length of the longest
  prefix of the word that the text read ends with, the window holds the
  places of those characters, and the word itself has not occurred. A step
  keeps it or completes the leftmost occurrence (`step_tracks`), so a run
  picks the occurrences greedily from the left (`drain_picked`).
-/
import PagedSearch.Proofs.Chain.Spelling
import PagedSearch.Proofs.Scan.Occurrence

namespace PagedSearch

variable {α : Type} {chain : Chain} {w : Text}

/-- No repetition is passed over in a word. -/
theorem Chain.Spells.emptyRun_eq (h : chain.Spells w) (c : Char) (k : Nat) :
    chain.emptyRun c k = 0 := by
  rw [Chain.emptyRun, h, List.length_eq_zero_iff, ← List.map_drop]
  cases w.drop k <;> rfl

/-- The scan knows the longest prefix of the word that the text read ends with. -/
structure Tracks (w : Text) (seen : List (Char × α)) (scan : Scan α) : Prop where
  taken_eq : scan.taken = 0
  current_lt : scan.current < w.length
  window_eq : scan.window = (seen.drop (seen.length - scan.current)).map Prod.snd
  suffix : w.take scan.current <:+ seen.map Prod.fst
  longest : ∀ j < w.length, w.take j <:+ seen.map Prod.fst → j ≤ scan.current
  absent : ¬ w <:+: seen.map Prod.fst

/-- The last character read has completed an occurrence of the word; nothing is left of it. -/
structure Completes (w : Text) (seen : List (Char × α)) (span : Span α) (next : Scan α) : Prop where
  restarted : Tracks w [] next
  occurs : ∃ before part, seen = before ++ part ∧ part.map Prod.fst = w ∧ span.Delimits part
  absent : ¬ w <:+: seen.dropLast.map Prod.fst

/-- What a step may come to once it has read the last character of `seen`. -/
def Stepped (w : Text) (seen : List (Char × α)) : Scan α × Option (Span α) → Prop
  | (next, none) => Tracks w seen next
  | (next, some span) => Completes w seen span next

/-- A scan without a partial match has read nothing. -/
theorem Tracks.fresh (h_pos : 0 < w.length) (n : Nat) :
    Tracks w [] ({ comparisons := n } : Scan α) where
  taken_eq := rfl
  current_lt := h_pos
  window_eq := rfl
  suffix := List.nil_suffix
  longest j h_j h_suffix := by
    have h_nil := List.eq_nil_of_suffix_nil h_suffix
    rw [List.take_eq_nil_iff] at h_nil
    rcases h_nil with h_zero | h_w
    · exact Nat.le_of_eq h_zero
    · rw [h_w] at h_j
      exact absurd h_j (Nat.not_lt_zero j)
  absent h_infix := by
    rw [List.eq_nil_of_infix_nil h_infix] at h_pos
    exact absurd h_pos (Nat.lt_irrefl 0)

/-! ## One character -/

/-- No prefix of the word of length `b` or more that the text ends with goes on with `c`. -/
def Stuck (w t : Text) (c : Char) (b : Nat) : Prop :=
  ∀ j < w.length, b ≤ j → w.take j <:+ t → w[j]? ≠ some c

theorem Stuck.le_of_take_suffix {t : Text} {c : Char} {b j : Nat} (h : Stuck w t c b)
    (h_j : j < w.length) (h_take : w.take j <:+ t ++ [c]) : j ≤ b := by
  match j with
  | 0 => exact Nat.zero_le b
  | j + 1 =>
    rw [take_succ_suffix_concat (by omega)] at h_take
    apply Nat.le_of_not_lt
    intro h_lt
    exact h j (by omega) (Nat.le_of_lt_succ h_lt) h_take.2 h_take.1

/-- The word does not come to occur with a character that its longest prefixes do not take. -/
theorem Stuck.absent {t : Text} {c : Char} {b : Nat} (h : Stuck w t c b) (h_b : b < w.length)
    (h_absent : ¬ w <:+: t) : ¬ w <:+: t ++ [c] := by
  intro h_occurs
  rw [List.infix_concat_iff] at h_occurs
  rcases h_occurs with h_end | h_before
  · -- an occurrence that ends here is the longest prefix of all
    have h_take : w.take (w.length - 1 + 1) <:+ t ++ [c] := by
      rw [List.take_of_length_le (by omega)]
      exact h_end
    rw [take_succ_suffix_concat (by omega)] at h_take
    exact h (w.length - 1) (by omega) (by omega) h_take.2 h_take.1
  · exact h_absent h_before

/-- Where a state does not take the character, only its link is left to try. -/
theorem Stuck.link (h : chain.Spells w) {t : Text} {c : Char} {k : Nat} (h_k : k < w.length)
    (h_take : w.take k <:+ t) (h_stuck : Stuck w t c (k + 1)) (h_c : w[k]? ≠ some c) :
    Stuck w t c (chain.link k + 1) := by
  intro j h_j h_link_lt h_take_j
  -- a prefix between the link and `k` does not end the text, for the link is the longest
  rcases Nat.lt_trichotomy j k with h_lt | h_eq | h_gt
  · have h_le := h.le_link h_k h_lt (take_suffix_take (Nat.le_of_lt h_lt) h_take_j h_take)
    omega
  · exact h_eq ▸ h_c
  · exact h_stuck j h_j h_gt h_take_j

/-- The scan is in state `k`: its window holds the places of the last `k` characters read, and
    they are the first `k` of the word. -/
structure Waits (w : Text) (seen : List (Char × α)) (k : Nat) (window : List α) : Prop where
  lt : k < w.length
  window_eq : window = (seen.drop (seen.length - k)).map Prod.snd
  suffix : w.take k <:+ seen.map Prod.fst

namespace Waits

variable {seen : List (Char × α)} {k : Nat} {window : List α} {c : Char} {here : α}

theorem le_length (h : Waits w seen k window) : k ≤ seen.length := by
  have h_le := h.suffix.length_le
  rw [List.length_take, List.length_map, Nat.min_eq_left (Nat.le_of_lt h.lt)] at h_le
  exact h_le

theorem part_eq (h : Waits w seen k window) :
    (seen.drop (seen.length - k)).map Prod.fst = w.take k := by
  have h_drop := List.suffix_iff_eq_drop.1 h.suffix
  rw [List.length_map, List.length_take, Nat.min_eq_left (Nat.le_of_lt h.lt)] at h_drop
  rw [List.map_drop, ← h_drop]

theorem window_concat (h : Waits w seen k window) :
    window ++ [here] = (seen.drop (seen.length - k) ++ [(c, here)]).map Prod.snd := by
  rw [h.window_eq, List.map_append]
  rfl

/-- The state takes the character and is not the last one. -/
theorem taken (h : Waits w seen k window) (h_c : w[k]? = some c) (h_lt : k + 1 < w.length) :
    Waits w (seen ++ [(c, here)]) (k + 1) (window ++ [here]) where
  lt := h_lt
  window_eq := by
    rw [h.window_concat (c := c), List.length_append, List.length_singleton,
      Nat.add_sub_add_right, List.drop_append_of_le_length (Nat.sub_le _ _)]
  suffix := by
    rw [List.map_append]
    exact (take_succ_suffix_concat h.lt).2 ⟨h_c, h.suffix⟩

/-- The state falls back to its link. -/
theorem fallen (h : Waits w seen k window) (h_chain : chain.Spells w) (h_lt : chain.link k < k) :
    Waits w seen (chain.link k) ((window.take k).drop (k - chain.link k)) where
  lt := Nat.lt_trans h_lt h.lt
  window_eq := by
    have h_length : window.length = k := by
      rw [h.window_eq, List.length_map, List.length_drop]
      exact Nat.sub_sub_self h.le_length
    rw [List.take_of_length_le (Nat.le_of_eq h_length), h.window_eq, ← List.map_drop,
      List.drop_drop]
    have h_le := h.le_length
    rw [show seen.length - k + (k - chain.link k) = seen.length - chain.link k by omega]
  suffix := (h_chain.link_suffix k).trans h.suffix

/-- The last state takes the character, and the word is complete. -/
theorem completes (h : Waits w seen k window) (h_c : w[k]? = some c) (h_last : w.length ≤ k + 1)
    (h_absent : ¬ w <:+: seen.map Prod.fst) (n : Nat) :
    Completes w (seen ++ [(c, here)]) ⟨(window ++ [here]).head?.getD here, here⟩
      ({ comparisons := n } : Scan α) where
  restarted := Tracks.fresh (Nat.lt_of_le_of_lt (Nat.zero_le k) h.lt) n
  occurs := by
    refine ⟨seen.take (seen.length - k), seen.drop (seen.length - k) ++ [(c, here)], ?_, ?_, ?_, ?_⟩
    · rw [← List.append_assoc, List.take_append_drop]
    · have h_take := List.take_succ_eq_append_getElem h.lt
      rw [List.getElem?_eq_getElem h.lt, Option.some.injEq] at h_c
      rw [List.take_of_length_le h_last, h_c] at h_take
      rw [List.map_append, h.part_eq]
      exact h_take.symm
    · rw [h.window_concat (c := c), List.head?_map]
      cases seen.drop (seen.length - k) <;> rfl
    · rw [List.getLast?_concat]
      rfl
  absent := by
    -- without its last character the text is the one read before
    rw [List.dropLast_concat]
    exact h_absent

end Waits

/-- Trying a character in a state, when no longer prefix than that of the state can take it. -/
theorem attempt_tracks (h : chain.Spells w) {seen : List (Char × α)} {c : Char} {here : α}
    {k : Nat} {scan : Scan α} (h_waits : Waits w seen k scan.window)
    (h_stuck : Stuck w (seen.map Prod.fst) c (k + 1)) (h_absent : ¬ w <:+: seen.map Prod.fst) :
    Stepped w (seen ++ [(c, here)]) (scan.attempt chain c here k) := by
  -- links go down, and no prefix between a state and its link ends the text
  induction k using Nat.strongRecOn generalizing scan with
  | ind k ih =>
    have h_seen : (seen ++ [(c, here)]).map Prod.fst = seen.map Prod.fst ++ [c] := List.map_append
    have h_k := h_waits.lt
    rw [Scan.attempt]
    simp only [h.emptyRun_eq, Nat.add_zero, List.replicate_zero, List.append_nil]
    by_cases h_c : w[k]? = some c
    · -- the state takes the character
      rw [if_pos ((h.accepts_iff k c).2 h_c), Scan.take, h.isMany_eq]
      simp only [Bool.false_eq_true, if_false]
      by_cases h_last : k + 1 < chain.size
      · rw [if_pos h_last]
        rw [h.size_eq] at h_last
        have h_next : Waits w (seen ++ [(c, here)]) (k + 1) (scan.window ++ [here]) :=
          h_waits.taken h_c h_last
        refine ⟨rfl, h_next.lt, h_next.window_eq, h_next.suffix, ?_, ?_⟩
        · intro j h_j h_take
          exact h_stuck.le_of_take_suffix h_j (h_seen ▸ h_take)
        · exact h_seen ▸ h_stuck.absent h_last h_absent
      · rw [if_neg h_last]
        rw [h.size_eq] at h_last
        exact h_waits.completes h_c (Nat.le_of_not_lt h_last) h_absent _
    · -- what the link keeps is the next longest prefix that may take it
      rw [if_neg (mt (h.accepts_iff k c).1 h_c)]
      by_cases h_down : chain.link k < k
      · rw [dif_pos h_down]
        exact ih _ h_down (h_waits.fallen h h_down) (.link h h_k h_waits.suffix h_stuck h_c)
      · -- only the root has no link further down; it drops the character
        rw [dif_neg h_down]
        have h_zero : k = 0 := Nat.eq_zero_of_not_pos fun h_pos => h_down (chain.link_lt h_pos)
        subst h_zero
        have h_root : Stuck w (seen.map Prod.fst) c 0 := by
          intro j h_j _ h_take
          rcases Nat.eq_zero_or_pos j with h_eq | h_pos
          · exact h_eq ▸ h_c
          · exact h_stuck j h_j h_pos h_take
        refine ⟨rfl, h_k, ?_, List.nil_suffix, ?_, ?_⟩
        · show [] = ((seen ++ [(c, here)]).drop ((seen ++ [(c, here)]).length - 0)).map Prod.snd
          rw [Nat.sub_zero, List.drop_length, List.map_nil]
        · intro j h_j h_take
          exact h_root.le_of_take_suffix h_j (h_seen ▸ h_take)
        · exact h_seen ▸ h_root.absent h_k h_absent

/-- A step keeps the invariant, or it completes the first occurrence. -/
theorem step_tracks (h : chain.Spells w) {seen : List (Char × α)} {scan : Scan α} {c : Char}
    {here : α} (h_tracks : Tracks w seen scan) :
    Stepped w (seen ++ [(c, here)]) (scan.step chain c here) := by
  obtain ⟨h_taken, h_lt, h_window, h_suffix, h_longest, h_absent⟩ := h_tracks
  rw [Scan.step, if_pos (.inl h_taken)]
  refine attempt_tracks h ⟨h_lt, h_window, h_suffix⟩ ?_ h_absent
  -- the state is the longest prefix alive, so no longer one can take the character
  intro j h_j h_gt h_take
  exact absurd (h_longest j h_j h_take) (Nat.not_le_of_lt h_gt)

/-! ## Whole texts -/

/-- A run picks the occurrences of the word greedily from the left. -/
theorem drain_picked (h : chain.Spells w) {seen : List (Char × α)} {scan : Scan α}
    (h_tracks : Tracks w seen scan) (s : List (Char × α)) :
    Picked w (seen ++ s) (scan.drain chain s).2 := by
  -- what was read since the last match goes with the text still to be read
  induction s generalizing seen scan with
  | nil =>
    refine .none fun before part behind h_occ => h_tracks.absent ?_
    rw [List.append_nil] at h_occ
    exact exists_occurrence_iff.1 ⟨before, part, behind, h_occ⟩
  | cons head s ih =>
    obtain ⟨c, here⟩ := head
    have h_step : Stepped w (seen ++ [(c, here)]) (scan.step chain c here) :=
      step_tracks h h_tracks
    rw [Scan.drain]
    rcases h_result : scan.step chain c here with ⟨next, _ | span⟩
    · rw [h_result] at h_step
      have h_picked := ih (show Tracks w (seen ++ [(c, here)]) next from h_step)
      rw [List.append_assoc] at h_picked
      exact h_picked
    · rw [h_result] at h_step
      obtain ⟨before, part, h_read, h_part, h_span⟩ := h_step.occurs
      have h_split : seen ++ (c, here) :: s = (seen ++ [(c, here)]) ++ s := by simp
      rw [h_split]
      refine .next (Leftmost.of_read ⟨by rw [h_read], h_part⟩ h_step.absent) h_span ?_
      exact ih h_step.restarted

theorem drain_fresh_picked (h : chain.Spells w) (n : Nat) (s : List (Char × α)) :
    Picked w s (({ comparisons := n } : Scan α).drain chain s).2 :=
  drain_picked h (Tracks.fresh h.length_pos n) s

end PagedSearch
