/-
  PagedSearch.Proofs.Scan.Alive

  What of a text may still become an occurrence of a word. The text read has
  ends that the word begins with; the longest of them is the part alive, and the
  window of a scan holds its places (`Tracks.alive`). Reading up to the next
  match keeps the scan so, and a match ends with the last character that was
  read (`advance_tracks`).
-/
import PagedSearch.Proofs.Scan.Literal

namespace PagedSearch

variable {α : Type} {chain : Chain} {w : Text}

/-! ## The longest part alive -/

/-- The text read ends with this part, the word begins with it, and no longer part is such. -/
structure Alive (w : Text) (seen part : List (Char × α)) : Prop where
  suffix : part <:+ seen
  begins : part.map Prod.fst <+: w
  longest : ∀ other, other <:+ seen → other.map Prod.fst <+: w → other.length ≤ part.length

/-- Nothing read leaves nothing alive. -/
theorem Alive.nil (w : Text) : Alive w ([] : List (Char × α)) [] where
  suffix := List.nil_suffix
  begins := List.nil_prefix
  longest _ h_other _ := h_other.length_le

/-- The window of a scan holds the places of the longest part alive. -/
theorem Tracks.alive {seen : List (Char × α)} {scan : Scan α} (h : Tracks w seen scan) :
    ∃ part, Alive w seen part ∧ scan.window = part.map Prod.snd := by
  have h_waits : Waits w seen scan.current scan.window := ⟨h.current_lt, h.window_eq, h.suffix⟩
  refine ⟨seen.drop (seen.length - scan.current), ⟨List.drop_suffix _ _, ?_, ?_⟩, h.window_eq⟩
  · rw [h_waits.part_eq]
    exact List.take_prefix _ _
  · intro other h_suffix h_begins
    have h_take : other.map Prod.fst = w.take other.length := by
      have h_eq := List.prefix_iff_eq_take.1 h_begins
      rwa [List.length_map] at h_eq
    have h_ends : w.take other.length <:+ seen.map Prod.fst := h_take ▸ h_suffix.map Prod.fst
    have h_le := h_waits.le_length
    rw [List.length_drop, Nat.sub_sub_self h_le]
    -- a part as long as the word would be an occurrence
    rcases Nat.lt_or_ge other.length w.length with h_lt | h_ge
    · exact h.longest _ h_lt h_ends
    · rw [List.take_of_length_le h_ge] at h_ends
      exact absurd h_ends.isInfix h.absent

/-! ## Up to the next match -/

/-- What a text ends with does not depend on what stands in front of it. -/
theorem getLast?_append_map {s t : List (Char × α)} {place : α}
    (h : t.getLast?.map Prod.snd = some place) : (s ++ t).getLast?.map Prod.snd = some place := by
  obtain ⟨x, h_x, h_place⟩ := Option.map_eq_some_iff.1 h
  rw [List.getLast?_append, h_x, Option.some_or, Option.map_some, h_place]

theorem Completes.last_eq {seen : List (Char × α)} {span : Span α} {next : Scan α}
    (h : Completes w seen span next) : seen.getLast?.map Prod.snd = some span.last := by
  obtain ⟨before, part, rfl, -, h_span⟩ := h.occurs
  exact getLast?_append_map h_span.last_eq

/-- What reading on may come to: all is read without a match, or what is read ends with one. -/
def Advanced (w : Text) (seen t : List (Char × α)) :
    Scan α × Option (Span α) × List (Char × α) → Prop
  | (next, none, rest) => rest = [] ∧ Tracks w (seen ++ t) next
  | (next, some span, rest) => Tracks w [] next ∧
      ∃ read, t = read ++ rest ∧ (seen ++ read).getLast?.map Prod.snd = some span.last

/-- Reading on keeps the invariant, whether or not it comes to a match. -/
theorem advance_tracks (h : chain.Spells w) {seen : List (Char × α)} {scan : Scan α}
    (h_tracks : Tracks w seen scan) (t : List (Char × α)) :
    Advanced w seen t (scan.advance chain t) := by
  induction t generalizing seen scan with
  | nil =>
    refine ⟨rfl, ?_⟩
    rw [List.append_nil]
    exact h_tracks
  | cons head t ih =>
    obtain ⟨c, here⟩ := head
    have h_step : Stepped w (seen ++ [(c, here)]) (scan.step chain c here) :=
      step_tracks h h_tracks
    rw [Scan.advance]
    rcases h_result : scan.step chain c here with ⟨next, _ | span⟩
    · rw [h_result] at h_step
      have h_rest := ih (show Tracks w (seen ++ [(c, here)]) next from h_step)
      -- the character just read goes in front of what is read from here on
      show Advanced w seen ((c, here) :: t) (next.advance chain t)
      rcases h_advance : next.advance chain t with ⟨last, _ | span, rest⟩
      · rw [h_advance] at h_rest
        obtain ⟨h_nil, h_last⟩ := h_rest
        rw [List.append_assoc] at h_last
        exact ⟨h_nil, h_last⟩
      · rw [h_advance] at h_rest
        obtain ⟨h_last, read, rfl, h_span⟩ := h_rest
        rw [List.append_assoc] at h_span
        exact ⟨h_last, (c, here) :: read, rfl, h_span⟩
    · rw [h_result] at h_step
      exact ⟨h_step.restarted, [(c, here)], rfl, h_step.last_eq⟩

end PagedSearch
