/-
  PagedSearch.Proofs.Scan.Resumption

  Neither the places of the characters nor the count of comparisons matter
  to a scan: moved places and a greater count come out as they went in
  (`drain_moved`). And a scan that has found a match starts anew: what it
  finds behind the match is what a fresh scan finds there (`drain_split`).
-/
import PagedSearch.Scan

namespace PagedSearch

variable {α β : Type} {chain : Chain}

/-- A span with its places moved. -/
def Span.map (f : α → β) (span : Span α) : Span β := ⟨f span.first, f span.last⟩

namespace Scan

/-! ## Places and counts -/

/-- A scan with its places moved, and `n` comparisons more. -/
def moved (f : α → β) (n : Nat) (scan : Scan α) : Scan β where
  current := scan.current
  window := scan.window.map f
  taken := scan.taken
  comparisons := scan.comparisons + n

/-- The result of a step with its places moved. -/
def movedResult (f : α → β) (n : Nat) (result : Scan α × Option (Span α)) :
    Scan β × Option (Span β) :=
  (result.1.moved f n, result.2.map (Span.map f))

theorem fallBack_moved (f : α → β) (n k : Nat) (scan : Scan α) :
    (scan.moved f n).fallBack chain k = (scan.fallBack chain k).moved f n := by
  simp only [fallBack, moved, List.map_drop, List.map_take]

theorem take_moved (f : α → β) (n : Nat) (here : α) (k : Nat) (scan : Scan α) :
    (scan.moved f n).take chain (f here) k = movedResult f n (scan.take chain here k) := by
  have h_window : (scan.moved f n).window ++ [f here] = (scan.window ++ [here]).map f := by
    rw [List.map_append]
    rfl
  rw [Scan.take, Scan.take, h_window]
  by_cases h_many : chain.isMany k = true
  · rw [if_pos h_many, if_pos h_many]
    rfl
  · rw [if_neg h_many, if_neg h_many]
    by_cases h_last : k + 1 < chain.size
    · simp only [if_pos h_last]
      rfl
    · simp only [if_neg h_last, List.head?_map]
      cases (scan.window ++ [here]).head? with
      | none => rfl
      | some first => rfl

theorem attempt_moved (f : α → β) (n : Nat) (c : Char) (here : α) (k : Nat) (scan : Scan α) :
    (scan.moved f n).attempt chain c (f here) k =
      movedResult f n (scan.attempt chain c here k) := by
  induction k using Nat.strongRecOn generalizing scan with
  | ind k ih =>
    rw [Scan.attempt.eq_def chain c (f here) k (scan.moved f n),
      Scan.attempt.eq_def chain c here k scan]
    -- the comparisons of this round are counted before or after the `n` others
    have h_passed : ({ scan.moved f n with
        window := (scan.moved f n).window ++ List.replicate (chain.emptyRun c k) (f here)
        comparisons := (scan.moved f n).comparisons + chain.emptyRun c k + 1 } : Scan β) =
        ({ scan with
          window := scan.window ++ List.replicate (chain.emptyRun c k) here
          comparisons := scan.comparisons + chain.emptyRun c k + 1 } : Scan α).moved f n := by
      simp only [moved, Scan.mk.injEq, true_and, List.map_append, List.map_replicate]
      omega
    simp only [h_passed]
    by_cases h_c : chain.accepts (k + chain.emptyRun c k) c = true
    · simp only [if_pos h_c]
      exact take_moved f n here _ _
    · simp only [if_neg h_c]
      by_cases h_down : chain.link k < k
      · simp only [dif_pos h_down]
        rw [fallBack_moved]
        exact ih _ h_down _
      · simp only [dif_neg h_down]
        rfl

theorem step_moved (f : α → β) (n : Nat) (c : Char) (here : α) (scan : Scan α) :
    (scan.moved f n).step chain c (f here) = movedResult f n (scan.step chain c here) := by
  rw [Scan.step, Scan.step]
  by_cases h_tries : scan.taken = 0 ∨ chain.accepts scan.current c = true
  · rw [if_pos h_tries, if_pos (show (scan.moved f n).taken = 0 ∨
      chain.accepts (scan.moved f n).current c = true from h_tries)]
    exact attempt_moved f n c here _ scan
  · rw [if_neg h_tries, if_neg (show ¬ ((scan.moved f n).taken = 0 ∨
      chain.accepts (scan.moved f n).current c = true) from h_tries), ← attempt_moved]
    simp only [moved, List.map_append, List.map_cons, List.map_nil]
    rw [show scan.comparisons + n + 1 = scan.comparisons + 1 + n by omega]

/-- Moved places are found as they were read. -/
theorem drain_moved (f : α → β) (n : Nat) (scan : Scan α) (t : List (Char × α)) :
    (scan.moved f n).drain chain (t.map fun x => (x.1, f x.2)) =
      ((scan.drain chain t).1.moved f n, (scan.drain chain t).2.map (Span.map f)) := by
  induction t generalizing scan with
  | nil => rfl
  | cons head t ih =>
    obtain ⟨c, here⟩ := head
    rw [List.map_cons, Scan.drain, Scan.drain, step_moved, movedResult]
    simp only [ih, List.map_append]
    cases (scan.step chain c here).2 with
    | none => rfl
    | some span => rfl

/-- A fresh scan of moved places finds the moved spans. -/
theorem drain_fresh_moved (f : α → β) (t : List (Char × α)) :
    (({} : Scan β).drain chain (t.map fun x => (x.1, f x.2))).2 =
      (({} : Scan α).drain chain t).2.map (Span.map f) :=
  congrArg Prod.snd (drain_moved f 0 {} t)

/-- A scan without a partial match finds what a fresh one finds. -/
theorem drain_restarted (n : Nat) (t : List (Char × α)) :
    (({ comparisons := n } : Scan α).drain chain t).2 = (({} : Scan α).drain chain t).2 := by
  have h_fresh : ({ comparisons := n } : Scan α) = ({} : Scan α).moved id n := by
    rw [moved, Nat.zero_add]
    rfl
  have h_text : t.map (fun x => (x.1, id x.2)) = t := List.map_id t
  have h_spans := congrArg Prod.snd (@drain_moved α α chain id n {} t)
  rw [h_text, ← h_fresh] at h_spans
  rw [h_spans]
  exact List.map_id _

/-! ## Behind a match -/

/-- The result of a step: a match ends at the character that was read, and the scan that has
    found it starts anew. -/
def EndsAt (here : α) : Scan α × Option (Span α) → Prop
  | (_, none) => True
  | (next, some span) => span.last = here ∧ ∃ n, next = { comparisons := n }

theorem take_endsAt (here : α) (k : Nat) (scan : Scan α) :
    EndsAt here (scan.take chain here k) := by
  rw [Scan.take]
  by_cases h_many : chain.isMany k = true
  · rw [if_pos h_many]
    trivial
  · rw [if_neg h_many]
    by_cases h_last : k + 1 < chain.size
    · simp only [if_pos h_last]
      trivial
    · simp only [if_neg h_last]
      exact ⟨rfl, scan.comparisons, rfl⟩

theorem attempt_endsAt (c : Char) (here : α) (k : Nat) (scan : Scan α) :
    EndsAt here (scan.attempt chain c here k) := by
  induction k using Nat.strongRecOn generalizing scan with
  | ind k ih =>
    rw [Scan.attempt]
    by_cases h_c : chain.accepts (k + chain.emptyRun c k) c = true
    · simp only [if_pos h_c]
      exact take_endsAt here _ _
    · simp only [if_neg h_c]
      by_cases h_down : chain.link k < k
      · simp only [dif_pos h_down]
        exact ih _ h_down _
      · simp only [dif_neg h_down]
        trivial

theorem step_endsAt (c : Char) (here : α) (scan : Scan α) :
    EndsAt here (scan.step chain c here) := by
  rw [Scan.step]
  split
  · exact attempt_endsAt c here _ _
  · exact attempt_endsAt c here _ _

/-- What a run finds behind a match is what a fresh scan finds behind the match's last
    character. -/
theorem drain_split {scan : Scan α} {t : List (Char × α)} {found more : List (Span α)}
    {span : Span α} (h : (scan.drain chain t).2 = found ++ span :: more) :
    ∃ read c rest, t = read ++ (c, span.last) :: rest ∧
      more = (({} : Scan α).drain chain rest).2 := by
  induction t generalizing scan found with
  | nil =>
    rw [drain_nil] at h
    exact absurd h (by simp)
  | cons head t ih =>
    obtain ⟨c, here⟩ := head
    have h_ends : EndsAt here (scan.step chain c here) := step_endsAt c here scan
    rw [Scan.drain] at h
    rcases h_step : scan.step chain c here with ⟨next, _ | other⟩
    · rw [h_step] at h
      obtain ⟨read, c', rest, h_t, h_more⟩ := @ih next found h
      exact ⟨(c, here) :: read, c', rest, by rw [h_t]; rfl, h_more⟩
    · rw [h_step] at h h_ends
      obtain ⟨h_last, n, h_next⟩ := h_ends
      rcases List.cons_eq_append_iff.1 h with ⟨-, h_here⟩ | ⟨found', -, h_behind⟩
      · -- the match ends here
        obtain ⟨h_span, h_more⟩ := List.cons.inj h_here
        refine ⟨[], c, t, by rw [h_span, h_last]; rfl, ?_⟩
        rw [h_more]
        exact h_next ▸ drain_restarted n t
      · -- the match ends further on
        obtain ⟨read, c', rest, h_t, h_more⟩ := @ih next found' h_behind
        exact ⟨(c, here) :: read, c', rest, by rw [h_t]; rfl, h_more⟩

end Scan

end PagedSearch
