/-
  PagedSearch.Proofs.Scan.Language

  The texts that symbols match, however much each repetition takes. What the
  symbols match read from the other end is matched from the other end
  (`Matches.reverse`). A possessive reading is one way to match a text, so
  where a scan finds something the text contains a match
  (`exists_matches_of_drain`).
-/
import Mathlib.Data.List.TakeWhile
import PagedSearch.Proofs.Scan.Possessive

namespace PagedSearch

/-! ## Matching -/

/-- The texts that one symbol takes: a character that it accepts, or a run of them if it is a
    repetition. -/
def Symbol.Takes (σ : Symbol) (t : Text) : Prop :=
  (∀ c ∈ t, σ.accepts c = true) ∧ (σ.isMany = true ∨ t.length = 1)

/-- The texts that symbols take one behind the other. -/
def Matches : List Symbol → Text → Prop
  | [], t => t = []
  | σ :: symbols, t => ∃ u v, t = u ++ v ∧ σ.Takes u ∧ Matches symbols v

theorem Symbol.Takes.reverse {σ : Symbol} {t : Text} (h : σ.Takes t) : σ.Takes t.reverse where
  left c h_c := h.1 c (List.mem_reverse.1 h_c)
  right := by
    rw [List.length_reverse]
    exact h.2

theorem matches_singleton {σ : Symbol} {t : Text} : Matches [σ] t ↔ σ.Takes t := by
  constructor
  · rintro ⟨u, v, rfl, h_u, rfl⟩
    rw [List.append_nil]
    exact h_u
  · intro h_t
    exact ⟨t, [], (List.append_nil t).symm, h_t, rfl⟩

theorem matches_append {symbols symbols' : List Symbol} {t : Text} :
    Matches (symbols ++ symbols') t ↔
      ∃ u v, t = u ++ v ∧ Matches symbols u ∧ Matches symbols' v := by
  induction symbols generalizing t with
  | nil =>
    constructor
    · intro h_t
      exact ⟨[], t, rfl, rfl, h_t⟩
    · rintro ⟨u, v, rfl, rfl, h_v⟩
      exact h_v
  | cons σ symbols ih =>
    constructor
    · rintro ⟨u, v, rfl, h_u, h_v⟩
      obtain ⟨v, w, rfl, h_v, h_w⟩ := ih.1 h_v
      exact ⟨u ++ v, w, (List.append_assoc u v w).symm, ⟨u, v, rfl, h_u, h_v⟩, h_w⟩
    · rintro ⟨_, w, rfl, ⟨u, v, rfl, h_u, h_v⟩, h_w⟩
      exact ⟨u, v ++ w, List.append_assoc u v w, h_u, ih.2 ⟨v, w, rfl, h_v, h_w⟩⟩

theorem Matches.reverse {symbols : List Symbol} {t : Text} (h : Matches symbols t) :
    Matches symbols.reverse t.reverse := by
  induction symbols generalizing t with
  | nil =>
    obtain rfl : t = [] := h
    exact rfl
  | cons σ symbols ih =>
    obtain ⟨u, v, rfl, h_u, h_v⟩ := h
    rw [List.reverse_cons, List.reverse_append]
    exact matches_append.2 ⟨v.reverse, u.reverse, rfl, ih h_v, matches_singleton.2 h_u.reverse⟩

/-! ## What a scan finds -/

/-- What is read possessively is matched. -/
theorem matches_of_readPossessively {symbols : List Symbol} {t rest : Text}
    (h : readPossessively symbols t = some rest) : ∃ p, t = p ++ rest ∧ Matches symbols p := by
  induction symbols generalizing t with
  | nil =>
    obtain rfl : t = rest := Option.some.inj h
    exact ⟨[], rfl, rfl⟩
  | cons σ symbols ih =>
    by_cases h_many : σ.isMany = true
    · rw [readPossessively_many h_many] at h
      obtain ⟨p, h_p, h_matches⟩ := ih h
      -- the run that the repetition takes stands in front of what the others match
      refine ⟨t.takeWhile σ.accepts ++ p, ?_, _, p, rfl, ⟨?_, .inl h_many⟩, h_matches⟩
      · rw [List.append_assoc, ← h_p, List.takeWhile_append_dropWhile]
      · intro c h_c
        exact List.mem_takeWhile_imp h_c
    · match t with
      | [] =>
        rw [readPossessively_nil h_many] at h
        exact absurd h (by simp)
      | c :: t =>
        rw [readPossessively_single h_many] at h
        by_cases h_c : σ.accepts c = true
        · rw [if_pos h_c] at h
          obtain ⟨p, h_p, h_matches⟩ := ih h
          refine ⟨c :: p, by rw [h_p, List.cons_append], [c], p, rfl, ⟨?_, .inr rfl⟩, h_matches⟩
          intro c' h_c'
          rw [List.mem_singleton.1 h_c']
          exact h_c
        · rw [if_neg h_c] at h
          exact absurd h (by simp)

/-- A text in which a scan finds something contains a text that the symbols match. -/
theorem exists_matches_of_drain {α : Type} {chain : Chain} {s : List (Char × α)}
    (h : (({} : Scan α).drain chain s).2 ≠ []) :
    ∃ w, w <:+: s.map Prod.fst ∧ Matches chain.symbols w := by
  obtain ⟨span, h_span⟩ := List.exists_mem_of_ne_nil _ h
  obtain ⟨before, part, behind, h_split, h_reads, -⟩ :=
    (drain_fresh_found chain 0 s).reads span h_span
  obtain ⟨p, h_p, h_matches⟩ := matches_of_readPossessively h_reads
  rw [List.map_append, List.append_cancel_right_eq] at h_p
  refine ⟨part.map Prod.fst, ⟨before.map Prod.fst, behind.map Prod.fst, ?_⟩, h_p ▸ h_matches⟩
  rw [h_split, List.map_append, List.map_append]

end PagedSearch
