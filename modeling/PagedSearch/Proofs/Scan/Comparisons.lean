/-
  PagedSearch.Proofs.Scan.Comparisons

  What a scan without repetitions costs. One character may be compared to many
  symbols, for the scan may fall back again and again. But each time it falls
  back the partial match gets shorter, and a character prolongs it by one
  symbol at most. So the length of the partial match is a credit: together
  with the comparisons made it grows by two at most with each character
  (`Charged`), and so it does over a run (`advance_charged`).
-/
import PagedSearch.Proofs.Chain.Spelling
import PagedSearch.Proofs.Scan.Possessive

namespace PagedSearch

/-! ## Chains without repetitions -/

/-- Every symbol takes one character. -/
def Chain.Fixed (chain : Chain) : Prop := ∀ σ ∈ chain.symbols, σ.isMany = false

instance (chain : Chain) : Decidable chain.Fixed :=
  inferInstanceAs (Decidable (∀ σ ∈ chain.symbols, _))

namespace Chain.Fixed

variable {chain : Chain}

theorem isMany_eq (h : chain.Fixed) (k : Nat) : chain.isMany k = false := by
  rw [← Bool.not_eq_true, Chain.isMany_iff]
  rintro ⟨σ, h_σ, h_many⟩
  rw [h σ (List.mem_of_getElem? h_σ)] at h_many
  exact absurd h_many (by decide)

/-- Nothing is passed as empty. -/
theorem emptyRun_eq (h : chain.Fixed) (c : Char) (k : Nat) : chain.emptyRun c k = 0 := by
  apply Nat.eq_zero_of_not_pos
  intro h_pos
  have h_many := (Chain.empty_of_lt_emptyRun (Nat.le_refl k) (Nat.lt_add_of_pos_right h_pos)).1
  rw [h.isMany_eq] at h_many
  exact absurd h_many (by decide)

theorem reversed (h : chain.Fixed) : chain.reversed.Fixed :=
  fun σ h_σ => h σ (List.mem_reverse.1 h_σ)

end Chain.Fixed

/-- A word has no repetitions. -/
theorem Chain.Spells.fixed {chain : Chain} {w : Text} (h : chain.Spells w) : chain.Fixed := by
  intro σ h_σ
  rw [h, List.mem_map] at h_σ
  obtain ⟨c, -, rfl⟩ := h_σ
  rfl

/-! ## Comparisons -/

namespace Scan

variable {α : Type} {chain : Chain} {scan next last : Scan α} {c : Char} {here : α} {k n : Nat}

/-- What reading `n` characters costs when the partial match had `k` symbols before: at least one
    comparison for each, and at most two if what is left of the partial match pays for the rest. -/
structure Charged (n k : Nat) (scan next : Scan α) : Prop where
  taken_eq : next.taken = 0
  le_comparisons : scan.comparisons + n ≤ next.comparisons
  comparisons_le : next.comparisons + next.current ≤ scan.comparisons + k + 2 * n

theorem Charged.none (h_taken : scan.taken = 0) : Charged 0 scan.current scan scan :=
  ⟨h_taken, Nat.le_refl _, Nat.le_refl _⟩

theorem Charged.trans {m : Nat} (h : Charged m k scan next)
    (h' : Charged n next.current next last) : Charged (m + n) k scan last where
  taken_eq := h'.taken_eq
  le_comparisons := by
    have h_first := h.le_comparisons
    have h_second := h'.le_comparisons
    omega
  comparisons_le := by
    have h_first := h.comparisons_le
    have h_second := h'.comparisons_le
    omega

/-- Dropping the partial match costs nothing. -/
theorem Charged.restart (h : Charged n k scan next) : Charged n k scan next.restart where
  taken_eq := rfl
  le_comparisons := h.le_comparisons
  comparisons_le := Nat.le_trans (Nat.le_add_right _ _) h.comparisons_le

/-- Taking a character prolongs the partial match by one symbol or completes it. -/
theorem take_fixed (h : chain.Fixed) (here : α) (k : Nat) (scan : Scan α) :
    (scan.take chain here k).1.taken = 0 ∧
      (scan.take chain here k).1.comparisons = scan.comparisons ∧
      (scan.take chain here k).1.current ≤ k + 1 := by
  have h_single : ¬ chain.isMany k = true := by
    rw [h.isMany_eq]
    decide
  rw [Scan.take, if_neg h_single]
  by_cases h_more : k + 1 < chain.size
  · rw [if_pos h_more]
    exact ⟨rfl, rfl, Nat.le_refl _⟩
  · rw [if_neg h_more]
    exact ⟨rfl, rfl, Nat.zero_le _⟩

/-- Each comparison but the last one shortens the partial match. -/
theorem attempt_charged (h : chain.Fixed) (c : Char) (here : α) (k : Nat) (scan : Scan α) :
    Charged 1 k scan (scan.attempt chain c here k).1 := by
  induction k using Nat.strongRecOn generalizing scan with
  | ind k ih =>
    rw [Scan.attempt]
    simp only [h.emptyRun_eq, Nat.add_zero]
    by_cases h_c : chain.accepts k c = true
    · simp only [if_pos h_c]
      obtain ⟨h_taken, h_comparisons, h_current⟩ := take_fixed h here k
        { scan with
          window := scan.window ++ List.replicate 0 here
          comparisons := scan.comparisons + 1 }
      refine ⟨h_taken, Nat.le_of_eq h_comparisons.symm, ?_⟩
      simp only at h_comparisons
      omega
    · simp only [if_neg h_c]
      by_cases h_down : chain.link k < k
      · -- the comparison that failed is paid by the symbols that are given up
        simp only [dif_pos h_down]
        obtain ⟨h_taken, h_ge, h_le⟩ := ih (chain.link k) h_down (fallBack chain k { scan with
          window := scan.window ++ List.replicate 0 here
          comparisons := scan.comparisons + 1 })
        refine ⟨h_taken, Nat.le_of_succ_le h_ge, Nat.le_trans h_le ?_⟩
        show scan.comparisons + 1 + chain.link k + 2 * 1 ≤ scan.comparisons + k + 2 * 1
        omega
      · -- at the root the character is dropped
        simp only [dif_neg h_down]
        refine ⟨rfl, Nat.le_refl _, ?_⟩
        show scan.comparisons + 1 + 0 ≤ scan.comparisons + k + 2 * 1
        omega

theorem step_charged (h : chain.Fixed) (h_taken : scan.taken = 0) (c : Char) (here : α) :
    Charged 1 scan.current scan (scan.step chain c here).1 := by
  rw [Scan.step, if_pos (.inl h_taken)]
  exact attempt_charged h c here scan.current scan

/-- Reading up to the next match costs by the characters that were read. -/
theorem advance_charged (h : chain.Fixed) (h_taken : scan.taken = 0) (t : List (Char × α)) :
    ∃ n, t.length = n + (scan.advance chain t).2.2.length ∧
      Charged n scan.current scan (scan.advance chain t).1 := by
  induction t generalizing scan with
  | nil => exact ⟨0, rfl, .none h_taken⟩
  | cons head t ih =>
    obtain ⟨c, here⟩ := head
    have h_step := step_charged h h_taken c here
    rw [Scan.advance]
    rcases h_result : scan.step chain c here with ⟨next, _ | span⟩
    · rw [h_result] at h_step
      obtain ⟨n, h_length, h_rest⟩ := @ih next h_step.taken_eq
      refine ⟨1 + n, ?_, h_step.trans h_rest⟩
      show t.length + 1 = 1 + n + (next.advance chain t).2.2.length
      omega
    · rw [h_result] at h_step
      refine ⟨1, ?_, h_step⟩
      rw [List.length_cons, Nat.add_comm]

end Scan

end PagedSearch
