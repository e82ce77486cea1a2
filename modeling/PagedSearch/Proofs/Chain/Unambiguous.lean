/-
  PagedSearch.Proofs.Chain.Unambiguous

  Chains in which it does not matter that repetitions take all they can and
  that links know of covering only. Where two symbols of such a chain share a
  character, no repetition stands at or between them, and the first one covers
  the second. Then every border whose symbols share characters is one that
  covers, so none is longer than the link (`Unambiguous.le_link`).
-/
import PagedSearch.Proofs.Chain.Link

namespace PagedSearch

/-! ## Shared characters -/

/-- Both symbols take some character. -/
def Symbol.Shares (σ τ : Symbol) : Prop := ∃ c, σ.accepts c = true ∧ τ.accepts c = true

namespace Ends

variable {symbols : List Symbol} {i j k : Nat}

/-- Without its last symbol a border ends what stands in front of the last symbol. -/
theorem of_succ {R : Symbol → Symbol → Prop} (h : Ends R symbols (j + 1) (k + 1)) :
    Ends R symbols j k ∧ ∃ σ τ, symbols[j]? = some σ ∧ symbols[k]? = some τ ∧ R σ τ := by
  obtain ⟨h_le, h⟩ := h
  refine ⟨⟨Nat.le_of_succ_le_succ h_le, ?_⟩, ?_⟩
  · intro a h_a
    have h_at := h a (by omega)
    rw [show k + 1 - (j + 1) + a = k - j + a by omega] at h_at
    exact h_at
  · have h_last := h j (Nat.lt_succ_self j)
    rw [show k + 1 - (j + 1) + j = k by omega] at h_last
    exact h_last

/-- Of two borders that share characters with the same symbols, the longer one ends with the
    shorter one if it takes all that these symbols take. -/
theorem of_subsumes (h_ik : Ends Symbol.Shares symbols i k)
    (h_jk : Ends Symbol.Subsumes symbols j k) (h_ij : i ≤ j) :
    Ends Symbol.Shares symbols i j := by
  obtain ⟨-, h_ik⟩ := h_ik
  obtain ⟨h_j, h_jk⟩ := h_jk
  refine ⟨h_ij, ?_⟩
  intro a h_a
  obtain ⟨ρ, τ, h_ρ, h_τ, c, h_ρ_c, h_τ_c⟩ := h_ik a h_a
  -- the longer border faces the same symbol
  obtain ⟨σ, τ', h_σ, h_τ', h_στ⟩ := h_jk (j - i + a) (by omega)
  rw [show k - j + (j - i + a) = k - i + a by omega, h_τ, Option.some.injEq] at h_τ'
  subst h_τ'
  exact ⟨ρ, σ, h_ρ, h_σ, c, h_ρ_c, h_στ.accepts_of c h_τ_c⟩

end Ends

/-- Climbing down from `k` does not pass a border `j` that is prolonged, if `P` holds of `k` and
    the link of each longer border with `P` has `P` again and is not shorter than `j`. -/
theorem le_linkBehind {symbols : List Symbol} {links : List Nat} {τ : Symbol} {j k : Nat}
    {P : Nat → Prop}
    (h_down : ∀ i, j < i → P i → links.getD i 0 < i ∧ j ≤ links.getD i 0 ∧ P (links.getD i 0))
    (h_covers : symbols[j]?.any (·.covers τ) = true) (h_jk : j ≤ k) (h_k : P k) :
    j + 1 ≤ linkBehind symbols links τ k := by
  induction k using Nat.strongRecOn with
  | ind k ih =>
    rw [linkBehind]
    by_cases h : symbols[k]?.any (·.covers τ) = true
    · rw [if_pos h]
      omega
    · -- border `k` is not prolonged, so the one that is is shorter
      rw [if_neg h]
      have h_ne : j ≠ k := fun h_eq => h (h_eq ▸ h_covers)
      obtain ⟨h_lt, h_le, h_link⟩ := h_down k (by omega) h_k
      rw [dif_pos h_lt]
      exact ih _ h_lt h_le h_link

namespace Chain

/-- Where two symbols share a character, no repetition stands from the one to the other, and the
    first covers the second. The last symbol need not be covered: nothing falls back behind it. -/
def Unambiguous (chain : Chain) : Prop :=
  ∀ i j σ τ, i < j → chain.symbols[i]? = some σ → chain.symbols[j]? = some τ → σ.Shares τ →
    (∀ k, i ≤ k → k ≤ j → chain.isMany k = false) ∧ (j + 1 < chain.size → σ.covers τ = true)

/-- Unambiguous from either end. -/
structure Reversible (chain : Chain) : Prop where
  forward : chain.Unambiguous
  backward : chain.reversed.Unambiguous

theorem isMany_eq {chain : Chain} {k : Nat} {σ : Symbol} (h_σ : chain.symbols[k]? = some σ) :
    chain.isMany k = σ.isMany := by
  rw [isMany, h_σ]
  rfl

namespace Unambiguous

variable {chain : Chain}

/-- Where two symbols take the same character, there is no repetition from one to the other. -/
theorem single (h : chain.Unambiguous) {i j k : Nat} {c : Char} (h_ij : i < j)
    (h_i : chain.accepts i c = true) (h_j : chain.accepts j c = true) (h_ik : i ≤ k)
    (h_kj : k ≤ j) : chain.isMany k = false := by
  rw [accepts, Option.any_eq_true] at h_i h_j
  obtain ⟨σ, h_σ, h_σ_c⟩ := h_i
  obtain ⟨τ, h_τ, h_τ_c⟩ := h_j
  exact (h i j σ τ h_ij h_σ h_τ ⟨c, h_σ_c, h_τ_c⟩).1 k h_ik h_kj

/-- No border whose symbols share characters is longer than the link. -/
theorem le_link (h : chain.Unambiguous) {j k : Nat} (h_k : k < chain.size) (h_jk : j < k)
    (h_ends : Ends Symbol.Shares chain.symbols j k) : j ≤ chain.link k := by
  induction k using Nat.strongRecOn generalizing j with
  | ind k ih =>
    match k, j with
    | _, 0 => exact Nat.zero_le _
    | k + 1, j + 1 =>
      -- without its last symbol it is a border of the state before, where links are longest
      obtain ⟨h_front, σ, τ, h_σ, h_τ, h_shares⟩ := h_ends.of_succ
      have h_covers := (h j k σ τ (by omega) h_σ h_τ h_shares).2 h_k
      have h_down := chain.link_lt (k := k) (by omega)
      have h_le := ih k (by omega) (by omega) (by omega) h_front
      rw [chain.link_succ (by omega) h_k h_τ]
      -- every border on the way down ends with it too
      refine le_linkBehind (P := fun i => i ≤ k ∧ Ends Symbol.Shares chain.symbols j i) ?_ ?_
        h_le ⟨by omega, h_front.of_subsumes (chain.ends_link_subsumes k) h_le⟩
      · rintro i h_ji ⟨h_i, h_ends⟩
        have h_le := ih i (by omega) (by omega) h_ji h_ends
        have h_lt := chain.link_lt (k := i) (by omega)
        exact ⟨h_lt, h_le, Nat.le_trans (Nat.le_of_lt h_lt) h_i,
          h_ends.of_subsumes (chain.ends_link_subsumes i) h_le⟩
      · rw [h_σ, Option.any_some]
        exact h_covers

end Unambiguous

end Chain

end PagedSearch
