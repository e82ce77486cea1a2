/-
  PagedSearch.Proofs.Chain.Link

  The links of a chain as borders. `Ends R symbols j k` says that the first
  `j` symbols stand in relation `R`, one by one, to the last `j` of the first
  `k` symbols. Every link is a border in this sense for each transitive `R`
  that covering implies (`ends_link`); so a partial match that falls back
  stays a partial match.

  The links are computed from one another: the link of a state comes from
  climbing down from the link of the state before (`link_succ`), and climbing
  reads finished links only (`linkBehind_congr`).
-/
import PagedSearch.Chain
import PagedSearch.Proofs.Chain.Covering

namespace PagedSearch

/-! ## The links that were appended -/

/-- Climbing reads no links but those up to where it starts. -/
theorem linkBehind_congr {symbols : List Symbol} {links links' : List Nat} {σ : Symbol} {k : Nat}
    (h : ∀ j ≤ k, links.getD j 0 = links'.getD j 0) :
    linkBehind symbols links σ k = linkBehind symbols links' σ k := by
  induction k using Nat.strongRecOn with
  | ind k ih =>
    rw [linkBehind.eq_def, linkBehind.eq_def symbols links' σ k, h k (Nat.le_refl k)]
    by_cases h_covers : symbols[k]?.any (·.covers σ) = true
    · rw [if_pos h_covers, if_pos h_covers]
    · rw [if_neg h_covers, if_neg h_covers]
      by_cases h_lt : links'.getD k 0 < k
      · rw [dif_pos h_lt, dif_pos h_lt]
        exact ih _ h_lt fun j h_j => h j (by omega)
      · rw [dif_neg h_lt, dif_neg h_lt]

/-- Appending leaves the links that are there. -/
theorem appendLinks_getD_of_lt {symbols rest : List Symbol} {links : List Nat} {j : Nat}
    (h_j : j < links.length) :
    (appendLinks symbols rest links).getD j 0 = links.getD j 0 := by
  induction rest generalizing links with
  | nil => rfl
  | cons σ rest ih =>
    rw [appendLinks, ih (by rw [List.length_append]; omega)]
    simp only [List.getD_eq_getElem?_getD]
    rw [List.getElem?_append_left h_j]

/-- An entry that is no greater than its index may be appended. -/
theorem getD_concat_le {links : List Nat} {x : Nat} (h_le : ∀ k, links.getD k 0 ≤ k)
    (h_x : x ≤ links.length) (k : Nat) : (links ++ [x]).getD k 0 ≤ k := by
  rcases Nat.lt_trichotomy k links.length with h | h | h
  · have h_old := h_le k
    rw [List.getD_eq_getElem?_getD, List.getElem?_append_left h, ← List.getD_eq_getElem?_getD]
    exact h_old
  · rw [List.getD_eq_getElem?_getD, h, List.getElem?_append_right (Nat.le_refl _), Nat.sub_self,
      List.getElem?_cons_zero, Option.getD_some]
    exact h_x
  · have h_length : (links ++ [x]).length ≤ k := by
      rw [List.length_append, List.length_singleton]
      omega
    rw [List.getD_eq_getElem?_getD, List.getElem?_eq_none h_length]
    exact Nat.zero_le k

/-- Each appended link is climbed to from the link before it, along the finished links. -/
theorem appendLinks_getD_add {symbols rest : List Symbol} {links : List Nat} {i : Nat} {σ : Symbol}
    (h_len : 0 < links.length) (h_lt : ∀ k, links.getD k 0 ≤ k) (h_σ : rest[i]? = some σ) :
    (appendLinks symbols rest links).getD (links.length + i) 0 =
      linkBehind symbols (appendLinks symbols rest links) σ
        ((appendLinks symbols rest links).getD (links.length + i - 1) 0) := by
  induction rest generalizing links i with
  | nil => simp at h_σ
  | cons τ rest ih =>
    rw [appendLinks]
    have h_last : links.getLastD 0 = links.getD (links.length - 1) 0 := by
      rw [List.getLastD_eq_getLast?, List.getLast?_eq_getElem?, List.getD_eq_getElem?_getD]
    cases i with
    | zero =>
      -- the link that is appended now: what it read is still in place at the end
      have h_τ : τ = σ := by simpa using h_σ
      rw [Nat.add_zero, appendLinks_getD_of_lt (by simp),
        appendLinks_getD_of_lt (by simp only [List.length_append, List.length_singleton]; omega)]
      simp only [List.getD_eq_getElem?_getD]
      rw [List.getElem?_append_right (Nat.le_refl _), Nat.sub_self,
        List.getElem?_append_left (by omega), List.getElem?_cons_zero, Option.getD_some, h_τ]
      rw [← List.getD_eq_getElem?_getD, ← h_last]
      have h_le : links.getLastD 0 ≤ links.length - 1 := h_last ▸ h_lt _
      apply linkBehind_congr
      intro j h_j
      rw [appendLinks_getD_of_lt (by rw [List.length_append]; omega)]
      simp only [List.getD_eq_getElem?_getD]
      rw [List.getElem?_append_left (by omega)]
    | succ i =>
      -- a later link: the link that is appended now is one of those it may read
      have h_len' : (links ++ [linkBehind symbols links τ (links.getLastD 0)]).length =
          links.length + 1 := by simp
      have h_climb := linkBehind_le symbols links τ (links.getLastD 0)
      have h_last_le : links.getLastD 0 ≤ links.length - 1 := h_last ▸ h_lt _
      have h_next := @ih (links ++ [linkBehind symbols links τ (links.getLastD 0)]) i
        (by omega) (getD_concat_le h_lt (by omega)) (by simpa using h_σ)
      rw [h_len'] at h_next
      rw [show links.length + (i + 1) = links.length + 1 + i by omega]
      exact h_next

/-! ## The links of a chain -/

namespace Chain

@[simp] theorem link_zero (chain : Chain) : chain.link 0 = 0 := by
  rw [link, chain.links_eq]
  unfold linksOf
  split
  · rfl
  · rfl
  · rw [appendLinks_getD_of_lt (by simp)]
    rfl

@[simp] theorem link_one (chain : Chain) : chain.link 1 = 0 := by
  have h := chain.link_lt (k := 1) Nat.one_pos
  omega

/-- The link of a state that is not the last one comes from the link of the state before. -/
theorem link_succ (chain : Chain) {k : Nat} {σ : Symbol} (h_pos : 0 < k)
    (h_lt : k + 1 < chain.size) (h_σ : chain.symbols[k]? = some σ) :
    chain.link (k + 1) = linkBehind chain.symbols chain.links σ (chain.link k) := by
  unfold link
  have h_links := chain.links_eq
  unfold linksOf at h_links
  split at h_links
  · rename_i h_nil
    simp [h_nil] at h_σ
  · rename_i h_one
    simp [size, h_one] at h_lt
  · -- two links are there from the start, so link `i + 2` is the `i`-th one appended
    rename_i first rest h_rest h_symbols
    rw [size, h_symbols, List.length_cons] at h_lt
    rw [h_symbols] at h_σ
    obtain ⟨i, rfl⟩ : ∃ i, k = i + 1 := ⟨k - 1, by omega⟩
    rw [h_links, h_symbols]
    have h_σ' : rest.dropLast[i]? = some σ := by
      rw [List.getElem?_dropLast, if_pos (by omega)]
      simpa using h_σ
    have h_add := @appendLinks_getD_add (first :: rest) rest.dropLast [0, 0] i σ (by simp)
      (fun j => by rcases j with _ | _ | j <;> simp) h_σ'
    rw [show [0, 0].length + i = i + 1 + 1 from Nat.add_comm 2 i] at h_add
    exact h_add

end Chain

/-! ## Borders -/

/-- The first `j` symbols stand in relation `R` to the last `j` of the first `k`. -/
def Ends (R : Symbol → Symbol → Prop) (symbols : List Symbol) (j k : Nat) : Prop :=
  j ≤ k ∧ ∀ i < j, ∃ σ τ, symbols[i]? = some σ ∧ symbols[k - j + i]? = some τ ∧ R σ τ

namespace Ends

variable {R : Symbol → Symbol → Prop} {symbols : List Symbol} {i j k : Nat}

theorem zero (k : Nat) : Ends R symbols 0 k :=
  ⟨Nat.zero_le k, fun _ h => absurd h (Nat.not_lt_zero _)⟩

theorem trans (h_R : ∀ ρ σ τ, R ρ σ → R σ τ → R ρ τ) (h_ij : Ends R symbols i j)
    (h_jk : Ends R symbols j k) : Ends R symbols i k := by
  obtain ⟨h_i, h_ij⟩ := h_ij
  obtain ⟨h_j, h_jk⟩ := h_jk
  refine ⟨Nat.le_trans h_i h_j, ?_⟩
  intro a h_a
  -- symbol `a` of the short border faces symbol `j - i + a` of the long one
  obtain ⟨ρ, σ, h_ρ, h_σ, h_ρσ⟩ := h_ij a h_a
  obtain ⟨σ', τ, h_σ', h_τ, h_στ⟩ := h_jk (j - i + a) (by omega)
  rw [h_σ, Option.some.injEq] at h_σ'
  subst h_σ'
  rw [show k - j + (j - i + a) = k - i + a by omega] at h_τ
  exact ⟨ρ, τ, h_ρ, h_τ, h_R ρ σ τ h_ρσ h_στ⟩

/-- A border grows by one symbol on both sides. -/
theorem snoc {σ τ : Symbol} (h : Ends R symbols j k) (h_σ : symbols[j]? = some σ)
    (h_τ : symbols[k]? = some τ) (h_στ : R σ τ) : Ends R symbols (j + 1) (k + 1) := by
  obtain ⟨h_le, h⟩ := h
  refine ⟨Nat.succ_le_succ h_le, ?_⟩
  intro a h_a
  rcases Nat.lt_or_eq_of_le (Nat.le_of_lt_succ h_a) with h_lt | h_eq
  · rw [show k + 1 - (j + 1) + a = k - j + a by omega]
    exact h a h_lt
  · subst h_eq
    rw [show k + 1 - (a + 1) + a = k by omega]
    exact ⟨σ, τ, h_σ, h_τ, h_στ⟩

end Ends

/-- What climbing arrives at is a border, if it starts at one and every link is one. -/
theorem ends_linkBehind {R : Symbol → Symbol → Prop} {symbols : List Symbol} {links : List Nat}
    {τ : Symbol} {j k : Nat} (h_R : ∀ ρ σ τ, R ρ σ → R σ τ → R ρ τ)
    (h_covers : ∀ σ ∈ symbols, σ.covers τ = true → R σ τ) (h_τ : symbols[k]? = some τ)
    (h_links : ∀ i ≤ j, Ends R symbols (links.getD i 0) i) (h_j : Ends R symbols j k) :
    Ends R symbols (linkBehind symbols links τ j) (k + 1) := by
  induction j using Nat.strongRecOn with
  | ind j ih =>
    rw [linkBehind]
    by_cases h : symbols[j]?.any (·.covers τ) = true
    · rw [if_pos h]
      obtain ⟨σ, h_σ, h_σ_covers⟩ := (Option.any_eq_true _ _).1 h
      exact h_j.snoc h_σ h_τ (h_covers σ (List.mem_of_getElem? h_σ) h_σ_covers)
    · rw [if_neg h]
      by_cases h_lt : links.getD j 0 < j
      · -- a border of a border is a border
        rw [dif_pos h_lt]
        refine ih _ h_lt (fun i h_i => h_links i (by omega)) ?_
        exact Ends.trans h_R (h_links j (Nat.le_refl j)) h_j
      · rw [dif_neg h_lt]
        exact Ends.zero _

/-- Every link is a border, for each transitive relation that covering implies. -/
theorem Chain.ends_link (chain : Chain) {R : Symbol → Symbol → Prop}
    (h_R : ∀ ρ σ τ, R ρ σ → R σ τ → R ρ τ)
    (h_covers : ∀ σ ∈ chain.symbols, ∀ τ ∈ chain.symbols, σ.covers τ = true → R σ τ) (k : Nat) :
    Ends R chain.symbols (chain.link k) k := by
  induction k using Nat.strongRecOn with
  | ind k ih =>
    match k with
    | 0 =>
      rw [chain.link_zero]
      exact Ends.zero 0
    | 1 =>
      rw [chain.link_one]
      exact Ends.zero 1
    | k + 2 =>
      by_cases h_lt : k + 2 < chain.size
      · have h_τ := List.getElem?_eq_getElem (l := chain.symbols) (show k + 1 < _ by
          rw [size] at h_lt; omega)
        have h_down := chain.link_lt (k := k + 1) (by omega)
        rw [chain.link_succ (by omega) h_lt h_τ]
        refine ends_linkBehind h_R (fun σ h_σ => h_covers σ h_σ _ (List.mem_of_getElem? h_τ)) h_τ
          (fun i h_i => ih i (by omega)) (ih (k + 1) (by omega))
      · -- behind the last state there are no links
        have h_none : chain.link (k + 2) = 0 := by
          rw [link, List.getD_eq_getElem?_getD, List.getElem?_eq_none (by
            rw [chain.links_length]; omega)]
          rfl
        rw [h_none]
        exact Ends.zero _

/-- Along a link the symbols take what the last symbols have taken. -/
theorem Chain.ends_link_subsumes (chain : Chain) (k : Nat) :
    Ends Symbol.Subsumes chain.symbols (chain.link k) k :=
  chain.ends_link (fun _ _ _ h_ρσ h_στ => h_ρσ.trans h_στ)
    (fun _ _ _ _ h => Symbol.Subsumes.of_covers h) k

end PagedSearch
