/-
  PagedSearch.Proofs.Chain.Longest

  How long a link is. A link is meant to be the longest border of its state.
  Climbing finds that one among plain characters, since there a border of a
  state is a border of every longer border of that state. Covering is not
  symmetric, so a border need not nest in a longer one; then climbing may pass
  it, and the link is too short (`links_pass_border`). Where the borders that
  are prolonged do nest (`Chain.Nested`), no border is longer than the link
  (`links_longest`).
-/
import PagedSearch.Proofs.Chain.Unambiguous
import PagedSearch.Proofs.Pattern.Literal

namespace PagedSearch

/-! ## Borders that cover -/

/-- Covering as a relation. -/
def Symbol.Covers (σ τ : Symbol) : Prop := σ.covers τ = true

instance : DecidableRel Symbol.Covers := fun σ τ => inferInstanceAs (Decidable (σ.covers τ = true))

instance {R : Symbol → Symbol → Prop} [DecidableRel R] (symbols : List Symbol) (j k : Nat) :
    Decidable (Ends R symbols j k) :=
  decidable_of_iff
    (j ≤ k ∧ ∀ i < j, ∃ σ ∈ symbols[i]?, ∃ τ ∈ symbols[k - j + i]?, R σ τ) <| by
    simp only [Ends, Option.mem_def, exists_and_left]

/-- The first `j` symbols are the longest prefix shorter than `k` that covers the end of the first
    `k` symbols. -/
structure LongestBorder (symbols : List Symbol) (j k : Nat) : Prop where
  lt : j < k
  ends : Ends Symbol.Covers symbols j k
  le_of_ends : ∀ i < k, Ends Symbol.Covers symbols i k → i ≤ j

instance (symbols : List Symbol) (j k : Nat) : Decidable (LongestBorder symbols j k) :=
  decidable_of_iff (j < k ∧ Ends Symbol.Covers symbols j k ∧
      ∀ i < k, Ends Symbol.Covers symbols i k → i ≤ j)
    ⟨fun h => ⟨h.1, h.2.1, h.2.2⟩, fun h => ⟨h.lt, h.ends, h.le_of_ends⟩⟩

/-- Some longest border is no shorter than a given one. -/
theorem LongestBorder.exists_ge {symbols : List Symbol} {j k : Nat} (h_lt : j < k)
    (h_ends : Ends Symbol.Covers symbols j k) : ∃ l, j ≤ l ∧ LongestBorder symbols l k := by
  by_cases h : ∃ i, j < i ∧ i < k ∧ Ends Symbol.Covers symbols i k
  · -- a longer one is left to go on from
    obtain ⟨i, h_ji, h_i, h_ends_i⟩ := h
    obtain ⟨l, h_l, h_longest⟩ := exists_ge h_i h_ends_i
    exact ⟨l, by omega, h_longest⟩
  · refine ⟨j, Nat.le_refl j, h_lt, h_ends, ?_⟩
    intro i h_i h_ends_i
    exact Nat.le_of_not_lt fun h_ji => h ⟨i, h_ji, h_i, h_ends_i⟩
termination_by k - j

/-! ## Nested borders -/

namespace Chain

variable {chain : Chain} {m n : Nat}

/-- Up to state `n`, if the longest border of a state is border `i` of the state before with one
    symbol more, then `i` is a border of every longer border of the state before. -/
def Nested (chain : Chain) (n : Nat) : Prop :=
  ∀ i j k, k < n → LongestBorder chain.symbols (i + 1) (k + 1) → i < j → j < k →
    Ends Symbol.Subsumes chain.symbols j k → Ends Symbol.Covers chain.symbols i j

namespace Nested

theorem mono (h : chain.Nested n) (h_mn : m ≤ n) : chain.Nested m :=
  fun i j k h_k => h i j k (Nat.lt_of_lt_of_le h_k h_mn)

/-- No border that covers is longer than the link. -/
theorem le_link (h : chain.Nested n) (h_n : n < chain.size) {j : Nat} (h_j : j < n)
    (h_ends : Ends Symbol.Covers chain.symbols j n) : j ≤ chain.link n := by
  induction n using Nat.strongRecOn generalizing j with
  | ind n ih =>
    -- it is enough to climb to the longest one
    obtain ⟨l, h_l, h_longest⟩ := LongestBorder.exists_ge h_j h_ends
    refine Nat.le_trans h_l ?_
    match n, l with
    | _, 0 => exact Nat.zero_le _
    | k + 1, i + 1 =>
      have h_ik := h_longest.lt
      obtain ⟨h_front, σ, τ, h_σ, h_τ, h_covers⟩ := h_longest.ends.of_succ
      have h_down := chain.link_lt (k := k) (by omega)
      have h_le := ih k (by omega) (h.mono (by omega)) (by omega) (by omega) h_front
      rw [chain.link_succ (by omega) h_n h_τ]
      -- every link on the way is a border of `k`, and border `i` nests in it
      refine le_linkBehind (P := fun j => j < k ∧ Ends Symbol.Subsumes chain.symbols j k) ?_ ?_
        h_le ⟨h_down, chain.ends_link_subsumes k⟩
      · rintro j h_ij ⟨h_j, h_ends_j⟩
        have h_inner := h i j k (by omega) h_longest h_ij h_j h_ends_j
        have h_lt := chain.link_lt (k := j) (by omega)
        refine ⟨h_lt, ?_, Nat.lt_trans h_lt h_j, ?_⟩
        · exact ih j (by omega) (h.mono (by omega)) (by omega) h_ij h_inner
        · exact (chain.ends_link_subsumes j).trans (fun _ _ _ => Symbol.Subsumes.trans) h_ends_j
      · rw [h_σ, Option.any_some]
        exact h_covers

end Nested

end Chain

/-! ## The length of links -/

/-- Where borders nest up to a state, its link is a border of it, and no longer prefix that is
    shorter than the state covers the end of what it has matched. -/
theorem links_longest {symbols : List Symbol} {chain : Chain} {id : Nat}
    (h : Chain.ofSymbols? symbols = .ok chain) (h_pos : 1 ≤ id) (h_id : id < chain.size)
    (h_nested : chain.Nested id) :
    chain.symbols = symbols ∧ chain.link id < id ∧
      Ends Symbol.Subsumes symbols (chain.link id) id ∧
      ∀ k, chain.link id < k → k < id → ¬ Ends Symbol.Covers symbols k id := by
  obtain rfl := Chain.symbols_of_ofSymbols? h
  refine ⟨rfl, chain.link_lt h_pos, chain.ends_link_subsumes id, ?_⟩
  intro k h_link h_k h_ends
  exact absurd (h_nested.le_link h_id h_k h_ends) (Nat.not_le.2 h_link)

/-- In the chain of `..aa.[ab]c` climbing passes `..`, which the set does not prolong, and comes to
    `.`, which it does. -/
theorem links_longest_set :
    ∃ symbols chain, symbolsOf ⟨.wildcard, false⟩ "..aa.[ab]c".toList = .ok symbols ∧
      Chain.ofSymbols? symbols = .ok chain ∧ 6 < chain.size ∧ chain.Nested 6 ∧
      chain.link 6 = 2 ∧ ∀ k, 2 < k → k < 6 → ¬ Ends Symbol.Covers symbols k 6 := by
  let symbols : List Symbol := [.any, .any, .char 'a', .char 'a', .any,
    .set ⟨[.single 'a', .single 'b']⟩, .char 'c']
  have h : Chain.ofSymbols? symbols = .ok ⟨symbols, linksOf symbols, rfl, rfl, rfl⟩ := rfl
  have h_borders : ∀ k < 6, ∀ j < k, ∀ i < j, LongestBorder symbols (i + 1) (k + 1) →
      Ends Symbol.Covers symbols i j := by
    decide +kernel
  have h_nested : Chain.Nested ⟨symbols, linksOf symbols, rfl, rfl, rfl⟩ 6 :=
    fun i j k h_k h_longest h_ij h_jk _ => h_borders k h_k j h_jk i h_ij h_longest
  have h_link : (linksOf symbols).getD 6 0 = 2 := by cbv
  refine ⟨symbols, _, by cbv, h, by decide, h_nested, h_link, ?_⟩
  have h_longest := (links_longest h (by decide) (by decide) h_nested).2.2.2
  intro k h_k
  exact h_longest k (Nat.lt_of_le_of_lt (Nat.le_of_eq h_link) h_k)

/-- In the chain of `a.aacx` the prefix `a.` covers the end of the first five symbols, but its `a`
    is no border of `a.`, where climbing starts, and so climbing passes it. -/
theorem links_pass_border :
    ∃ symbols chain, symbolsOf ⟨.wildcard, false⟩ "a.aacx".toList = .ok symbols ∧
      Chain.ofSymbols? symbols = .ok chain ∧ 5 < chain.size ∧
      chain.link 5 = 0 ∧ Ends Symbol.Covers symbols 2 5 := by
  let symbols : List Symbol := [.char 'a', .any, .char 'a', .char 'a', .char 'c', .char 'x']
  have h_link : (linksOf symbols).getD 5 0 = 0 := by cbv
  exact ⟨symbols, ⟨symbols, linksOf symbols, rfl, rfl, rfl⟩, by cbv, rfl, by decide, h_link,
    by decide⟩

end PagedSearch
