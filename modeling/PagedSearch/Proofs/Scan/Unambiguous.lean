/-
  PagedSearch.Proofs.Scan.Unambiguous

  A scan for an unambiguous chain misses nothing. It always holds on to the
  longest partial match that the text read ends with (`Pursues`): a step
  prolongs it or falls back to the longest one inside it (`Stuck.link`). So the
  scan finds something exactly if the text contains what the symbols match
  (`drain_eq_nil_iff`), and from the other end it does as well
  (`drain_reversed_eq_nil_iff`).
-/
import PagedSearch.Proofs.Scan.Reading

namespace PagedSearch

namespace Chain

variable {chain : Chain} {j k m n : Nat} {seen u w : Text} {c : Char}

/-! ## What a scan holds on to -/

/-- The first `k` symbols, but not all of them, have read `u`, and the text that was read ends with
    it. -/
structure Holds (chain : Chain) (seen : Text) (k : Nat) (u : Text) : Prop where
  lt : k < chain.size
  reads : chain.Reads k u
  suffix : u <:+ seen

/-- No partial match at the end of the text read that has `n` or more characters goes on with
    `c`. -/
def Stuck (chain : Chain) (seen : Text) (c : Char) (n : Nat) : Prop :=
  ∀ w k j, w <:+ seen → n ≤ w.length → chain.Reads k w → chain.Leads k j →
    chain.accepts j c = false

/-- A partial match with one character more was that long before. -/
theorem Stuck.length_le (h_stuck : chain.Stuck seen c (n + 1)) (h_w : w <:+ seen ++ [c])
    (h_reads : chain.Reads m w) : w.length ≤ n + 1 := by
  rcases List.suffix_concat_iff.1 h_w with rfl | ⟨w, rfl, h_front⟩
  · exact Nat.zero_le _
  · obtain ⟨k, j, -, h_k, h_j, h_c⟩ := h_reads.exists_of_concat
    rw [List.length_append, List.length_singleton]
    apply Nat.succ_le_succ
    apply Nat.le_of_not_lt
    intro h_lt
    rw [h_stuck w k j h_front h_lt h_k h_j] at h_c
    exact absurd h_c (by decide)

namespace Holds

theorem nil (chain : Chain) (seen : Text) : chain.Holds seen 0 [] :=
  ⟨chain.size_pos, .nil, List.nil_suffix⟩

/-- Symbol `j` takes the next character. -/
theorem concat (h_k : chain.Holds seen k u) (h_j : chain.Leads k j)
    (h_c : chain.accepts j c = true) (h_lt : j + 1 < chain.size) :
    chain.Holds (seen ++ [c]) (j + 1) (u ++ [c]) where
  lt := h_lt
  reads := h_k.reads.concat h_j h_c
  suffix := by
    obtain ⟨front, rfl⟩ := h_k.suffix
    exact ⟨front, (List.append_assoc front u [c]).symm⟩

/-- The link holds on to what its symbols take of the end. -/
theorem fallen (h_k : chain.Holds seen k u) (h_down : chain.link k < k) :
    ∃ v, chain.Holds seen (chain.link k) v ∧ v.length = chain.link k := by
  obtain ⟨h_le, h_border⟩ := chain.ends_link_subsumes k
  -- the symbols of a border are single, so they took a character each
  obtain ⟨x, v, rfl, h_length, h_v, -⟩ := h_k.reads.exists_singles h_le (by
    intro i h_i h_ik
    obtain ⟨_, τ, -, h_τ, h_subsumes⟩ := h_border (i - (k - chain.link k)) (by omega)
    rw [show k - chain.link k + (i - (k - chain.link k)) = i by omega] at h_τ
    rw [isMany_eq h_τ]
    exact h_subsumes.right_single)
  refine ⟨v, ⟨Nat.lt_trans h_down h_k.lt, ?_, (List.suffix_append x v).trans h_k.suffix⟩, h_length⟩
  rw [← h_length]
  apply Reads.of_accepts
  intro i c h_i
  have h_lt := (List.getElem?_eq_some_iff.1 h_i).1
  obtain ⟨σ, τ, h_σ, h_τ, h_subsumes⟩ := h_border i (by omega)
  obtain ⟨τ', h_τ', h_c⟩ := accepts_iff.1 (h_v i c h_i)
  rw [h_τ, Option.some.injEq] at h_τ'
  subst h_τ'
  exact accepts_iff.2 ⟨σ, h_σ, h_subsumes.accepts_of c h_c⟩

/-- A longest partial match is no complete one, and none inside it is. -/
theorem not_complete (h : chain.Unambiguous) (h_k : chain.Holds seen k u)
    (h_longest : ∀ w m, w <:+ seen → chain.Reads m w → w.length ≤ u.length) (h_w : w <:+ seen) :
    ¬ chain.Reads chain.size w := by
  intro h_complete
  have h_lt := h_k.lt
  obtain ⟨x, rfl⟩ := List.suffix_of_suffix_length_le h_w h_k.suffix (h_longest w _ h_w h_complete)
  rcases List.eq_nil_or_concat x with rfl | ⟨_, _, rfl⟩
  · have h_eq := h_k.reads.unique h h_complete
    omega
  · have h_w_ne : w ≠ [] := by
      rintro rfl
      have h_zero := h_complete.eq_zero
      omega
    have h_less := (h_k.reads.overlap h h_complete (by simp) h_w_ne).1
    omega

end Holds

/-- Where no symbol goes on, only the link is left to try. -/
theorem Stuck.link (h : chain.Unambiguous) (h_k : chain.Holds seen k u)
    (h_stuck : chain.Stuck seen c (u.length + 1))
    (h_none : ∀ j, chain.Leads k j → chain.accepts j c = false) :
    chain.Stuck seen c (chain.link k + 1) := by
  intro w m j h_w h_link h_m h_j
  rcases Nat.lt_trichotomy w.length u.length with h_lt | h_eq | h_gt
  · -- a partial match inside the one that is held is no longer than the link
    obtain ⟨x, rfl⟩ := List.suffix_of_suffix_length_le h_w h_k.suffix (Nat.le_of_lt h_lt)
    have h_x : x ≠ [] := by
      rintro rfl
      exact absurd h_lt (Nat.lt_irrefl _)
    have h_w_ne : w ≠ [] := by
      rintro rfl
      exact absurd h_link (Nat.not_succ_le_zero _)
    have h_le := h_k.reads.le_link h h_m h_x h_w_ne h_k.lt
    omega
  · obtain rfl := (List.suffix_of_suffix_length_le h_w h_k.suffix (Nat.le_of_eq h_eq)).eq_of_length
      h_eq
    obtain rfl := h_k.reads.unique h h_m
    exact h_none j h_j
  · exact h_stuck w m j h_w h_gt h_m h_j

end Chain

/-! ## One character -/

variable {α : Type} {chain : Chain} {seen u : Text} {c : Char} {here : α} {j k : Nat}
  {scan : Scan α}

/-- The scan waits behind the first `k` symbols, or in the last of them if it is a repetition. -/
def Scan.Behind (scan : Scan α) (chain : Chain) (k : Nat) : Prop :=
  (scan.current = k ∧ scan.taken = 0 ∧ ∀ j, k = j + 1 → chain.isMany j = false) ∨
    (scan.current + 1 = k ∧ scan.taken ≠ 0 ∧ chain.isMany scan.current = true)

/-- The scan holds on to the longest partial match at the end of the text read, and the text has no
    complete one. -/
structure Pursues (chain : Chain) (seen : Text) (scan : Scan α) : Prop where
  cut : ∃ k u, chain.Holds seen k u ∧ scan.Behind chain k ∧
    ∀ w m, w <:+ seen → chain.Reads m w → w.length ≤ u.length
  absent : ∀ w, chain.Reads chain.size w → ¬ w <:+: seen

/-- What a step may come to: the scan goes on, or it has found something. -/
def Pursued (chain : Chain) (seen : Text) : Scan α × Option (Span α) → Prop
  | (next, none) => Pursues chain seen next
  | (_, some _) => True

theorem Pursues.root (chain : Chain) (n : Nat) :
    Pursues chain [] ({ comparisons := n } : Scan α) where
  cut := by
    refine ⟨0, [], .nil chain [], .inl ⟨rfl, rfl, fun j h_j => absurd h_j (by omega)⟩, ?_⟩
    intro w m h_w _
    exact h_w.length_le
  absent w h_w h_infix := by
    rw [List.eq_nil_of_infix_nil h_infix] at h_w
    exact absurd h_w.eq_zero (Nat.ne_of_gt chain.size_pos)

/-- A scan that holds on to the longest partial match has not passed a complete one. -/
theorem Pursues.of_holds (h : chain.Unambiguous) (h_holds : chain.Holds (seen ++ [c]) k u)
    (h_behind : scan.Behind chain k)
    (h_longest : ∀ w m, w <:+ seen ++ [c] → chain.Reads m w → w.length ≤ u.length)
    (h_absent : ∀ w, chain.Reads chain.size w → ¬ w <:+: seen) :
    Pursues chain (seen ++ [c]) scan where
  cut := ⟨k, u, h_holds, h_behind, h_longest⟩
  absent w h_w h_infix := by
    rcases List.infix_concat_iff.1 h_infix with h_end | h_before
    · exact h_holds.not_complete h h_longest h_end h_w
    · exact h_absent w h_w h_before

section

variable (h : chain.Unambiguous) (h_absent : ∀ w, chain.Reads chain.size w → ¬ w <:+: seen)
include h h_absent

/-- A symbol that takes the character. -/
theorem take_pursues (h_holds : chain.Holds seen k u) (h_leads : chain.Leads k j)
    (h_c : chain.accepts j c = true) (h_stuck : chain.Stuck seen c (u.length + 1)) :
    Pursued chain (seen ++ [c]) (scan.take chain here j) := by
  have h_longest : ∀ w m, w <:+ seen ++ [c] → chain.Reads m w → w.length ≤ (u ++ [c]).length := by
    intro w m h_w h_m
    rw [List.length_append, List.length_singleton]
    exact h_stuck.length_le h_w h_m
  rw [Scan.take]
  by_cases h_many : chain.isMany j = true
  · rw [if_pos h_many]
    obtain ⟨σ, h_σ, h_σ_many⟩ := Chain.isMany_iff.1 h_many
    exact .of_holds h (h_holds.concat h_leads h_c (Chain.succ_lt_of_isMany h_σ h_σ_many))
      (.inr ⟨rfl, Nat.succ_ne_zero _, h_many⟩) h_longest h_absent
  · rw [if_neg h_many]
    by_cases h_lt : j + 1 < chain.size
    · rw [if_pos h_lt]
      refine .of_holds h (h_holds.concat h_leads h_c h_lt) (.inl ⟨rfl, rfl, ?_⟩) h_longest h_absent
      intro i h_i
      obtain rfl : j = i := Nat.succ.inj h_i
      exact Bool.not_eq_true _ ▸ h_many
    · rw [if_neg h_lt]
      trivial

/-- Trying a character behind the first `k` symbols, the last of which does not go on with it. -/
theorem attempt_pursues (h_holds : chain.Holds seen k u)
    (h_over : ∀ j, k = j + 1 → chain.isMany j = true → chain.accepts j c = false)
    (h_stuck : chain.Stuck seen c (u.length + 1)) :
    Pursued chain (seen ++ [c]) (scan.attempt chain c here k) := by
  -- links go down, and no partial match between a state and its link goes on
  induction k using Nat.strongRecOn generalizing u scan with
  | ind k ih =>
    have h_empty : ∀ i, k ≤ i → i < k + chain.emptyRun c k →
        chain.isMany i = true ∧ chain.accepts i c = false := fun i h_i h_lt =>
      Chain.empty_of_lt_emptyRun h_i h_lt
    rw [Scan.attempt]
    by_cases h_c : chain.accepts (k + chain.emptyRun c k) c = true
    · rw [if_pos h_c]
      refine take_pursues h h_absent h_holds ⟨.inl (Nat.le_add_right _ _), ?_⟩ h_c h_stuck
      intro i h_i h_lt
      exact (h_empty i h_i h_lt).1
    · rw [if_neg h_c]
      -- the empty repetitions end with a single symbol, and nothing up to there takes it
      have h_none : ∀ j, chain.Leads k j → chain.accepts j c = false := by
        intro j h_j
        rcases h_j.1 with h_le | ⟨h_eq, h_many⟩
        · rcases Nat.lt_trichotomy j (k + chain.emptyRun c k) with h_lt | rfl | h_gt
          · exact (h_empty j h_le h_lt).2
          · exact Bool.not_eq_true _ ▸ h_c
          · exact absurd (Chain.accepts_of_emptyRun
              (h_j.2 _ (Nat.le_add_right _ _) h_gt)) h_c
        · exact h_over j h_eq h_many
      have h_link := h_stuck.link h h_holds h_none
      by_cases h_down : chain.link k < k
      · rw [dif_pos h_down]
        obtain ⟨v, h_v, h_length⟩ := h_holds.fallen h_down
        refine ih _ h_down h_v ?_ (h_length ▸ h_link)
        -- the symbols of a border are single
        intro j h_j h_many
        obtain ⟨σ, τ, h_σ, -, h_subsumes⟩ := (chain.ends_link_subsumes k).2 j (by omega)
        rw [Chain.isMany_eq h_σ, h_subsumes.left_single] at h_many
        exact absurd h_many (by decide)
      · -- only the root has no link further down; it drops the character
        rw [dif_neg h_down]
        obtain rfl : k = 0 := Nat.eq_zero_of_not_pos fun h_pos => h_down (chain.link_lt h_pos)
        obtain rfl := h_holds.reads.eq_nil
        refine .of_holds h (.nil chain _) (.inl ⟨rfl, rfl, fun j h_j => absurd h_j (by omega)⟩) ?_
          h_absent
        intro w m h_w h_m
        rcases List.suffix_concat_iff.1 h_w with rfl | ⟨w, rfl, h_front⟩
        · exact Nat.le_refl 0
        · obtain ⟨i, j, -, h_i, h_j, h_c'⟩ := h_m.exists_of_concat
          rcases List.eq_nil_or_concat w with rfl | ⟨_, _, rfl⟩
          · obtain rfl := h_i.eq_zero
            rw [h_none j h_j] at h_c'
            exact absurd h_c' (by decide)
          · rw [h_stuck _ i j h_front (by simp) h_i h_j] at h_c'
            exact absurd h_c' (by decide)

end

/-- A step keeps hold of the longest partial match, or it finds something. -/
theorem step_pursues (h : chain.Unambiguous) (h_scan : Pursues chain seen scan) :
    Pursued chain (seen ++ [c]) (scan.step chain c here) := by
  obtain ⟨⟨k, u, h_holds, h_behind, h_longest⟩, h_absent⟩ := h_scan
  have h_stuck : chain.Stuck seen c (u.length + 1) := by
    intro w m j h_w h_lt h_m _
    exact absurd (h_longest w m h_w h_m) (Nat.not_le_of_lt h_lt)
  rw [Scan.step]
  rcases h_behind with ⟨rfl, h_taken, h_single⟩ | ⟨rfl, h_taken, h_many⟩
  · -- the last symbol has taken its one character
    rw [if_pos (.inl h_taken)]
    refine attempt_pursues h h_absent h_holds ?_ h_stuck
    intro j h_j h_many
    rw [h_single j h_j] at h_many
    exact absurd h_many (by decide)
  · by_cases h_c : chain.accepts scan.current c = true
    · -- the repetition goes on
      rw [if_pos (.inr h_c), Scan.attempt]
      simp only [Chain.emptyRun_eq_zero h_c, Nat.add_zero, List.replicate_zero, List.append_nil]
      rw [if_pos h_c]
      exact take_pursues h h_absent h_holds
        ⟨.inr ⟨rfl, h_many⟩, fun i h_le h_lt => absurd h_lt (by omega)⟩ h_c h_stuck
    · -- the repetition is over
      rw [if_neg (by simp [h_taken, h_c])]
      refine attempt_pursues h h_absent h_holds ?_ h_stuck
      intro j h_j _
      obtain rfl : scan.current = j := Nat.succ.inj h_j
      exact Bool.not_eq_true _ ▸ h_c

/-! ## Whole texts -/

/-- A run that finds nothing has read no complete match. -/
theorem drain_absent (h : chain.Unambiguous) {s : List (Char × α)}
    (h_scan : Pursues chain seen scan) (h_nil : (scan.drain chain s).2 = []) {w : Text}
    (h_w : chain.Reads chain.size w) :
    ¬ w <:+: seen ++ s.map Prod.fst := by
  induction s generalizing seen scan with
  | nil =>
    rw [List.map_nil, List.append_nil]
    exact h_scan.absent w h_w
  | cons head s ih =>
    obtain ⟨c, here⟩ := head
    have h_step : Pursued chain (seen ++ [c]) (scan.step chain c here) := step_pursues h h_scan
    rw [Scan.drain] at h_nil
    rcases h_result : scan.step chain c here with ⟨next, _ | span⟩
    · rw [h_result] at h_step h_nil
      have h_rest := ih (show Pursues chain (seen ++ [c]) next from h_step) h_nil
      rw [List.append_assoc] at h_rest
      exact h_rest
    · rw [h_result] at h_nil
      exact absurd h_nil (by simp)

/-- A scan finds nothing exactly if the text contains nothing that the symbols match. -/
theorem drain_eq_nil_iff (h : chain.Unambiguous) (s : List (Char × α)) :
    (({} : Scan α).drain chain s).2 = [] ↔
      ∀ w, Matches chain.symbols w → ¬ w <:+: s.map Prod.fst := by
  constructor
  · intro h_nil w h_w
    exact drain_absent h (.root chain 0) h_nil (Chain.reads_of_matches h_w)
  · intro h_absent
    by_contra h_found
    obtain ⟨w, h_infix, h_w⟩ := exists_matches_of_drain h_found
    exact h_absent w h_w h_infix

/-- From the other end a scan finds something exactly if it does from this end. -/
theorem drain_reversed_eq_nil_iff (h : chain.Reversible) (s : List (Char × α)) :
    (({} : Scan α).drain chain.reversed s.reverse).2 = [] ↔
      (({} : Scan α).drain chain s).2 = [] := by
  rw [drain_eq_nil_iff h.backward, drain_eq_nil_iff h.forward, Chain.reversed_symbols,
    List.map_reverse]
  constructor
  · intro h_absent w h_w h_infix
    exact h_absent w.reverse h_w.reverse (List.reverse_infix.2 h_infix)
  · intro h_absent w h_w h_infix
    have h_reverse := h_w.reverse
    rw [List.reverse_reverse] at h_reverse
    apply h_absent w.reverse h_reverse
    rw [← List.reverse_infix, List.reverse_reverse]
    exact h_infix

end PagedSearch
