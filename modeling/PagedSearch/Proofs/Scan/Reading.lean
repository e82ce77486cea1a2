/-
  PagedSearch.Proofs.Scan.Reading

  Partial matches. `Chain.Reads` says that the first symbols of a chain take a
  text one behind the other, however much each repetition takes; all symbols
  read what they match (`reads_of_matches`). An unambiguous chain reads a text
  in one way only (`Reads.unique`), and where a partial match begins inside
  another one no repetition has been met (`Reads.overlap`). So it is a border
  of single symbols, and the link knows of it (`Reads.le_link`).
-/
import Mathlib.Data.List.Induction
import PagedSearch.Proofs.Chain.Unambiguous
import PagedSearch.Proofs.Scan.Language

namespace PagedSearch

/-- An element of a list that ends with `a` is one of the others, or it is `a`. -/
theorem of_getElem?_concat {β : Type} {l : List β} {a b : β} {i : Nat}
    (h : (l ++ [a])[i]? = some b) : l[i]? = some b ∨ i = l.length ∧ a = b := by
  rcases Nat.lt_or_ge i l.length with h_lt | h_ge
  · rw [List.getElem?_append_left h_lt] at h
    exact .inl h
  · have h_i : i < l.length + 1 := by
      have h_lt := (List.getElem?_eq_some_iff.1 h).1
      rw [List.length_append, List.length_singleton] at h_lt
      exact h_lt
    obtain rfl : i = l.length := by omega
    rw [List.getElem?_concat_length, Option.some.injEq] at h
    exact .inr ⟨rfl, h⟩

/-! ## Partial matches -/

namespace Chain

/-- Behind the first `k` symbols, symbol `j` may take the next character: the symbols in between
    are repetitions, or it is the repetition that has taken the last character. -/
def Leads (chain : Chain) (k j : Nat) : Prop :=
  (k ≤ j ∨ (k = j + 1 ∧ chain.isMany j = true)) ∧ ∀ i, k ≤ i → i < j → chain.isMany i = true

/-- The first `k` symbols take a text one behind the other, the last of them its last
    character. -/
inductive Reads (chain : Chain) : Nat → Text → Prop where
  | nil : Reads chain 0 []
  | concat {k j : Nat} {t : Text} {c : Char} : Reads chain k t → chain.Leads k j →
      chain.accepts j c = true → Reads chain (j + 1) (t ++ [c])

variable {chain : Chain} {j k m : Nat} {t u v w x : Text} {c : Char}

theorem leads_self (chain : Chain) (k : Nat) : chain.Leads k k :=
  ⟨.inl (Nat.le_refl k), fun _ h_le h_lt => absurd h_lt (Nat.not_lt_of_le h_le)⟩

theorem isMany_zero (chain : Chain) : chain.isMany 0 = false := by
  obtain ⟨σ, h_head, h_σ⟩ := (Option.any_eq_true _ _).1 chain.head_fixed
  rw [List.head?_eq_getElem?] at h_head
  rw [isMany_eq h_head]
  simpa using h_σ

/-- From a symbol that is no repetition on, the next character is taken there, or by the repetition
    that took the last one. -/
theorem Leads.eq_or_succ (h : chain.Leads k j) (h_k : chain.isMany k = false) :
    j = k ∨ k = j + 1 ∧ chain.isMany j = true := by
  rcases h.1 with h_le | h_stays
  · rcases Nat.eq_or_lt_of_le h_le with h_eq | h_lt
    · exact .inl h_eq.symm
    · have h_many := h.2 k (Nat.le_refl k) h_lt
      rw [h_k] at h_many
      exact absurd h_many (by decide)
  · exact .inr h_stays

/-- Up to a symbol that is no repetition and has none in front of it, nothing is passed over. -/
theorem Leads.eq_of_single (h : chain.Leads k j) (h_j : chain.isMany j = false)
    (h_front : ∀ i, j = i + 1 → chain.isMany i = false) : k = j := by
  rcases h.1 with h_le | ⟨-, h_many⟩
  · match j with
    | 0 => exact Nat.eq_zero_of_le_zero h_le
    | i + 1 =>
      apply Nat.le_antisymm h_le
      apply Nat.le_of_not_lt
      intro h_lt
      have h_many := h.2 i (Nat.le_of_lt_succ h_lt) (Nat.lt_succ_self i)
      rw [h_front i rfl] at h_many
      exact absurd h_many (by decide)
  · rw [h_j] at h_many
    exact absurd h_many (by decide)

namespace Reads

theorem exists_of_concat (h : chain.Reads m (t ++ [c])) :
    ∃ k j, m = j + 1 ∧ chain.Reads k t ∧ chain.Leads k j ∧ chain.accepts j c = true := by
  generalize h_text : t ++ [c] = text at h
  cases h with
  | nil => exact absurd h_text (by simp)
  | @concat k j t' c' h_reads h_leads h_c =>
    obtain ⟨rfl, h_char⟩ := List.append_inj' h_text rfl
    obtain rfl : c = c' := List.singleton_inj.1 h_char
    exact ⟨k, j, rfl, h_reads, h_leads, h_c⟩

theorem eq_zero (h : chain.Reads k []) : k = 0 := by
  generalize h_text : ([] : Text) = text at h
  cases h with
  | nil => rfl
  | concat => exact absurd h_text (by simp)

theorem eq_nil (h : chain.Reads 0 t) : t = [] := by
  cases h with
  | nil => rfl

theorem pos (h : chain.Reads k t) (h_t : t ≠ []) : 0 < k := by
  apply Nat.pos_of_ne_zero
  rintro rfl
  exact h_t h.eq_nil

/-- Symbols that take the characters of a text one by one read it. -/
theorem of_accepts (h : ∀ i c, v[i]? = some c → chain.accepts i c = true) :
    chain.Reads v.length v := by
  induction v using List.reverseRecOn with
  | nil => exact .nil
  | append_singleton v c ih =>
    have h_v : chain.Reads v.length v := ih fun i c h_i => h i c (by
      rw [List.getElem?_append_left (List.getElem?_eq_some_iff.1 h_i).1]
      exact h_i)
    have h_c := h v.length c (by rw [List.getElem?_append_right (Nat.le_refl _), Nat.sub_self]; rfl)
    rw [List.length_append]
    exact h_v.concat (leads_self chain v.length) h_c

/-- Single symbols at the end take the last characters one by one. -/
theorem exists_singles (h : chain.Reads k t) (h_m : m ≤ k)
    (h_single : ∀ i, k - m ≤ i → i < k → chain.isMany i = false) :
    ∃ x v, t = x ++ v ∧ v.length = m ∧
      (∀ i c, v[i]? = some c → chain.accepts (k - m + i) c = true) ∧ (m = k → x = []) := by
  induction m generalizing k t with
  | zero =>
    refine ⟨t, [], (List.append_nil t).symm, rfl, fun i c h_i => absurd h_i (by simp), ?_⟩
    rintro rfl
    exact h.eq_nil
  | succ m ih =>
    cases h with
    | nil => exact absurd h_m (Nat.not_succ_le_zero m)
    | @concat a j t c h_t h_leads h_c =>
      rw [Nat.add_sub_add_right] at h_single ⊢
      match m with
      | 0 =>
        refine ⟨t, [c], rfl, rfl, ?_, ?_⟩
        · intro i c' h_i
          rcases of_getElem?_concat (l := []) h_i with h_i | ⟨rfl, rfl⟩
          · exact absurd h_i (by simp)
          · exact h_c
        · intro h_eq
          obtain rfl : j = 0 := by omega
          obtain rfl := h_leads.eq_of_single chain.isMany_zero (fun i h_i => absurd h_i (by omega))
          exact h_t.eq_nil
      | m + 1 =>
        -- the symbol in front took the character before
        obtain rfl := h_leads.eq_of_single (h_single j (by omega) (by omega))
          (fun i h_i => h_single i (by omega) (by omega))
        obtain ⟨x, v, rfl, h_length, h_v, h_x⟩ :=
          ih h_t (by omega) fun i h_i h_lt => h_single i h_i (by omega)
        refine ⟨x, v ++ [c], List.append_assoc x v [c], ?_, ?_, fun h_eq => h_x (by omega)⟩
        · rw [List.length_append, h_length, List.length_singleton]
        · intro i c' h_i
          rcases of_getElem?_concat h_i with h_i | ⟨rfl, rfl⟩
          · exact h_v i c' h_i
          · rw [h_length, Nat.sub_add_cancel (by omega)]
            exact h_c

/-- A run that a repetition takes behind what has been read. -/
theorem run (h : chain.Reads j u) (h_jk : j ≤ k)
    (h_many : ∀ i, j ≤ i → i < k → chain.isMany i = true) (h_k : chain.isMany k = true)
    (h_v : ∀ c ∈ v, chain.accepts k c = true) (h_ne : v ≠ []) : chain.Reads (k + 1) (u ++ v) := by
  induction v using List.reverseRecOn with
  | nil => exact absurd rfl h_ne
  | append_singleton v c ih =>
    have h_c := h_v c (List.mem_append_right v (List.mem_singleton_self c))
    rw [← List.append_assoc]
    rcases List.eq_nil_or_concat v with rfl | ⟨_, _, rfl⟩
    · rw [List.append_nil]
      exact h.concat ⟨.inl h_jk, h_many⟩ h_c
    · -- the repetition goes on
      refine (ih (fun c' h_c' => h_v c' (List.mem_append_left _ h_c')) (by simp)).concat ?_ h_c
      exact ⟨.inr ⟨rfl, h_k⟩, fun i h_le h_lt => absurd h_lt (by omega)⟩

end Reads

/-- Symbols that match a text have read it, but for repetitions at the end that take nothing. -/
theorem exists_reads_of_matches (h : Matches (chain.symbols.take k) t) (h_k : k ≤ chain.size) :
    ∃ j ≤ k, chain.Reads j t ∧ ∀ i, j ≤ i → i < k → chain.isMany i = true := by
  induction k generalizing t with
  | zero =>
    obtain rfl : t = [] := h
    exact ⟨0, Nat.le_refl 0, .nil, fun i _ h_lt => absurd h_lt (Nat.not_lt_zero i)⟩
  | succ k ih =>
    have h_σ := List.getElem?_eq_getElem (l := chain.symbols) h_k
    rw [take_succ_symbols h_σ, matches_append] at h
    obtain ⟨u, v, rfl, h_u, h_v⟩ := h
    obtain ⟨h_accepts, h_takes⟩ := matches_singleton.1 h_v
    obtain ⟨j, h_jk, h_reads, h_many⟩ := ih h_u (Nat.le_of_succ_le h_k)
    have h_takes_k : ∀ c ∈ v, chain.accepts k c = true := fun c h_c =>
      accepts_iff.2 ⟨_, h_σ, h_accepts c h_c⟩
    rw [← isMany_eq h_σ] at h_takes
    rcases List.eq_nil_or_concat v with rfl | ⟨v', c, rfl⟩
    · -- an empty run is passed over
      rw [List.append_nil]
      refine ⟨j, Nat.le_succ_of_le h_jk, h_reads, ?_⟩
      intro i h_ji h_ik
      rcases Nat.eq_or_lt_of_le (Nat.le_of_lt_succ h_ik) with rfl | h_lt
      · exact h_takes.resolve_right (by simp)
      · exact h_many i h_ji h_lt
    · refine ⟨k + 1, Nat.le_refl _, ?_, fun i h_le h_lt => absurd h_lt (Nat.not_lt_of_le h_le)⟩
      rcases h_takes with h_run | h_one
      · exact h_reads.run h_jk h_many h_run h_takes_k (by simp)
      · obtain rfl : v' = [] := by simpa using h_one
        exact h_reads.concat ⟨.inl h_jk, h_many⟩ (h_takes_k c (by simp))

/-- A text that the symbols match is read to the end, for the last symbol takes a character. -/
theorem reads_of_matches (h : Matches chain.symbols t) : chain.Reads chain.size t := by
  obtain ⟨j, h_j, h_reads, h_many⟩ := exists_reads_of_matches (k := chain.size) (t := t)
    (by rw [size, List.take_length]; exact h) (Nat.le_refl _)
  rcases Nat.eq_or_lt_of_le h_j with rfl | h_lt
  · exact h_reads
  · have h_pos := chain.size_pos
    obtain ⟨σ, h_σ, h_last⟩ := isMany_iff.1 (h_many (chain.size - 1) (by omega) (by omega))
    have h_succ := succ_lt_of_isMany h_σ h_last
    omega

/-! ## One reading -/

section

variable (h : chain.Unambiguous)
include h

/-- One symbol at most can take the next character. -/
theorem Leads.unique {j' : Nat} (h_j : chain.Leads k j) (h_j' : chain.Leads k j')
    (h_c : chain.accepts j c = true) (h_c' : chain.accepts j' c = true) : j = j' := by
  -- the earlier one of two would be a repetition, as the later one comes behind it
  have h_not : ∀ {j j'}, chain.Leads k j → chain.Leads k j' → chain.accepts j c = true →
      chain.accepts j' c = true → ¬ j < j' := by
    intro j j' h_j h_j' h_c h_c' h_lt
    have h_single := h.single h_lt h_c h_c' (Nat.le_refl j) (Nat.le_of_lt h_lt)
    have h_many : chain.isMany j = true := by
      rcases h_j.1 with h_le | ⟨-, h_many⟩
      · exact h_j'.2 j h_le h_lt
      · exact h_many
    rw [h_single] at h_many
    exact absurd h_many (by decide)
  rcases Nat.lt_trichotomy j j' with h_lt | h_eq | h_gt
  · exact absurd h_lt (h_not h_j h_j' h_c h_c')
  · exact h_eq
  · exact absurd h_gt (h_not h_j' h_j h_c' h_c)

/-- A text is read in one way. -/
theorem Reads.unique (h_k : chain.Reads k t) (h_m : chain.Reads m t) : k = m := by
  induction t using List.reverseRecOn generalizing k m with
  | nil => exact h_k.eq_zero.trans h_m.eq_zero.symm
  | append_singleton t c ih =>
    obtain ⟨k, j, rfl, h_k, h_j, h_c⟩ := h_k.exists_of_concat
    obtain ⟨m, j', rfl, h_m, h_j', h_c'⟩ := h_m.exists_of_concat
    obtain rfl := ih h_k h_m
    rw [h_j.unique h h_j' h_c h_c']

/-- Where a partial match begins inside another one, it has come less far, and no repetition has
    been met. -/
theorem Reads.overlap (h_k : chain.Reads k (x ++ w)) (h_j : chain.Reads j w) (h_x : x ≠ [])
    (h_w : w ≠ []) : j < k ∧ ∀ i < k, chain.isMany i = false := by
  -- the same characters are taken at both places, further and further on
  induction w using List.reverseRecOn generalizing k j with
  | nil => exact absurd rfl h_w
  | append_singleton w c ih =>
    rw [← List.append_assoc] at h_k
    obtain ⟨a, p, rfl, h_a, h_ap, h_p⟩ := h_k.exists_of_concat
    obtain ⟨b, q, rfl, h_b, h_bq, h_q⟩ := h_j.exists_of_concat
    have h_behind : q < p ∧ ∀ i < q, chain.isMany i = false := by
      rcases List.eq_nil_or_concat w with rfl | ⟨_, _, rfl⟩
      · -- the inner match begins here, at the first symbol, and the outer one is past it
        obtain rfl := h_b.eq_zero
        rw [List.append_nil] at h_a
        have h_a_pos := h_a.pos h_x
        obtain rfl : q = 0 := by
          rcases h_bq.eq_or_succ chain.isMany_zero with h_eq | ⟨h_eq, -⟩
          · exact h_eq
          · exact absurd h_eq (by omega)
        refine ⟨?_, fun i h_i => absurd h_i (Nat.not_lt_zero i)⟩
        rcases h_ap.1 with h_le | ⟨-, h_many⟩
        · omega
        · apply Nat.pos_of_ne_zero
          rintro rfl
          rw [chain.isMany_zero] at h_many
          exact absurd h_many (by decide)
      · obtain ⟨h_ba, h_single⟩ := ih h_a h_b (by simp)
        obtain rfl : q = b := by
          rcases h_bq.eq_or_succ (h_single b h_ba) with h_eq | ⟨h_eq, h_many⟩
          · exact h_eq
          · rw [h_single q (by omega)] at h_many
            exact absurd h_many (by decide)
        refine ⟨?_, fun i h_i => h_single i (by omega)⟩
        rcases h_ap.1 with h_le | ⟨h_eq, h_many⟩
        · omega
        · rw [h_single p (by omega)] at h_many
          exact absurd h_many (by decide)
    obtain ⟨h_qp, h_single⟩ := h_behind
    refine ⟨Nat.succ_lt_succ h_qp, ?_⟩
    intro i h_i
    rcases Nat.lt_or_ge i q with h_lt | h_ge
    · exact h_single i h_lt
    · exact h.single h_qp h_q h_p h_ge (Nat.le_of_lt_succ h_i)

/-- Such a match is a border, and no longer than the link. -/
theorem Reads.le_link (h_k : chain.Reads k (x ++ w)) (h_j : chain.Reads j w) (h_x : x ≠ [])
    (h_w : w ≠ []) (h_lt : k < chain.size) : w.length ≤ chain.link k := by
  obtain ⟨h_jk, h_single⟩ := h_k.overlap h h_j h_x h_w
  -- without repetitions both are read character by character
  obtain ⟨x', v, h_text, h_v_length, h_v, h_x'⟩ :=
    h_k.exists_singles (Nat.le_refl k) fun i _ h_i => h_single i h_i
  obtain ⟨y, w', rfl, h_length, h_w', h_y⟩ :=
    h_j.exists_singles (Nat.le_refl j) fun i _ h_i => h_single i (by omega)
  rw [h_x' rfl, List.nil_append] at h_text
  rw [h_y rfl, List.nil_append] at h_text ⊢
  simp only [Nat.sub_self, Nat.zero_add] at h_v h_w'
  have h_total := congrArg List.length h_text
  rw [List.length_append] at h_total
  rw [h_length]
  refine h.le_link h_lt h_jk ⟨Nat.le_of_lt h_jk, ?_⟩
  intro i h_i
  have h_get : w'[i]? = some w'[i] := List.getElem?_eq_getElem (by omega)
  obtain ⟨σ, h_σ, h_σ_c⟩ := accepts_iff.1 (h_w' i _ h_get)
  obtain ⟨τ, h_τ, h_τ_c⟩ := accepts_iff.1 (h_v (k - j + i) w'[i] (by
    rw [← h_text, List.getElem?_append_right (by omega), ← h_get]
    congr 1
    omega))
  exact ⟨σ, τ, h_σ, h_τ, _, h_σ_c, h_τ_c⟩

end

end Chain

end PagedSearch
