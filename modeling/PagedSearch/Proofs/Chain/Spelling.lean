/-
  PagedSearch.Proofs.Chain.Spelling

  Chains of plain characters. A chain spells a word when its symbols are the
  characters of the word. Its links are then the failure function of the
  word: the link of `k` is the longest shorter prefix of the word that the
  first `k` characters end with (`Spells.link_suffix`, `Spells.le_link`).
-/
import PagedSearch.Proofs.Chain.Unambiguous

namespace PagedSearch

/-! ## Prefixes at the end of a text -/

/-- A prefix one longer ends a text one longer if the prefix ends the text and goes on as it. -/
theorem take_succ_suffix_concat {w t : Text} {c : Char} {j : Nat} (h_j : j < w.length) :
    w.take (j + 1) <:+ t ++ [c] ↔ w[j]? = some c ∧ w.take j <:+ t := by
  rw [List.take_succ_eq_append_getElem h_j, List.getElem?_eq_getElem h_j, List.suffix_concat_iff]
  constructor
  · rintro (h_nil | ⟨u, h_eq, h_u⟩)
    · exact absurd h_nil (List.append_ne_nil_of_right_ne_nil _ (List.cons_ne_nil _ _))
    · obtain ⟨h_take, h_char⟩ := List.append_inj' h_eq rfl
      exact ⟨congrArg some (List.cons.inj h_char).1, h_take ▸ h_u⟩
  · rintro ⟨h_char, h_take⟩
    rw [Option.some.injEq] at h_char
    exact .inr ⟨w.take j, by rw [h_char], h_take⟩

/-- Of two prefixes that end a text, the longer one ends with the shorter one. -/
theorem take_suffix_take {w t : Text} {j k : Nat} (h_jk : j ≤ k) (h_j : w.take j <:+ t)
    (h_k : w.take k <:+ t) : w.take j <:+ w.take k :=
  List.suffix_of_suffix_length_le h_j h_k (by simp only [List.length_take]; omega)

/-- A border of equal characters is a prefix that ends a longer prefix. -/
theorem take_suffix_of_ends {w : Text} {j k : Nat} (h : Ends Eq (w.map Symbol.char) j k) :
    w.take j <:+ w.take k := by
  obtain ⟨h_jk, h⟩ := h
  -- both sides agree character by character
  have h_eq : w.take j = (w.take k).drop (k - j) := by
    apply List.ext_getElem?
    intro i
    rw [List.getElem?_drop, List.getElem?_take, List.getElem?_take]
    by_cases h_i : i < j
    · obtain ⟨σ, τ, h_σ, h_τ, h_στ⟩ := h i h_i
      subst h_στ
      rw [if_pos h_i, if_pos (by omega)]
      rw [List.getElem?_map, Option.map_eq_some_iff] at h_σ h_τ
      obtain ⟨a, h_a, rfl⟩ := h_σ
      obtain ⟨b, h_b, h_ba⟩ := h_τ
      rw [h_a, h_b, Symbol.char.inj h_ba]
    · rw [if_neg h_i, if_neg (by omega)]
  rw [h_eq]
  exact List.drop_suffix _ _

/-- A prefix that ends a longer prefix faces equal characters there. -/
theorem ends_of_take_suffix {w : Text} {j k : Nat} (h_jk : j ≤ k) (h_k : k ≤ w.length)
    (h : w.take j <:+ w.take k) : Ends Symbol.Shares (w.map Symbol.char) j k := by
  have h_eq := List.suffix_iff_eq_drop.1 h
  simp only [List.length_take, Nat.min_eq_left h_k, Nat.min_eq_left (Nat.le_trans h_jk h_k)] at h_eq
  refine ⟨h_jk, ?_⟩
  intro i h_i
  have h_get : w[i]? = w[k - j + i]? := by
    have h_at := congrArg (·[i]?) h_eq
    simp only [List.getElem?_drop, List.getElem?_take] at h_at
    rw [if_pos h_i, if_pos (by omega)] at h_at
    exact h_at
  have h_lt : k - j + i < w.length := by omega
  refine ⟨.char w[k - j + i], .char w[k - j + i], ?_, ?_, w[k - j + i], beq_self_eq_true _,
    beq_self_eq_true _⟩
  · rw [List.getElem?_map, h_get, List.getElem?_eq_getElem h_lt]
    rfl
  · rw [List.getElem?_map, List.getElem?_eq_getElem h_lt]
    rfl

/-! ## Links of a word -/

namespace Chain

/-- The symbols of a chain are the characters of a word. -/
def Spells (chain : Chain) (w : Text) : Prop := chain.symbols = w.map Symbol.char

namespace Spells

variable {chain : Chain} {w : Text}

theorem size_eq (h : chain.Spells w) : chain.size = w.length := by
  rw [size, h, List.length_map]

theorem length_pos (h : chain.Spells w) : 0 < w.length := h.size_eq ▸ chain.size_pos

theorem isMany_eq (h : chain.Spells w) (k : Nat) : chain.isMany k = false := by
  rw [isMany, h, List.getElem?_map]
  cases w[k]? <;> rfl

theorem accepts_iff (h : chain.Spells w) (k : Nat) (c : Char) :
    chain.accepts k c = true ↔ w[k]? = some c := by
  rw [accepts, h, List.getElem?_map]
  cases w[k]? with
  | none => simp
  | some a => simp [Symbol.accepts]

/-- What the link of a state keeps is what the partial match ends with. -/
theorem link_suffix (h : chain.Spells w) (k : Nat) : w.take (chain.link k) <:+ w.take k := by
  have h_ends := chain.ends_link (R := Eq) (fun _ _ _ => Eq.trans) (fun σ h_σ τ h_τ h_covers => by
    rw [h, List.mem_map] at h_σ h_τ
    obtain ⟨a, -, rfl⟩ := h_σ
    obtain ⟨b, -, rfl⟩ := h_τ
    exact congrArg Symbol.char (Symbol.char_covers_char.1 h_covers)) k
  rw [h] at h_ends
  exact take_suffix_of_ends h_ends

/-- Plain characters that share a character are the same. -/
theorem unambiguous (h : chain.Spells w) : chain.Unambiguous := by
  intro i j σ τ _ h_σ h_τ h_shares
  rw [h, List.getElem?_map, Option.map_eq_some_iff] at h_σ h_τ
  obtain ⟨a, -, rfl⟩ := h_σ
  obtain ⟨b, -, rfl⟩ := h_τ
  obtain ⟨c, h_a, h_b⟩ := h_shares
  obtain rfl : a = b := (beq_iff_eq.1 h_a).trans (beq_iff_eq.1 h_b).symm
  exact ⟨fun k _ _ => h.isMany_eq k, fun _ => Symbol.char_covers_char.2 rfl⟩

/-- From the other end the word is spelled backwards. -/
theorem reversed (h : chain.Spells w) : chain.reversed.Spells w.reverse := by
  rw [Spells, reversed_symbols, h, List.map_reverse]

theorem reversible (h : chain.Spells w) : chain.Reversible :=
  ⟨h.unambiguous, h.reversed.unambiguous⟩

/-- No shorter prefix that the partial match ends with is longer than the link. -/
theorem le_link (h : chain.Spells w) {j k : Nat} (h_k : k < w.length) (h_jk : j < k)
    (h_j : w.take j <:+ w.take k) : j ≤ chain.link k := by
  have h_ends := ends_of_take_suffix (Nat.le_of_lt h_jk) (Nat.le_of_lt h_k) h_j
  rw [← h] at h_ends
  exact h.unambiguous.le_link (h.size_eq ▸ h_k) h_jk h_ends

end Spells

end Chain

end PagedSearch
