/-
  PagedSearch.Proofs.Chain.Border

  What a partial match may rely on when it falls back. The symbols in front of
  a link take one character each, and they take whatever the symbols at the
  end of the partial match have taken; so a text that these have consumed they
  would have consumed too. Among plain characters the link is all that can be
  kept: the longest proper prefix of the matched symbols that is also their
  suffix (`link_border`).
-/
import PagedSearch.Proofs.Pattern.Literal
import PagedSearch.Proofs.Scan.Possessive

namespace PagedSearch

/-! ## Words -/

/-- Symbols that are all plain characters are those of a word. -/
theorem exists_word_of_isChar {symbols : List Symbol}
    (h : ∀ σ ∈ symbols, σ.isChar = true) : ∃ w : Text, symbols = w.map Symbol.char := by
  induction symbols with
  | nil => exact ⟨[], rfl⟩
  | cons σ symbols ih =>
    rw [List.forall_mem_cons] at h
    obtain ⟨w, rfl⟩ := ih h.2
    cases σ with
    | char c => exact ⟨c :: w, rfl⟩
    | set s => exact absurd h.1 Bool.false_ne_true
    | any => exact absurd h.1 Bool.false_ne_true
    | many σ => exact absurd h.1 Bool.false_ne_true

/-- Prefixes of a word end each other as their symbols do. -/
theorem take_map_char_suffix_iff {w : Text} {j k : Nat} :
    (w.map Symbol.char).take j <:+ (w.map Symbol.char).take k ↔ w.take j <:+ w.take k := by
  have h_injective : Function.Injective Symbol.char := fun _ _ => Symbol.char.inj
  rw [← List.map_take, ← List.map_take, List.suffix_map_iff_of_injective h_injective]

/-! ## Symbols along a link -/

namespace Chain

variable {chain : Chain} {k : Nat} {σ : Symbol}

/-- No repetition stands in front of a link. -/
theorem single_of_mem_take_link (h : σ ∈ chain.symbols.take (chain.link k)) :
    σ.isMany = false := by
  obtain ⟨i, h_i, h_σ⟩ := List.getElem_of_mem h
  rw [List.length_take] at h_i
  obtain ⟨-, h_ends⟩ := chain.ends_link_subsumes k
  obtain ⟨ρ, _, h_ρ, -, h_subsumes⟩ := h_ends i (by omega)
  rw [List.getElem_take] at h_σ
  obtain ⟨_, h_ρ⟩ := List.getElem?_eq_some_iff.1 h_ρ
  rw [← h_σ, h_ρ]
  exact h_subsumes.left_single

/-- What the last symbols of a partial match have taken, the symbols in front of its link take. -/
theorem fits_take_link {t : Text}
    (h : List.Forall₂ Fits ((chain.symbols.take k).drop (k - chain.link k)) t) :
    List.Forall₂ Fits (chain.symbols.take (chain.link k)) t :=
  fits_of_subsumes (chain.ends_link_subsumes k).forall₂ h

end Chain

/-- The link of a state is a border of what it has matched. It is shorter, there is no repetition on
    either side, and each of its symbols takes what the symbol that it faces takes, so the first
    symbols take each text that the last ones take. If all symbols are plain characters, no longer
    prefix is a border. -/
theorem link_border {symbols : List Symbol} {chain : Chain} {k : Nat}
    (h : Chain.ofSymbols? symbols = .ok chain) (h_pos : 1 ≤ k) (h_k : k < chain.size) :
    chain.link k < k ∧
    (∀ σ ∈ symbols.take (chain.link k), σ.isMany = false) ∧
    (∀ τ ∈ (symbols.take k).drop (k - chain.link k), τ.isMany = false) ∧
    (∀ i < chain.link k, ∃ σ τ, symbols[i]? = some σ ∧
      symbols[k - chain.link k + i]? = some τ ∧ ∀ c, τ.accepts c = true → σ.accepts c = true) ∧
    (∀ t, List.Forall₂ Fits ((symbols.take k).drop (k - chain.link k)) t →
      List.Forall₂ Fits (symbols.take (chain.link k)) t) ∧
    ((∀ σ ∈ symbols, σ.isChar = true) →
      symbols.take (chain.link k) <:+ symbols.take k ∧
      ∀ j < k, symbols.take j <:+ symbols.take k → j ≤ chain.link k) := by
  obtain rfl := Chain.symbols_of_ofSymbols? h
  refine ⟨chain.link_lt h_pos, fun σ h_σ => Chain.single_of_mem_take_link h_σ,
    single_of_subsumes (chain.ends_link_subsumes k).forall₂, ?_,
    fun t h_t => Chain.fits_take_link h_t, ?_⟩
  · intro i h_i
    obtain ⟨σ, τ, h_σ, h_τ, h_subsumes⟩ := (chain.ends_link_subsumes k).2 i h_i
    exact ⟨σ, τ, h_σ, h_τ, h_subsumes.accepts_of⟩
  · intro h_chars
    obtain ⟨w, h_w⟩ := exists_word_of_isChar h_chars
    have h_spells : chain.Spells w := h_w
    rw [h_w, take_map_char_suffix_iff]
    refine ⟨h_spells.link_suffix k, fun j h_j h_suffix => ?_⟩
    rw [take_map_char_suffix_iff] at h_suffix
    exact h_spells.le_link (h_spells.size_eq ▸ h_k) h_j h_suffix

/-- Behind a repetition the set and the `a` in front of it are left of what was matched; of `abaab`
    the `ab` is left, and nothing longer. -/
theorem link_border_abaab :
    (∃ symbols chain, symbols = [.set (.ofList ['a', 'b']), .char 'a', .many .any,
        .set (.ofList ['b']), .char 'a', .char 'c'] ∧
      Chain.ofSymbols? symbols = .ok chain ∧ 5 < chain.size ∧ chain.link 5 = 2 ∧
      ∀ t, List.Forall₂ Fits [.set (.ofList ['b']), .char 'a'] t →
        List.Forall₂ Fits [.set (.ofList ['a', 'b']), .char 'a'] t) ∧
    ∃ symbols chain, symbols = "abaabc".toList.map Symbol.char ∧
      Chain.ofSymbols? symbols = .ok chain ∧ 5 < chain.size ∧ chain.link 5 = 2 ∧
      (∀ σ ∈ symbols, σ.isChar = true) ∧
      ∀ j < 5, symbols.take j <:+ symbols.take 5 → j ≤ 2 := by
  constructor
  · let symbols : List Symbol := [.set (.ofList ['a', 'b']), .char 'a', .many .any,
      .set (.ofList ['b']), .char 'a', .char 'c']
    have h : Chain.ofSymbols? symbols = .ok ⟨symbols, linksOf symbols, rfl, rfl, rfl⟩ := rfl
    have h_link : (linksOf symbols).getD 5 0 = 2 := by decide +kernel
    obtain ⟨-, -, -, -, h_fits, -⟩ := link_border h (k := 5) (by decide) (by decide)
    rw [Chain.link, h_link] at h_fits
    exact ⟨symbols, _, rfl, h, by decide, h_link, h_fits⟩
  · let symbols : List Symbol := "abaabc".toList.map Symbol.char
    have h : Chain.ofSymbols? symbols = .ok ⟨symbols, linksOf symbols, rfl, rfl, rfl⟩ := rfl
    have h_link : (linksOf symbols).getD 5 0 = 2 := by decide +kernel
    have h_chars : ∀ σ ∈ symbols, σ.isChar = true := by decide
    obtain ⟨-, -, -, -, -, h_word⟩ := link_border h (k := 5) (by decide) (by decide)
    have h_longest := (h_word h_chars).2
    rw [Chain.link, h_link] at h_longest
    exact ⟨symbols, _, rfl, h, by decide, h_link, h_chars, h_longest⟩

end PagedSearch
