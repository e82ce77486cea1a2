/-
  PagedSearch.Proofs.Pattern.Literal

  Literal patterns. The word of a pattern is what takes part in a search: its
  folded characters without those that are skipped, in the order of reading.
  A literal pattern with a significant character compiles
  (`Chain.exists_compile_literal_iff`), and the chain spells its word
  (`Chain.spells_of_compile`).
-/
import PagedSearch.Chain.Compile
import PagedSearch.Proofs.Chain.Spelling

namespace PagedSearch

namespace Settings

/-- The significant characters of a pattern from left to right. -/
def significantOf (s : Settings) (pattern : Text) : Text :=
  (s.fold pattern).filter fun c => !s.skips c

/-- The significant characters of a pattern in the order of reading. -/
def word (s : Settings) (pattern : Text) : Text := s.inOrder (s.significantOf pattern)

end Settings

/-- Every character of a literal pattern is a token. -/
theorem readTokens_literal (skipHyphens : Bool) (position : Nat) (pattern : Text) :
    readTokens ⟨.literal, skipHyphens⟩ position pattern = .ok (pattern.map fun c =>
      ⟨if isInsignificant skipHyphens c then none else some (.char c), [c]⟩) := by
  induction pattern generalizing position with
  | nil => rw [readTokens, List.map_nil]
  | cons c pattern ih =>
    have h_token : readToken ⟨.literal, skipHyphens⟩ position c pattern =
        .ok (⟨if isInsignificant skipHyphens c then none else some (.char c), [c]⟩, pattern) := by
      rw [readToken.eq_def]
      by_cases h_c : isInsignificant skipHyphens c = true
      · rw [if_pos h_c, if_pos h_c]
      · rw [if_neg h_c, if_neg h_c, if_pos rfl]
    rw [readTokens]
    split
    · rename_i h_error
      rw [h_token] at h_error
      exact absurd h_error (by simp)
    · rename_i h_ok
      rw [h_token, Except.ok.injEq, Prod.mk.injEq] at h_ok
      rw [← h_ok.1, ← h_ok.2, ih, List.map_cons]
      rfl

theorem symbolsOf_literal (skipHyphens : Bool) (pattern : Text) :
    symbolsOf ⟨.literal, skipHyphens⟩ pattern =
      .ok ((pattern.filter fun c => !isInsignificant skipHyphens c).map .char) := by
  rw [symbolsOf, tokensOf, readTokens_literal]
  show Except.ok ((pattern.map _).filterMap Token.symbol) = _
  rw [List.filterMap_map, Except.ok.injEq]
  induction pattern with
  | nil => rfl
  | cons c pattern ih =>
    rw [List.filter_cons]
    by_cases h_c : isInsignificant skipHyphens c = true
    · rw [if_neg (by simp [h_c]), List.filterMap_cons_none (by simp [h_c]), ih]
    · rw [if_pos (by simp [h_c]), List.filterMap_cons_some (b := .char c) (by simp [h_c]), ih,
        List.map_cons]

theorem Chain.symbols_of_ofSymbols? {symbols : List Symbol} {chain : Chain}
    (h : Chain.ofSymbols? symbols = .ok chain) : chain.symbols = symbols := by
  unfold Chain.ofSymbols? at h
  split at h
  · exact absurd h (by simp)
  · split at h
    · rw [← Except.ok.inj h]
    · exact absurd h (by simp)

/-- Reversed symbols make the reversed chain. -/
theorem Chain.ofSymbols?_reverse (symbols : List Symbol) :
    Chain.ofSymbols? symbols.reverse = (Chain.ofSymbols? symbols).map Chain.reversed := by
  unfold Chain.ofSymbols?
  by_cases h_nil : symbols = []
  · rw [if_pos h_nil, if_pos (by rw [h_nil]; rfl)]
    rfl
  · rw [if_neg h_nil, if_neg (by rwa [List.reverse_eq_nil_iff])]
    -- the edges change places
    by_cases h_edges : symbols.head?.any (!·.isMany) ∧ symbols.getLast?.any (!·.isMany)
    · rw [dif_pos h_edges, dif_pos]
      · rfl
      · rw [List.head?_reverse, List.getLast?_reverse]
        exact h_edges.symm
    · rw [dif_neg h_edges, dif_neg]
      · rfl
      · rw [List.head?_reverse, List.getLast?_reverse]
        exact fun h => h_edges h.symm

/-- A literal pattern compiles as its word, character by character. -/
theorem Chain.compile_literal {settings : Settings} (h_mode : settings.mode = .literal)
    (pattern : Text) :
    Chain.compile settings pattern = Chain.ofSymbols? ((settings.word pattern).map .char) := by
  simp only [Chain.compile, Settings.lexing, h_mode, symbolsOf_literal]
  rw [Settings.word, Settings.inOrder.eq_def]
  cases settings.direction with
  | forward => rfl
  | backward =>
    simp only [reversePattern_literal]
    rw [List.filter_reverse]
    rfl

/-- A literal pattern compiles exactly if it has a significant character. -/
theorem Chain.exists_compile_literal_iff {s : Settings} {pattern : Text}
    (h_mode : s.mode = .literal) :
    (∃ chain, Chain.compile s pattern = .ok chain) ↔ s.significantOf pattern ≠ [] := by
  have h_word : s.word pattern = [] ↔ s.significantOf pattern = [] := by
    rw [Settings.word, Settings.inOrder.eq_def]
    cases s.direction with
    | forward => exact Iff.rfl
    | backward => exact List.reverse_eq_nil_iff
  rw [Chain.compile_literal h_mode, ne_eq, ← h_word, Chain.ofSymbols?]
  by_cases h_nil : s.word pattern = []
  · simp [h_nil]
  · -- no character is a repetition
    have h_fixed : ∀ σ ∈ (s.word pattern).map Symbol.char, (!σ.isMany) = true := by
      intro σ h_σ
      obtain ⟨c, -, rfl⟩ := List.mem_map.1 h_σ
      rfl
    have h_map : (s.word pattern).map Symbol.char ≠ [] := by rwa [ne_eq, List.map_eq_nil_iff]
    have h_edges : ((s.word pattern).map Symbol.char).head?.any (!·.isMany) = true ∧
        ((s.word pattern).map Symbol.char).getLast?.any (!·.isMany) = true := by
      rw [List.head?_eq_some_head h_map, List.getLast?_eq_some_getLast h_map]
      exact ⟨h_fixed _ (List.head_mem h_map), h_fixed _ (List.getLast_mem h_map)⟩
    rw [if_neg h_map, dif_pos h_edges]
    exact iff_of_true ⟨_, rfl⟩ h_nil

/-- The chain of a literal pattern spells its word. -/
theorem Chain.spells_of_compile {settings : Settings} {pattern : Text} {chain : Chain}
    (h_mode : settings.mode = .literal) (h : Chain.compile settings pattern = .ok chain) :
    chain.Spells (settings.word pattern) := by
  rw [Chain.compile_literal h_mode] at h
  exact Chain.symbols_of_ofSymbols? h

end PagedSearch
