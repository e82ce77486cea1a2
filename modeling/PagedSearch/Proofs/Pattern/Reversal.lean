/-
  PagedSearch.Proofs.Pattern.Reversal

  Reversed patterns. A pattern is reversed as if hyphens took part in the
  search; if it can be read, its reversal has the reversed tokens all the
  same (`tokensOf_reversePattern`), and reversing is undone by reversing again
  (`tokensOf_mirrored`). So a pattern compiles as its symbols in the order of
  reading (`Chain.compile_eq`), and in the other direction it makes the
  reversed chain or fails with the same error (`Chain.compile_turned`).
-/
import PagedSearch.Proofs.Pattern.Literal
import PagedSearch.Proofs.Pattern.Token

namespace PagedSearch

/-! ## Reversed patterns -/

theorem reversePattern_wildcard {skipHyphens : Bool} {pattern : Text} {ts : List Token}
    (h : tokensOf ⟨.wildcard, skipHyphens⟩ pattern = .ok ts) :
    reversePattern .wildcard pattern = ts.reverse.flatMap Token.source := by
  obtain ⟨us, h_us, h_sources⟩ := readTokens_plain h
  rw [reversePattern, tokensOf, h_us]
  show us.reverse.flatMap Token.source = _
  rw [List.flatMap_def, List.flatMap_def, List.map_reverse, List.map_reverse, h_sources]

/-- A reversed pattern has the tokens in reverse order. -/
theorem tokensOf_reversePattern {o : Lexing} {pattern : Text} {ts : List Token}
    (h : tokensOf o pattern = .ok ts) :
    tokensOf o (reversePattern o.mode pattern) = .ok ts.reverse := by
  obtain ⟨mode, skipHyphens⟩ := o
  cases mode with
  | literal =>
    rw [tokensOf, readTokens_literal, Except.ok.injEq] at h
    rw [reversePattern_literal, tokensOf, readTokens_literal, ← h, List.map_reverse]
  | wildcard =>
    show tokensOf _ (reversePattern .wildcard pattern) = _
    rw [reversePattern_wildcard h]
    exact tokensOf_reverse rfl h

/-- A reversed pattern has the reversed symbols. -/
theorem symbolsOf_reversePattern {o : Lexing} {pattern : Text} {symbols : List Symbol}
    (h : symbolsOf o pattern = .ok symbols) :
    symbolsOf o (reversePattern o.mode pattern) = .ok symbols.reverse := by
  obtain ⟨ts, h_ts, rfl⟩ := ok_of_map_eq_ok h
  rw [symbolsOf, tokensOf_reversePattern h_ts]
  show Except.ok (ts.reverse.filterMap Token.symbol) = _
  rw [List.filterMap_reverse]

/-- The texts of the tokens make up the pattern that they were read from. The reversed pattern is
    read as the same tokens in reverse order, whether hyphens are skipped or not, so reversing it
    once more gives the pattern back. -/
theorem tokensOf_mirrored (o : Lexing) (pattern : Text) (ts : List Token)
    (h : tokensOf o pattern = .ok ts) :
    ts.flatMap Token.source = pattern ∧
      tokensOf o (reversePattern o.mode pattern) = .ok ts.reverse ∧
      reversePattern o.mode (reversePattern o.mode pattern) = pattern := by
  have h_source : ts.flatMap Token.source = pattern := readTokens_source h
  have h_reverse := tokensOf_reversePattern h
  refine ⟨h_source, h_reverse, ?_⟩
  -- reversed twice the pattern has its own tokens, and these have only one text
  have h_twice := tokensOf_reversePattern h_reverse
  rw [List.reverse_reverse] at h_twice
  exact (readTokens_source h_twice).symm.trans h_source

/-- A repeated escape of a star, an escaped blank, and a repeated set in which a bracket is escaped
    and a backslash ends a range. -/
theorem tokensOf_mirrored_bracket :
    tokensOf ⟨.wildcard, false⟩ "\\**\\ [\\]+-\\]*.".toList = .ok
        [⟨some (.many (.char '*')), "\\**".toList⟩, ⟨none, "\\ ".toList⟩,
          ⟨some (.many (.set ⟨[.single ']', ⟨'+', '\\', by decide⟩]⟩)), "[\\]+-\\]*".toList⟩,
          ⟨some .any, ['.']⟩] ∧
      tokensOf ⟨.wildcard, false⟩ (reversePattern .wildcard "\\**\\ [\\]+-\\]*.".toList) = .ok
        [⟨some .any, ['.']⟩,
          ⟨some (.many (.set ⟨[.single ']', ⟨'+', '\\', by decide⟩]⟩)), "[\\]+-\\]*".toList⟩,
          ⟨none, "\\ ".toList⟩, ⟨some (.many (.char '*')), "\\**".toList⟩] := by
  have h : tokensOf ⟨.wildcard, false⟩ "\\**\\ [\\]+-\\]*.".toList = .ok
      [⟨some (.many (.char '*')), "\\**".toList⟩, ⟨none, "\\ ".toList⟩,
        ⟨some (.many (.set ⟨[.single ']', ⟨'+', '\\', by decide⟩]⟩)), "[\\]+-\\]*".toList⟩,
        ⟨some .any, ['.']⟩] := by cbv
  exact ⟨h, (tokensOf_mirrored _ _ _ h).2.1⟩

/-- Reversing a pattern brings no other characters into it. -/
theorem mem_of_mem_reversePattern {mode : Mode} {pattern : Text} {c : Char}
    (h : c ∈ reversePattern mode pattern) : c ∈ pattern := by
  cases mode with
  | literal => exact List.mem_reverse.1 h
  | wildcard =>
    rw [reversePattern.eq_def] at h
    simp only at h
    split at h
    · rename_i ts h_ts
      obtain ⟨t, h_t, h_c⟩ := List.mem_flatMap.1 h
      rw [← readTokens_source h_ts]
      exact List.mem_flatMap.2 ⟨t, List.mem_reverse.1 h_t, h_c⟩
    · exact List.mem_reverse.1 h

/-! ## Chains -/

/-- In the other direction a list is met from its other end. -/
theorem Settings.inOrder_turned {α : Type} {s : Settings} {dir : Direction}
    (h : s.direction ≠ dir) (l : List α) :
    (s.turned dir).inOrder l = (s.inOrder l).reverse := by
  rw [Settings.inOrder.eq_def, Settings.inOrder.eq_def, Settings.turned_direction]
  cases h_dir : s.direction with
  | forward =>
    cases dir with
    | forward => exact absurd h_dir h
    | backward => rfl
  | backward =>
    cases dir with
    | forward => exact (List.reverse_reverse _).symm
    | backward => exact absurd h_dir h

/-- A pattern compiles as its symbols in the order of reading. -/
theorem Chain.compile_eq (settings : Settings) (pattern : Text) :
    Chain.compile settings pattern =
      (symbolsOf settings.lexing (settings.fold pattern)).bind fun symbols =>
        Chain.ofSymbols? (settings.inOrder symbols) := by
  rw [Chain.compile.eq_def]
  simp only
  cases h : symbolsOf settings.lexing (settings.fold pattern) with
  | error e => rfl
  | ok symbols =>
    have h_reverse := symbolsOf_reversePattern h
    show _ = Chain.ofSymbols? (settings.inOrder symbols)
    rw [Settings.inOrder.eq_def]
    cases settings.direction with
    | forward => rfl
    | backward =>
      simp only
      rw [show settings.mode = settings.lexing.mode from rfl, h_reverse]

theorem Chain.compile_nil (settings : Settings) : Chain.compile settings [] = .error .empty := by
  have h_fold : settings.fold [] = [] := by rw [Settings.fold_eq_map, List.map_nil]
  have h_symbols : symbolsOf settings.lexing [] = .ok [] := by
    rw [symbolsOf, tokensOf, readTokens]
    rfl
  have h_order : settings.inOrder ([] : List Symbol) = [] := by
    rw [Settings.inOrder.eq_def]
    cases settings.direction with
    | forward => rfl
    | backward => rfl
  rw [Chain.compile_eq, h_fold, h_symbols]
  show Chain.ofSymbols? (settings.inOrder []) = _
  rw [h_order]
  rfl

/-- A pattern read in the other direction makes the reversed chain, or fails as it did before. -/
theorem Chain.compile_turned {s : Settings} (pattern : Text) {dir : Direction}
    (h : s.direction ≠ dir) :
    Chain.compile (s.turned dir) pattern = (Chain.compile s pattern).map Chain.reversed := by
  rw [Chain.compile_eq, Chain.compile_eq]
  show (symbolsOf s.lexing (s.fold pattern)).bind _ = _
  cases symbolsOf s.lexing (s.fold pattern) with
  | error e => rfl
  | ok symbols =>
    show Chain.ofSymbols? ((s.turned dir).inOrder symbols) =
      (Chain.ofSymbols? (s.inOrder symbols)).map Chain.reversed
    rw [Settings.inOrder_turned h, Chain.ofSymbols?_reverse]

/-- A pattern that is compiled for a backward search comes to what it comes to for a forward one,
    reversed: to the reversed chain with the links of that, or to the same error at the same
    position. What is reversed twice is as it was. -/
theorem compile_backward (settings : Settings) (pattern : Text) :
    Chain.compile (settings.turned .backward) pattern =
      (Chain.compile (settings.turned .forward) pattern).map Chain.reversed ∧
    ∀ dir, ((Chain.compile (settings.turned dir) pattern).map Chain.reversed).map Chain.reversed =
      Chain.compile (settings.turned dir) pattern := by
  constructor
  · have h_dir : (settings.turned .forward).direction ≠ .backward := by
      rw [Settings.turned_direction]
      decide
    exact Chain.compile_turned pattern h_dir
  · intro dir
    cases Chain.compile (settings.turned dir) pattern with
    | ok chain => exact congrArg Except.ok chain.reversed_reversed
    | error e => rfl

/-- An error names the position in the pattern as it was written. Read backward, a repeated set is
    still one symbol, and an escaped hyphen that is skipped makes none. -/
example :
    Chain.compile { mode := .wildcard, hyphenTolerant := true, direction := .backward }
        "b*\\-c[".toList = .error (.unclosedSet 5) ∧
      (Chain.compile { mode := .wildcard, hyphenTolerant := true, direction := .backward }
        "a\\-[b-d]*.".toList).map Chain.symbols =
          .ok [.any, .many (.set ⟨[⟨'b', 'd', by decide⟩]⟩), .char 'a'] := by
  constructor <;> cbv

end PagedSearch
