/-
  PagedSearch.Proofs.Pattern.Bracket

  Where a set ends. A backslash escapes the character behind it, and a set
  should reach to the first closing bracket that is not escaped. Single
  characters, escapes and most ranges never step over an escape or into one. But
  as the last character of a range a backslash stands for itself and escapes
  nothing, so a bracket behind it closes the set although it is escaped
  (`set_closes_early`). Unless such a range stands in front of a bracket or of
  another backslash, the set does reach that far (`set_closes`).
-/
import Mathlib.Data.List.Infix
import PagedSearch.Proofs.Pattern.Token

namespace PagedSearch

/-! ## Escaped brackets -/

/-- A text of escapes and other characters in which every closing bracket is escaped. -/
inductive Enclosed : Text → Prop where
  | nil : Enclosed []
  | escape (c : Char) {t : Text} : Enclosed t → Enclosed ('\\' :: c :: t)
  | plain {c : Char} {t : Text} : c ≠ ']' → c ≠ '\\' → Enclosed t → Enclosed (c :: t)

/-! ## Sets -/

/-- If the range goes from another character to a backslash, no bracket and no other backslash
    stands behind it in the text. -/
def CharRange.KeepsEscapes (source : Text) (r : CharRange) : Prop :=
  r.last = '\\' → r.first ≠ '\\' →
    ¬ [r.first, '-', '\\', ']'] <:+: source ∧ ¬ [r.first, '-', '\\', '\\'] <:+: source

instance (source : Text) (r : CharRange) : Decidable (r.KeepsEscapes source) :=
  inferInstanceAs (Decidable (_ → _))

theorem CharRange.KeepsEscapes.of_part {source part : Text} {r : CharRange}
    (h : r.KeepsEscapes source) (h_part : part <:+: source) : r.KeepsEscapes part := by
  intro h_last h_first
  obtain ⟨h_bracket, h_backslash⟩ := h h_last h_first
  exact ⟨fun h_inside => h_bracket (h_inside.trans h_part),
    fun h_inside => h_backslash (h_inside.trans h_part)⟩

/-- The ranges of the set that a symbol stands for. -/
def Symbol.ranges : Symbol → List CharRange
  | .set s => s.ranges
  | .many inner => inner.ranges
  | .char _ => []
  | .any => []

/-- Every range of a set keeps the escapes of the text that the set was read from. -/
def SetReading.KeepsEscapes (r : SetReading) : Prop :=
  ∀ range ∈ r.ranges, range.KeepsEscapes r.source

theorem SetReading.KeepsEscapes.of_cons {range : CharRange} {source : Text} {r : SetReading}
    (h : (r.cons range source).KeepsEscapes) :
    range.KeepsEscapes (source ++ r.source) ∧ r.KeepsEscapes := by
  obtain ⟨h_first, h_rest⟩ := List.forall_mem_cons.1 h
  refine ⟨h_first, ?_⟩
  intro other h_other
  exact (h_rest other h_other).of_part (List.suffix_append source r.source).isInfix

/-- A range that keeps their escapes may stand in front of other characters. -/
theorem Enclosed.range {r : CharRange} {t : Text} (h_close : r.first ≠ ']')
    (h_escape : r.first ≠ '\\') (h_last : r.last ≠ ']')
    (h_keeps : r.KeepsEscapes ([r.first, '-', r.last] ++ (t ++ [']']))) (h : Enclosed t) :
    Enclosed ([r.first, '-', r.last] ++ t) := by
  refine .plain h_close h_escape (.plain (by decide) (by decide) ?_)
  by_cases h_backslash : r.last = '\\'
  · -- the backslash is one more escape, and of a character that would do without
    obtain ⟨h_bracket, h_second⟩ := h_keeps h_backslash h_escape
    rw [h_backslash] at h_bracket h_second ⊢
    cases h with
    | nil => exact absurd (List.infix_refl _) h_bracket
    | @escape c t _ =>
      have h_prefix := List.prefix_append [r.first, '-', '\\', '\\'] (c :: t ++ [']'])
      exact absurd h_prefix.isInfix h_second
    | plain _ _ h => exact h.escape _
  · exact .plain h_last h_backslash h

/-- With such ranges only, a set is read up to the first bracket that is not escaped. -/
theorem readSet_enclosed {opening : Nat} {t : Text} {r : SetReading}
    (h : readSet opening t = .ok r) (h_keeps : r.KeepsEscapes) :
    ∃ body, Enclosed body ∧ r.source = body ++ [']'] := by
  fun_induction readSet opening t generalizing r with
  | case1 => exact absurd h (by simp)
  | case2 rest =>
    rw [← Except.ok.inj h]
    exact ⟨[], .nil, rfl⟩
  | case3 => exact absurd h (by simp)
  | case4 escaped rest _ ih =>
    -- an escape, whatever it escapes
    obtain ⟨r', h_r', rfl⟩ := ok_of_map_eq_ok h
    obtain ⟨body, h_body, h_source⟩ := ih h_r' h_keeps.of_cons.2
    exact ⟨_, h_body.escape escaped, congrArg (['\\', escaped] ++ ·) h_source⟩
  | case5 c h_close h_escape hyphen last behind h_range h_le ih =>
    obtain ⟨r', h_r', rfl⟩ := ok_of_map_eq_ok h
    obtain ⟨h_first, h_rest⟩ := h_keeps.of_cons
    obtain ⟨body, h_body, h_source⟩ := ih h_r' h_rest
    obtain ⟨rfl, h_last⟩ := h_range
    rw [h_source] at h_first
    exact ⟨_, h_body.range h_close h_escape h_last h_first, congrArg ([c, '-', last] ++ ·) h_source⟩
  | case6 => exact absurd h (by simp)
  | case7 c h_close h_escape hyphen last behind _ ih =>
    -- a character for itself: no range begins with it
    obtain ⟨r', h_r', rfl⟩ := ok_of_map_eq_ok h
    obtain ⟨body, h_body, h_source⟩ := ih h_r' h_keeps.of_cons.2
    exact ⟨_, .plain h_close h_escape h_body, congrArg ([c] ++ ·) h_source⟩
  | case8 c h_close h_escape one ih =>
    obtain ⟨r', h_r', rfl⟩ := ok_of_map_eq_ok h
    obtain ⟨body, h_body, h_source⟩ := ih h_r' h_keeps.of_cons.2
    exact ⟨_, .plain h_close h_escape h_body, congrArg ([c] ++ ·) h_source⟩
  | case9 => exact absurd h (by simp)

/-! ## Tokens -/

/-- The symbol that a set makes with the star behind it, or without one. -/
inductive SetStar (s : CharSet) : Option Symbol → Text → Prop where
  | once : SetStar s (some (.set s)) []
  | many : SetStar s (some (.many (.set s))) ['*']

section

variable {o : Lexing} {position : Nat} {rest left : Text} {t : Token}

/-- A bracket opens a set. -/
theorem exists_set_of_readToken (h_mode : o.mode = .wildcard)
    (h : readToken o position '[' rest = .ok (t, left)) :
    ∃ set, readSet position rest = .ok set ∧
      Token.withStar (.set ⟨set.ranges⟩) ('[' :: set.source) set.rest = (t, left) := by
  have h_open : IsOperator '[' := .inr (.inl rfl)
  rw [readToken_eq_ok_iff] at h
  cases h with
  | skipped h_skipped =>
    rw [h_open.significant] at h_skipped
    exact absurd h_skipped (by decide)
  | literal _ h_literal =>
    rw [h_mode] at h_literal
    exact absurd h_literal (by decide)
  | set _ h_set _ h_star => exact ⟨_, h_set, h_star⟩
  | plain _ _ h_plain _ => exact absurd h_open h_plain

/-- The token of a set is the set's text and perhaps a star. -/
theorem exists_star_of_withStar {s : CharSet} {source : Text}
    (h : Token.withStar (.set s) source rest = (t, left)) :
    ∃ star, SetStar s t.symbol star ∧ t.source = source ++ star ∧ rest = star ++ left := by
  unfold Token.withStar at h
  split at h
  · obtain ⟨rfl, rfl⟩ := Prod.mk.inj h
    exact ⟨['*'], .many, rfl, rfl⟩
  · obtain ⟨rfl, rfl⟩ := Prod.mk.inj h
    exact ⟨[], .once, (List.append_nil source).symm, rfl⟩

theorem SetStar.exists_ranges {s : CharSet} {symbol : Option Symbol} {star : Text}
    (h : SetStar s symbol star) : ∃ σ ∈ symbol, σ.ranges = s.ranges := by
  cases h with
  | once => exact ⟨_, rfl, rfl⟩
  | many => exact ⟨_, rfl, rfl⟩

/-- Reading goes on at the token behind some others. -/
theorem exists_of_readTokens_append {pattern : Text} {front back : List Token}
    (h : readTokens o position pattern = .ok (front ++ back)) :
    ∃ position' text, pattern = front.flatMap Token.source ++ text ∧
      readTokens o position' text = .ok back := by
  induction front generalizing position pattern with
  | nil => exact ⟨position, pattern, rfl, h⟩
  | cons u front ih =>
    obtain ⟨c, rest, left, rfl, h_u, h_left⟩ := eq_cons_of_readTokens h
    obtain ⟨position', text, rfl, h_text⟩ := ih h_left
    refine ⟨position', text, ?_, h_text⟩
    rw [List.flatMap_cons, List.append_assoc, readToken_source h_u]

/-- Tokens do not depend on the position where they are read. -/
theorem readTokens_elsewhere (h_mode : o.mode = .wildcard) {pattern : Text} {ts : List Token}
    (h : readTokens o position pattern = .ok ts) (position' : Nat) :
    readTokens o position' pattern = .ok ts := by
  have h_again := readTokens_flatMap (readsBack_of_readTokens h_mode h) position'
  rw [readTokens_source h] at h_again
  exact h_again

end

/-- A set reaches to the first closing bracket behind its opening one that is not escaped, unless a
    range that ends in a backslash stands in front of a bracket or of another backslash in it. What
    stands behind that bracket, and behind a star that repeats the set, is read as the tokens that
    follow. -/
theorem set_closes (o : Lexing) (h_mode : o.mode = .wildcard) (pattern : Text)
    (front back : List Token) (t : Token) (h_tokens : tokensOf o pattern = .ok (front ++ t :: back))
    (h_open : t.source.head? = some '[')
    (h_keeps : ∀ σ ∈ t.symbol, ∀ range ∈ σ.ranges, range.KeepsEscapes t.source) :
    ∃ s body star rest,
      pattern = front.flatMap Token.source ++ ('[' :: body ++ ']' :: star) ++ rest ∧
      Enclosed body ∧
      t.source = '[' :: body ++ ']' :: star ∧ SetStar s t.symbol star ∧
      tokensOf o rest = .ok back := by
  obtain ⟨position, text, rfl, h_text⟩ := exists_of_readTokens_append h_tokens
  obtain ⟨c, behind, rest, rfl, h_token, h_back⟩ := eq_cons_of_readTokens h_text
  have h_c : c = '[' := by
    obtain ⟨source, h_source⟩ := List.head?_eq_some_iff.1 h_open
    have h_behind := readToken_source h_token
    rw [h_source] at h_behind
    exact (List.cons.inj h_behind).1.symm
  subst h_c
  obtain ⟨set, h_set, h_star⟩ := exists_set_of_readToken h_mode h_token
  obtain ⟨star, h_symbol, h_source, -⟩ := exists_star_of_withStar h_star
  -- the ranges of the token are those of the set that was read, and its text is part of the token's
  obtain ⟨σ, h_σ, h_ranges⟩ := h_symbol.exists_ranges
  have h_part : set.source <:+: t.source := by
    rw [h_source]
    exact ⟨['['], star, rfl⟩
  have h_set_keeps : set.KeepsEscapes := by
    intro range h_range
    exact (h_keeps σ h_σ range (h_ranges ▸ h_range)).of_part h_part
  obtain ⟨body, h_body, h_set_source⟩ := readSet_enclosed h_set h_set_keeps
  have h_t : t.source = '[' :: body ++ ']' :: star := by
    rw [h_source, h_set_source, List.cons_append, List.cons_append, List.append_assoc,
      List.singleton_append]
  refine ⟨_, body, star, rest, ?_, h_body, h_t, h_symbol, readTokens_elsewhere h_mode h_back 0⟩
  rw [← h_t, List.append_assoc, readToken_source h_token]

/-- Escapes, hyphens and ranges, one of which ends in a backslash, in a set that is repeated, with a
    bracket behind it. -/
theorem set_closes_mixed :
    ∃ s body star rest,
      "x[a\\]+-\\b-d\\-0-9-]*y]".toList =
        "x".toList ++ ('[' :: body ++ ']' :: star) ++ rest ∧
      Enclosed body ∧
      "[a\\]+-\\b-d\\-0-9-]*".toList = '[' :: body ++ ']' :: star ∧
      SetStar s (some (.many (.set ⟨[.single 'a', .single ']', ⟨'+', '\\', by decide⟩,
        ⟨'b', 'd', by decide⟩, .single '-', ⟨'0', '9', by decide⟩, .single '-']⟩))) star ∧
      tokensOf ⟨.wildcard, true⟩ rest = .ok [⟨some (.char 'y'), ['y']⟩, ⟨some (.char ']'), [']']⟩] :=
  set_closes ⟨.wildcard, true⟩ rfl "x[a\\]+-\\b-d\\-0-9-]*y]".toList [⟨some (.char 'x'), ['x']⟩] _
    ⟨_, "[a\\]+-\\b-d\\-0-9-]*".toList⟩ (by cbv) rfl
    (by
      intro σ h_σ
      rw [← Option.some.inj h_σ]
      decide)

/-- Behind a range that ends in a backslash a bracket closes the set although it is escaped. -/
theorem set_closes_early :
    Enclosed "+-\\]a".toList ∧
      (tokensOf ⟨.wildcard, false⟩ "[+-\\]a]".toList).map (·.map Token.source) =
        .ok ["[+-\\]".toList, ['a'], [']']] := by
  constructor
  · exact .plain (by decide) (by decide) (.plain (by decide) (by decide)
      (.escape ']' (.plain (by decide) (by decide) .nil)))
  · cbv

end PagedSearch
