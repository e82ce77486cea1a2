/-
  PagedSearch.Proofs.Pattern.Token

  Tokens do not depend on where they stand. What a token can be is listed
  once (`readToken_eq_ok_iff`). A token is read from its own text alone, as
  long as no star comes behind it, and no token starts with a star
  (`Token.ReadsBack`). So the texts of tokens in any order read as these
  tokens (`readTokens_flatMap`), in particular in reverse order
  (`tokensOf_reverse`), and no text is lost on the way (`readTokens_source`).

  Where a pattern can be read with tolerated hyphens, its tokens begin and end
  where they do when hyphens take part in the search (`readTokens_plain`).
-/
import PagedSearch.Pattern.Token

namespace PagedSearch

theorem ok_of_map_eq_ok {ε α β : Type} {f : α → β} {x : Except ε α} {b : β}
    (h : x.map f = .ok b) : ∃ a, x = .ok a ∧ f a = b := by
  cases x with
  | error e => exact absurd h (by simp [Except.map])
  | ok a => exact ⟨a, rfl, Except.ok.inj h⟩

/-! ## Sets -/

section

variable {opening : Nat} {t : Text} {r : SetReading}

theorem cons_source_getLast? (range : CharRange) (front : Text)
    (h : r.source.getLast? = some ']') : (r.cons range front).source.getLast? = some ']' := by
  show (front ++ r.source).getLast? = some ']'
  rw [List.getLast?_append, h]
  rfl

/-- A set is read up to its closing bracket. -/
theorem readSet_source_getLast? (h : readSet opening t = .ok r) :
    r.source.getLast? = some ']' := by
  fun_induction readSet opening t generalizing r with
  | case1 => exact absurd h (by simp)
  | case2 rest =>
    rw [← Except.ok.inj h]
    rfl
  | case3 => exact absurd h (by simp)
  | case4 escaped rest _ ih =>
    obtain ⟨r', h_r', rfl⟩ := ok_of_map_eq_ok h
    exact cons_source_getLast? _ _ (ih h_r')
  | case5 c _ _ hyphen last behind _ _ ih =>
    obtain ⟨r', h_r', rfl⟩ := ok_of_map_eq_ok h
    exact cons_source_getLast? _ _ (ih h_r')
  | case6 => exact absurd h (by simp)
  | case7 c _ _ hyphen last behind _ ih =>
    obtain ⟨r', h_r', rfl⟩ := ok_of_map_eq_ok h
    exact cons_source_getLast? _ _ (ih h_r')
  | case8 c _ _ one ih =>
    obtain ⟨r', h_r', rfl⟩ := ok_of_map_eq_ok h
    exact cons_source_getLast? _ _ (ih h_r')
  | case9 => exact absurd h (by simp)

/-- A text that makes the character in front of it the first one of a range. -/
def StartsRange (t : Text) : Prop := ∃ last behind, t = '-' :: last :: behind ∧ last ≠ ']'

theorem readSet_single {c : Char} (h_close : c ≠ ']') (h_escape : c ≠ '\\')
    (h_t : t ≠ []) (h_range : ¬ StartsRange t) :
    readSet opening (c :: t) = (readSet opening t).map (.cons (.single c) [c]) := by
  rw [readSet.eq_def]
  simp only [if_neg h_close, if_neg h_escape]
  rcases t with _ | ⟨hyphen, _ | ⟨last, behind⟩⟩
  · exact absurd rfl h_t
  · rfl
  · have h_not : ¬ (hyphen = '-' ∧ last ≠ ']') := by
      rintro ⟨rfl, h_last⟩
      exact h_range ⟨last, behind, rfl, h_last⟩
    exact if_neg h_not

/-- Whether a range starts is told by the text up to the closing bracket. -/
theorem startsRange_of_again (h : readSet opening t = .ok r) {behind : Text}
    (h_range : StartsRange (r.source ++ behind)) : StartsRange t := by
  have h_last := readSet_source_getLast? h
  have h_source := readSet_source h
  obtain ⟨last, rest, h_eq, h_ne⟩ := h_range
  match h_r : r.source with
  | [] => simp [h_r] at h_last
  | [one] =>
    -- the only character is the closing bracket
    rw [h_r] at h_last h_eq
    have h_one : one = ']' := by simpa using h_last
    have h_hyphen : one = '-' := (List.cons.inj h_eq).1
    rw [h_one] at h_hyphen
    exact absurd h_hyphen (by decide)
  | hyphen :: second :: more =>
    rw [h_r] at h_eq h_source
    simp only [List.cons_append, List.cons.injEq] at h_eq
    obtain ⟨rfl, rfl, -⟩ := h_eq
    exact ⟨second, more ++ r.rest, h_source.symm, h_ne⟩

/-- The text of a set reads as the set, whatever comes behind it. -/
theorem readSet_again (h : readSet opening t = .ok r) (opening' : Nat) (behind : Text) :
    readSet opening' (r.source ++ behind) = .ok ⟨r.ranges, r.source, behind⟩ := by
  -- a character that starts no range in `t` starts none in front of the other text
  have h_plain : ∀ {c : Char} {t : Text} {r' : SetReading}, c ≠ ']' → c ≠ '\\' →
      ¬ StartsRange t → readSet opening t = .ok r' →
      readSet opening' (r'.source ++ behind) = .ok ⟨r'.ranges, r'.source, behind⟩ →
      readSet opening' ((r'.cons (.single c) [c]).source ++ behind) =
        .ok ⟨(r'.cons (.single c) [c]).ranges, (r'.cons (.single c) [c]).source, behind⟩ := by
    intro c t r' h_close h_escape h_range h_r' h_again
    have h_ne : r'.source ++ behind ≠ [] := by
      have h_last := readSet_source_getLast? h_r'
      intro h_nil
      rw [(List.append_eq_nil_iff.1 h_nil).1] at h_last
      exact absurd h_last (by simp)
    have h_single := @readSet_single opening' (r'.source ++ behind) c h_close h_escape h_ne
      (mt (startsRange_of_again h_r') h_range)
    rw [h_again] at h_single
    exact h_single
  fun_induction readSet opening t generalizing r with
  | case1 => exact absurd h (by simp)
  | case2 rest =>
    rw [← Except.ok.inj h]
    show readSet opening' (']' :: behind) = _
    rw [readSet.eq_def]
    rfl
  | case3 => exact absurd h (by simp)
  | case4 escaped rest _ ih =>
    obtain ⟨r', h_r', rfl⟩ := ok_of_map_eq_ok h
    show readSet opening' ('\\' :: escaped :: (r'.source ++ behind)) = _
    rw [readSet.eq_def]
    show (readSet opening' (r'.source ++ behind)).map _ = _
    rw [ih h_r']
    rfl
  | case5 c h_close h_escape hyphen last rest h_range h_le ih =>
    obtain ⟨r', h_r', rfl⟩ := ok_of_map_eq_ok h
    show readSet opening' (c :: hyphen :: last :: (r'.source ++ behind)) = _
    rw [readSet.eq_def]
    simp only [if_neg h_close, if_neg h_escape, if_pos h_range, dif_pos h_le]
    rw [ih h_r']
    rfl
  | case6 => exact absurd h (by simp)
  | case7 c h_close h_escape hyphen last rest h_range ih =>
    obtain ⟨r', h_r', rfl⟩ := ok_of_map_eq_ok h
    apply h_plain h_close h_escape _ h_r' (ih h_r')
    rintro ⟨last', rest', h_eq, h_ne⟩
    simp only [List.cons.injEq] at h_eq
    exact h_range ⟨h_eq.1, h_eq.2.1 ▸ h_ne⟩
  | case8 c h_close h_escape one ih =>
    obtain ⟨r', h_r', rfl⟩ := ok_of_map_eq_ok h
    apply h_plain h_close h_escape _ h_r' (ih h_r')
    rintro ⟨last', rest', h_eq, h_ne⟩
    simp at h_eq
  | case9 => exact absurd h (by simp)
end

/-! ## Tokens -/

/-- The characters that mean something else than themselves in the wildcard dialect. -/
def IsOperator (c : Char) : Prop := c = '\\' ∨ c = '[' ∨ c = '.' ∨ c = '*'

theorem IsOperator.significant {c : Char} (h : IsOperator c) (skipHyphens : Bool) :
    isInsignificant skipHyphens c = false := by
  rcases h with rfl | rfl | rfl | rfl
  all_goals cases skipHyphens <;> decide

/-- The token that starts with a character at a position, kind by kind, and what is left. -/
inductive TokenAt (o : Lexing) (position : Nat) : Char → Text → Token → Text → Prop where
  /-- A blank or a tolerated hyphen. -/
  | skipped {c rest} : isInsignificant o.skipHyphens c = true →
      TokenAt o position c rest ⟨none, [c]⟩ rest
  /-- A character of a literal pattern. -/
  | literal {c rest} : isInsignificant o.skipHyphens c = false → o.mode = .literal →
      TokenAt o position c rest ⟨some (.char c), [c]⟩ rest
  | escapedSkipped {c rest} : o.mode = .wildcard → isInsignificant o.skipHyphens c = true →
      TokenAt o position '\\' (c :: rest) ⟨none, ['\\', c]⟩ rest
  | escaped {c rest t left} : o.mode = .wildcard → isInsignificant o.skipHyphens c = false →
      Token.withStar (.char c) ['\\', c] rest = (t, left) →
      TokenAt o position '\\' (c :: rest) t left
  | set {rest set t left} : o.mode = .wildcard → readSet position rest = .ok set →
      set.ranges.isEmpty = false →
      Token.withStar (.set ⟨set.ranges⟩) ('[' :: set.source) set.rest = (t, left) →
      TokenAt o position '[' rest t left
  | any {rest} : o.mode = .wildcard → rest.head? ≠ some '*' →
      TokenAt o position '.' rest ⟨some .any, ['.']⟩ rest
  /-- A character of the wildcard dialect that stands for itself. -/
  | plain {c rest t left} : o.mode = .wildcard → isInsignificant o.skipHyphens c = false →
      ¬ IsOperator c → Token.withStar (.char c) [c] rest = (t, left) →
      TokenAt o position c rest t left

theorem Mode.eq_wildcard {mode : Mode} (h : mode ≠ .literal) : mode = .wildcard := by
  cases mode with
  | literal => exact absurd rfl h
  | wildcard => rfl

/-- What a token reading can be, and nothing else is. -/
theorem readToken_eq_ok_iff {o : Lexing} {position : Nat} {c : Char} {rest left : Text}
    {t : Token} :
    readToken o position c rest = .ok (t, left) ↔ TokenAt o position c rest t left := by
  constructor
  · intro h
    rw [readToken.eq_def] at h
    split at h
    · rename_i h_skipped
      obtain ⟨rfl, rfl⟩ := Prod.mk.inj (Except.ok.inj h)
      exact .skipped h_skipped
    rename_i h_skipped
    rw [Bool.not_eq_true] at h_skipped
    split at h
    · rename_i h_mode
      obtain ⟨rfl, rfl⟩ := Prod.mk.inj (Except.ok.inj h)
      exact .literal h_skipped h_mode
    rename_i h_mode
    have h_mode := Mode.eq_wildcard h_mode
    split at h
    · rename_i h_escape
      subst h_escape
      split at h
      · exact absurd h (by simp)
      · rename_i escaped rest
        split at h
        · rename_i h_escaped
          obtain ⟨rfl, rfl⟩ := Prod.mk.inj (Except.ok.inj h)
          exact .escapedSkipped h_mode h_escaped
        · rename_i h_escaped
          rw [Bool.not_eq_true] at h_escaped
          exact .escaped h_mode h_escaped (Except.ok.inj h)
    rename_i h_escape
    split at h
    · rename_i h_open
      subst h_open
      split at h
      · exact absurd h (by simp)
      · rename_i set h_set
        split at h
        · exact absurd h (by simp)
        · rename_i h_members
          rw [Bool.not_eq_true] at h_members
          exact .set h_mode h_set h_members (Except.ok.inj h)
    rename_i h_open
    split at h
    · rename_i h_any
      subst h_any
      split at h
      · exact absurd h (by simp)
      · rename_i h_star
        obtain ⟨rfl, rfl⟩ := Prod.mk.inj (Except.ok.inj h)
        exact .any h_mode h_star
    rename_i h_any
    split at h
    · exact absurd h (by simp)
    · rename_i h_repeat
      refine .plain h_mode h_skipped ?_ (Except.ok.inj h)
      rintro (h_c | h_c | h_c | h_c)
      · exact h_escape h_c
      · exact h_open h_c
      · exact h_any h_c
      · exact h_repeat h_c
  · intro h
    rw [readToken.eq_def]
    cases h with
    | skipped h_skipped => rw [if_pos h_skipped]
    | literal h_skipped h_mode => rw [if_neg (Bool.eq_false_iff.1 h_skipped), if_pos h_mode]
    | escapedSkipped h_mode h_c =>
      simp [h_mode, h_c, IsOperator.significant (.inl rfl)]
    | escaped h_mode h_c h_star =>
      simp [h_mode, h_c, h_star, IsOperator.significant (.inl rfl)]
    | set h_mode h_set h_members h_star =>
      simp [h_mode, h_set, h_members, h_star, IsOperator.significant (.inr (.inl rfl))]
    | any h_mode h_star =>
      simp [h_mode, h_star, IsOperator.significant (.inr (.inr (.inl rfl)))]
    | plain h_mode h_skipped h_plain h_star =>
      simp only [IsOperator, not_or] at h_plain
      simp [h_mode, h_skipped, h_star, h_plain]

theorem withStar_of_head?_ne {σ : Symbol} {source rest : Text} (h : rest.head? ≠ some '*') :
    Token.withStar σ source rest = (⟨some σ, source⟩, rest) := by
  unfold Token.withStar
  split
  · exact absurd rfl h
  · rfl

/-- A star is read if one follows and else none, whatever comes behind. -/
theorem withStar_again {σ : Symbol} {source rest left left' : Text} {t : Token}
    (h : Token.withStar σ source rest = (t, left)) (h_left' : left'.head? ≠ some '*') :
    ∃ star, t.source = source ++ star ∧ Token.withStar σ source (star ++ left') = (t, left') := by
  unfold Token.withStar at h
  split at h
  · rename_i behind
    rw [← (Prod.mk.inj h).1]
    exact ⟨['*'], rfl, rfl⟩
  · rw [← (Prod.mk.inj h).1]
    exact ⟨[], (List.append_nil source).symm, withStar_of_head?_ne h_left'⟩

/-- The text of a token reads as the token in front of any text that does not start with a
    star. -/
theorem readToken_again {o : Lexing} {position : Nat} {c : Char} {rest left : Text} {t : Token}
    (h : readToken o position c rest = .ok (t, left)) (position' : Nat) {left' : Text}
    (h_left' : left'.head? ≠ some '*') :
    ∃ source, t.source = c :: source ∧
      readToken o position' c (source ++ left') = .ok (t, left') := by
  simp only [readToken_eq_ok_iff] at h ⊢
  cases h with
  | skipped h_skipped => exact ⟨[], rfl, .skipped h_skipped⟩
  | literal h_skipped h_mode => exact ⟨[], rfl, .literal h_skipped h_mode⟩
  | @escapedSkipped c _ h_mode h_c => exact ⟨[c], rfl, .escapedSkipped h_mode h_c⟩
  | @escaped c _ _ _ h_mode h_c h_star =>
    obtain ⟨star, h_source, h_again⟩ := withStar_again h_star h_left'
    exact ⟨c :: star, h_source, .escaped h_mode h_c h_again⟩
  | @set _ set _ _ h_mode h_set h_members h_star =>
    obtain ⟨star, h_source, h_again⟩ := withStar_again h_star h_left'
    refine ⟨set.source ++ star, h_source, ?_⟩
    rw [List.append_assoc]
    exact .set h_mode (readSet_again h_set position' (star ++ left')) h_members h_again
  | any h_mode _ => exact ⟨[], rfl, .any h_mode h_left'⟩
  | plain h_mode h_skipped h_plain h_star =>
    obtain ⟨star, h_source, h_again⟩ := withStar_again h_star h_left'
    exact ⟨star, h_source, .plain h_mode h_skipped h_plain h_again⟩

theorem readToken_ne_star {o : Lexing} (h_mode : o.mode = .wildcard) {position : Nat} {c : Char}
    {rest left : Text} {t : Token} (h : readToken o position c rest = .ok (t, left)) :
    c ≠ '*' := by
  have h_star : IsOperator '*' := .inr (.inr (.inr rfl))
  rw [readToken_eq_ok_iff] at h
  rintro rfl
  cases h with
  | skipped h_skipped =>
    rw [h_star.significant] at h_skipped
    exact absurd h_skipped (by decide)
  | literal _ h_literal =>
    rw [h_mode] at h_literal
    exact absurd h_literal (by decide)
  | plain _ _ h_plain _ => exact h_plain h_star

/-- Where a pattern can be read with tolerated hyphens, a token begins and ends where it does when
    hyphens take part in the search. -/
theorem readToken_plain {skipHyphens : Bool} {position : Nat} {c : Char} {rest left : Text}
    {t : Token} (h : readToken ⟨.wildcard, skipHyphens⟩ position c rest = .ok (t, left))
    (h_left : left.head? ≠ some '*') :
    ∃ u, readToken ⟨.wildcard, false⟩ position c rest = .ok (u, left) ∧ u.source = t.source := by
  have h_significant : ∀ {a : Char}, isInsignificant skipHyphens a = false →
      isInsignificant false a = false := by
    intro a h_a
    rw [isInsignificant, Bool.or_eq_false_iff] at h_a
    rw [isInsignificant, h_a.1]
    rfl
  simp only [readToken_eq_ok_iff] at h ⊢
  cases h with
  | skipped h_skipped =>
    cases h_c : isInsignificant false c with
    | true => exact ⟨_, .skipped h_c, rfl⟩
    | false =>
      -- a tolerated hyphen stands for itself, and no star follows it
      refine ⟨_, .plain rfl h_c ?_ (withStar_of_head?_ne h_left), rfl⟩
      intro h_operator
      have h_skipped' : isInsignificant skipHyphens c = true := h_skipped
      rw [h_operator.significant] at h_skipped'
      exact absurd h_skipped' (by decide)
  | literal _ h_mode => exact absurd h_mode (by simp)
  | @escapedSkipped c _ _ _ =>
    cases h_c : isInsignificant false c with
    | true => exact ⟨_, .escapedSkipped rfl h_c, rfl⟩
    | false => exact ⟨_, .escaped rfl h_c (withStar_of_head?_ne h_left), rfl⟩
  | escaped _ h_c h_star => exact ⟨t, .escaped rfl (h_significant h_c) h_star, rfl⟩
  | set _ h_set h_members h_star => exact ⟨t, .set rfl h_set h_members h_star, rfl⟩
  | any _ h_star => exact ⟨_, .any rfl h_star, rfl⟩
  | plain _ h_c h_plain h_star => exact ⟨t, .plain rfl (h_significant h_c) h_plain h_star, rfl⟩

/-! ## Patterns -/

section

variable {o : Lexing} {position : Nat} {pattern : Text} {t : Token} {ts : List Token}

theorem readTokens_cons {c : Char} {rest left : Text}
    (h : readToken o position c rest = .ok (t, left)) :
    readTokens o position (c :: rest) =
      (readTokens o (position + t.source.length) left).map (t :: ·) := by
  rw [readTokens]
  split
  · rename_i h_error
    rw [h] at h_error
    exact absurd h_error (by simp)
  · rename_i h_ok
    rw [h] at h_ok
    obtain ⟨rfl, rfl⟩ := Prod.mk.inj (Except.ok.inj h_ok)
    rfl

theorem eq_nil_of_readTokens (h : readTokens o position pattern = .ok []) : pattern = [] := by
  match pattern with
  | [] => rfl
  | c :: rest =>
    rw [readTokens] at h
    split at h
    · exact absurd h (by simp)
    · obtain ⟨ts, -, h_eq⟩ := ok_of_map_eq_ok h
      exact absurd h_eq (by simp)

/-- The first token, and the others behind it. -/
theorem eq_cons_of_readTokens (h : readTokens o position pattern = .ok (t :: ts)) :
    ∃ c rest left, pattern = c :: rest ∧ readToken o position c rest = .ok (t, left) ∧
      readTokens o (position + t.source.length) left = .ok ts := by
  match pattern with
  | [] =>
    rw [readTokens] at h
    exact absurd h (by simp)
  | c :: rest =>
    rw [readTokens] at h
    split at h
    · exact absurd h (by simp)
    · rename_i h_token
      obtain ⟨ts', h_ts, h_eq⟩ := ok_of_map_eq_ok h
      obtain ⟨rfl, rfl⟩ := List.cons.inj h_eq
      exact ⟨c, rest, _, rfl, h_token, h_ts⟩

/-- The texts of the tokens make up the pattern. -/
theorem readTokens_source (h : readTokens o position pattern = .ok ts) :
    ts.flatMap Token.source = pattern := by
  induction ts generalizing position pattern with
  | nil => rw [eq_nil_of_readTokens h, List.flatMap_nil]
  | cons t ts ih =>
    obtain ⟨c, rest, left, rfl, h_token, h_left⟩ := eq_cons_of_readTokens h
    rw [List.flatMap_cons, ih h_left, readToken_source h_token]

theorem readTokens_head?_ne (h_mode : o.mode = .wildcard)
    (h : readTokens o position pattern = .ok ts) : pattern.head? ≠ some '*' := by
  cases ts with
  | nil =>
    rw [eq_nil_of_readTokens h]
    simp
  | cons t ts =>
    obtain ⟨c, rest, left, rfl, h_token, -⟩ := eq_cons_of_readTokens h
    intro h_head
    exact readToken_ne_star h_mode h_token (Option.some.inj h_head)

/-- A token is read from its text wherever that stands, if no star comes behind it; and its text
    does not start with a star. -/
structure Token.ReadsBack (o : Lexing) (t : Token) : Prop where
  starts : ∃ c source, t.source = c :: source ∧ c ≠ '*'
  reads : ∀ (position : Nat) (left : Text), left.head? ≠ some '*' →
    readTokens o position (t.source ++ left) =
      (readTokens o (position + t.source.length) left).map (t :: ·)

theorem readsBack_of_readTokens (h_mode : o.mode = .wildcard)
    (h : readTokens o position pattern = .ok ts) : ∀ t ∈ ts, t.ReadsBack o := by
  induction ts generalizing position pattern with
  | nil => exact fun t h_t => absurd h_t List.not_mem_nil
  | cons u ts ih =>
    obtain ⟨c, rest, left, rfl, h_token, h_left⟩ := eq_cons_of_readTokens h
    intro t h_t
    rcases List.mem_cons.1 h_t with rfl | h_t
    · constructor
      · obtain ⟨source, h_source, -⟩ := @readToken_again _ _ _ _ _ _ h_token 0 [] (by simp)
        exact ⟨c, source, h_source, readToken_ne_star h_mode h_token⟩
      · intro position' left' h_left'
        obtain ⟨source, h_source, h_again⟩ := readToken_again h_token position' h_left'
        rw [h_source, List.cons_append, readTokens_cons h_again, h_source]
    · exact ih h_left t h_t

/-- The texts of such tokens, one behind the other, read as the tokens. -/
theorem readTokens_flatMap (h : ∀ t ∈ ts, t.ReadsBack o) (position : Nat) :
    readTokens o position (ts.flatMap Token.source) = .ok ts := by
  induction ts generalizing position with
  | nil =>
    rw [List.flatMap_nil, readTokens]
  | cons t ts ih =>
    have h_t := h t List.mem_cons_self
    have h_ts : ∀ u ∈ ts, u.ReadsBack o := fun u h_u => h u (List.mem_cons_of_mem t h_u)
    -- what comes behind the first token starts as the second one does
    have h_head : (ts.flatMap Token.source).head? ≠ some '*' := by
      cases ts with
      | nil => simp
      | cons u ts =>
        obtain ⟨c, source, h_source, h_c⟩ := (h_ts u List.mem_cons_self).starts
        rw [List.flatMap_cons, h_source]
        exact fun h_head => h_c (Option.some.inj h_head)
    rw [List.flatMap_cons, h_t.reads position _ h_head, ih h_ts]
    rfl

/-- The tokens of a pattern in reverse order are read from their texts in reverse order. -/
theorem tokensOf_reverse (h_mode : o.mode = .wildcard) (h : tokensOf o pattern = .ok ts) :
    tokensOf o (ts.reverse.flatMap Token.source) = .ok ts.reverse := by
  apply readTokens_flatMap
  intro t h_t
  exact readsBack_of_readTokens h_mode h t (List.mem_reverse.1 h_t)

theorem readTokens_plain {skipHyphens : Bool}
    (h : readTokens ⟨.wildcard, skipHyphens⟩ position pattern = .ok ts) :
    ∃ us, readTokens ⟨.wildcard, false⟩ position pattern = .ok us ∧
      us.map Token.source = ts.map Token.source := by
  induction ts generalizing position pattern with
  | nil =>
    rw [eq_nil_of_readTokens h]
    refine ⟨[], ?_, rfl⟩
    rw [readTokens]
  | cons t ts ih =>
    obtain ⟨c, rest, left, rfl, h_token, h_left⟩ := eq_cons_of_readTokens h
    obtain ⟨u, h_u, h_source⟩ := readToken_plain h_token (readTokens_head?_ne rfl h_left)
    obtain ⟨us, h_us, h_sources⟩ := ih h_left
    refine ⟨u :: us, ?_, ?_⟩
    · rw [readTokens_cons h_u, h_source, h_us]
      rfl
    · rw [List.map_cons, List.map_cons, h_source, h_sources]

end

end PagedSearch
