/-
  PagedSearch.Pattern.Token

  Reading a pattern into tokens. The wildcard dialect knows

    \x        the character x itself
    [abc]     one of a set, with ranges such as a-z and escapes in it
    .         any one character
    x*        as many x in a row as there are, x a character, escape or set

  A token keeps the text it was read from; blanks and tolerated hyphens are
  tokens without a symbol. `readSet_source` and `readToken_source` say that
  what a token was read from and what is left make up the text.
-/
import PagedSearch.Settings
import PagedSearch.Symbol
import PagedSearch.Pattern.Error

namespace PagedSearch

/-- A piece of a pattern and the symbol it stands for, if it takes part in a search. -/
structure Token where
  symbol : Option Symbol
  source : Text
deriving DecidableEq, Repr

/-- How a pattern is cut into tokens. -/
structure Lexing where
  mode : Mode
  skipHyphens : Bool
deriving DecidableEq, Repr

/-- How these settings cut a pattern. -/
def Settings.lexing (s : Settings) : Lexing := ⟨s.mode, s.hyphenTolerant⟩

/-! ## Sets -/

/-- A set as it was read: its ranges, the text up to the closing bracket included, and what is
    left behind it. -/
structure SetReading where
  ranges : List CharRange
  source : Text
  rest : Text
deriving DecidableEq, Repr

/-- Puts a range in front of a set, with the text it was read from. -/
def SetReading.cons (range : CharRange) (source : Text) (r : SetReading) : SetReading :=
  { r with ranges := range :: r.ranges, source := source ++ r.source }

/-- Reads a set from behind its opening bracket, which stands at `opening`. -/
def readSet (opening : Nat) : Text → Except PatternError SetReading
  | [] => .error (.unclosedSet opening)
  | c :: rest =>
    if c = ']' then .ok ⟨[], [c], rest⟩
    else if c = '\\' then
      match rest with
      | [] => .error (.unclosedSet opening)
      | escaped :: rest => (readSet opening rest).map (.cons (.single escaped) [c, escaped])
    else
      match rest with
      | hyphen :: last :: behind =>
        -- a hyphen in front of the closing bracket is one of the set
        if hyphen = '-' ∧ last ≠ ']' then
          if h : c ≤ last then
            (readSet opening behind).map (.cons ⟨c, last, h⟩ [c, hyphen, last])
          else .error (.descendingRange c last)
        else (readSet opening (hyphen :: last :: behind)).map (.cons (.single c) [c])
      | [one] => (readSet opening [one]).map (.cons (.single c) [c])
      | [] => .error (.unclosedSet opening)

/-! ## Tokens -/

/-- A symbol read from `source`, repeated if a star follows. -/
def Token.withStar (σ : Symbol) (source rest : Text) : Token × Text :=
  match rest with
  | '*' :: behind => (⟨some (.many σ), source ++ ['*']⟩, behind)
  | _ => (⟨some σ, source⟩, rest)

/-- Reads the token that starts with `c` at `position`. -/
def readToken (o : Lexing) (position : Nat) (c : Char) (rest : Text) :
    Except PatternError (Token × Text) :=
  if isInsignificant o.skipHyphens c then .ok (⟨none, [c]⟩, rest)
  else if o.mode = .literal then .ok (⟨some (.char c), [c]⟩, rest)
  else if c = '\\' then
    match rest with
    | [] => .error .unfinishedEscape
    | escaped :: rest =>
      -- an escape does not make a blank significant, and a star behind it repeats nothing
      if isInsignificant o.skipHyphens escaped then .ok (⟨none, [c, escaped]⟩, rest)
      else .ok (Token.withStar (.char escaped) [c, escaped] rest)
  else if c = '[' then
    match readSet position rest with
    | .error e => .error e
    | .ok set =>
      if set.ranges.isEmpty then .error (.emptySet position)
      else .ok (Token.withStar (.set ⟨set.ranges⟩) (c :: set.source) set.rest)
  else if c = '.' then
    if rest.head? = some '*' then .error (.nothingToRepeat (position + 1))
    else .ok (⟨some .any, [c]⟩, rest)
  else if c = '*' then .error (.nothingToRepeat position)
  else .ok (Token.withStar (.char c) [c] rest)

/-! ## Nothing is lost -/

theorem readSet_source {opening : Nat} {t : Text} {r : SetReading}
    (h : readSet opening t = .ok r) : r.source ++ r.rest = t := by
  fun_induction readSet opening t generalizing r <;>
    simp_all [Except.map, SetReading.cons] <;> grind

theorem Token.withStar_source (σ : Symbol) (source rest : Text) :
    (Token.withStar σ source rest).1.source ++ (Token.withStar σ source rest).2 =
      source ++ rest := by
  unfold Token.withStar
  split <;> simp

theorem Token.length_le_withStar (σ : Symbol) (source rest : Text) :
    source.length ≤ (Token.withStar σ source rest).1.source.length := by
  unfold Token.withStar
  split <;> simp

/-- A token's text and what is left make up the text that was read. -/
theorem readToken_source {o : Lexing} {position : Nat} {c : Char} {rest : Text} {t : Token}
    {left : Text} (h : readToken o position c rest = .ok (t, left)) :
    t.source ++ left = c :: rest := by
  have h_star : ∀ {σ : Symbol} {source behind : Text},
      Except.ok (ε := PatternError) (Token.withStar σ source behind) = .ok (t, left) →
        t.source ++ left = source ++ behind := by
    intro σ source behind h_ok
    have h_eq := Token.withStar_source σ source behind
    rw [Except.ok.inj h_ok] at h_eq
    exact h_eq
  unfold readToken at h
  split at h
  · simp only [Except.ok.injEq, Prod.mk.injEq] at h
    simp [← h.1, ← h.2]
  split at h
  · simp only [Except.ok.injEq, Prod.mk.injEq] at h
    simp [← h.1, ← h.2]
  split at h
  · split at h
    · exact absurd h (by simp)
    · split at h
      · simp only [Except.ok.injEq, Prod.mk.injEq] at h
        simp [← h.1, ← h.2]
      · simpa using h_star h
  split at h
  · split at h
    · exact absurd h (by simp)
    · rename_i set h_set
      split at h
      · exact absurd h (by simp)
      · simpa [readSet_source h_set] using h_star h
  split at h
  · split at h
    · exact absurd h (by simp)
    · simp only [Except.ok.injEq, Prod.mk.injEq] at h
      simp [← h.1, ← h.2]
  split at h
  · exact absurd h (by simp)
  · simpa using h_star h

/-- A token is never read from nothing. -/
theorem readToken_source_ne_nil {o : Lexing} {position : Nat} {c : Char} {rest : Text} {t : Token}
    {left : Text} (h : readToken o position c rest = .ok (t, left)) : t.source ≠ [] := by
  have h_star : ∀ {σ : Symbol} {source behind : Text}, source ≠ [] →
      Except.ok (ε := PatternError) (Token.withStar σ source behind) = .ok (t, left) →
        t.source ≠ [] := by
    intro σ source behind h_ne h_ok h_nil
    have h_le := Token.length_le_withStar σ source behind
    rw [Except.ok.inj h_ok, h_nil] at h_le
    exact h_ne (List.length_eq_zero_iff.1 (Nat.le_zero.1 h_le))
  have h_plain : ∀ {u : Token} {behind : Text}, u.source ≠ [] →
      Except.ok (ε := PatternError) (u, behind) = .ok (t, left) → t.source ≠ [] := by
    intro u behind h_ne h_ok
    rw [← (Prod.mk.inj (Except.ok.inj h_ok)).1]
    exact h_ne
  unfold readToken at h
  split at h
  · exact h_plain (List.cons_ne_nil _ _) h
  split at h
  · exact h_plain (List.cons_ne_nil _ _) h
  split at h
  · split at h
    · exact absurd h (by simp)
    · split at h
      · exact h_plain (List.cons_ne_nil _ _) h
      · exact h_star (List.cons_ne_nil _ _) h
  split at h
  · split at h
    · exact absurd h (by simp)
    · split at h
      · exact absurd h (by simp)
      · exact h_star (List.cons_ne_nil _ _) h
  split at h
  · split at h
    · exact absurd h (by simp)
    · exact h_plain (List.cons_ne_nil _ _) h
  split at h
  · exact absurd h (by simp)
  · exact h_star (List.cons_ne_nil _ _) h

theorem readToken_length {o : Lexing} {position : Nat} {c : Char} {rest : Text} {t : Token}
    {left : Text} (h : readToken o position c rest = .ok (t, left)) :
    left.length ≤ rest.length := by
  have h_source := congrArg List.length (readToken_source h)
  have h_pos := List.length_pos_iff.2 (readToken_source_ne_nil h)
  simp only [List.length_append, List.length_cons] at h_source
  omega

/-! ## Patterns -/

/-- Reads the tokens of a pattern whose first character stands at `position`. -/
def readTokens (o : Lexing) (position : Nat) (pattern : Text) : Except PatternError (List Token) :=
  match pattern with
  | [] => .ok []
  | c :: rest =>
    match _h : readToken o position c rest with
    | .error e => .error e
    | .ok (t, left) => (readTokens o (position + t.source.length) left).map (t :: ·)
termination_by pattern.length
decreasing_by
  have := readToken_length _h
  simp only [List.length_cons]
  omega

/-- The tokens of a pattern. -/
def tokensOf (o : Lexing) (pattern : Text) : Except PatternError (List Token) :=
  readTokens o 0 pattern

/-- The symbols of a pattern. -/
def symbolsOf (o : Lexing) (pattern : Text) : Except PatternError (List Symbol) :=
  (tokensOf o pattern).map fun ts => ts.filterMap Token.symbol

end PagedSearch
