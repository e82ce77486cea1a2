/-
  PagedSearch.Proofs.Pattern.Folding

  Folded patterns. A pattern is folded before it is read, but the characters
  that the wildcard dialect gives a meaning are folded to themselves, and no
  others are folded to them. So the folded pattern has the folded tokens
  (`readTokens_fold`): characters, members of sets and both ends of every
  range are folded where they stand. Folding does not keep the order of
  characters; where the ends of a range change places, the folded pattern
  cannot be read.
-/
import Mathlib.Data.List.Forall2
import PagedSearch.Proofs.Pattern.Reversal
import PagedSearch.Proofs.Text.Lowercase

namespace PagedSearch

/-- Where every element of a list has a result, the list has the results in their order. -/
theorem mapM_eq_ok_iff {ε α β : Type} {f : α → Except ε β} {l : List α} {l' : List β} :
    l.mapM f = .ok l' ↔ List.Forall₂ (fun a b => f a = .ok b) l l' := by
  induction l generalizing l' with
  | nil =>
    rw [List.mapM_nil, List.forall₂_nil_left_iff]
    show Except.ok [] = Except.ok l' ↔ l' = []
    rw [Except.ok.injEq, eq_comm]
  | cons a l ih =>
    rw [List.mapM_cons, List.forall₂_cons_left_iff]
    constructor
    · intro h
      cases h_a : f a with
      | error e =>
        rw [h_a] at h
        exact absurd h (by simp [bind, Except.bind])
      | ok b =>
        rw [h_a] at h
        obtain ⟨l'', h_l, h_eq⟩ := ok_of_map_eq_ok (f := (b :: ·)) h
        exact ⟨b, l'', rfl, ih.1 h_l, h_eq.symm⟩
    · rintro ⟨b, l'', h_a, h_l, rfl⟩
      rw [h_a, ih.2 h_l]
      rfl

/-! ## Characters of the dialect -/

/-- The characters that can mean something else than themselves in a pattern or in a set. -/
def dialect : Text := ['\\', '[', ']', '-', '.', '*']

theorem foldChar_eq_dialect_iff {a : Char} (h_a : a ∈ dialect) (c : Char) :
    foldChar c = a ↔ c = a := by
  have h_spared : (dialect.all fun a => spared a.toNat a.toNat) = true := by decide +kernel
  exact foldChar_eq_iff (List.all_eq_true.1 h_spared a h_a) c

theorem foldChar_dialect {a : Char} (h_a : a ∈ dialect) : foldChar a = a :=
  (foldChar_eq_dialect_iff h_a a).2 rfl

theorem isOperator_foldChar (c : Char) : IsOperator (foldChar c) ↔ IsOperator c := by
  rw [IsOperator, IsOperator, foldChar_eq_dialect_iff (by decide),
    foldChar_eq_dialect_iff (by decide), foldChar_eq_dialect_iff (by decide),
    foldChar_eq_dialect_iff (by decide)]

theorem head?_fold_star (t : Text) : (fold t).head? = some '*' ↔ t.head? = some '*' := by
  cases t with
  | nil => exact Iff.rfl
  | cons c t =>
    show some (foldChar c) = some '*' ↔ some c = some '*'
    rw [Option.some.injEq, Option.some.injEq]
    exact foldChar_eq_dialect_iff (by decide) c

/-! ## Folded symbols -/

/-- The range between the folded ends, if these are still in order. -/
def CharRange.folded? (r : CharRange) : Except PatternError CharRange :=
  if h : foldChar r.first ≤ foldChar r.last then .ok ⟨foldChar r.first, foldChar r.last, h⟩
  else .error (.descendingRange (foldChar r.first) (foldChar r.last))

/-- The symbol with folded characters and ranges. -/
def Symbol.folded? : Symbol → Except PatternError Symbol
  | .char c => .ok (.char (foldChar c))
  | .set s => (s.ranges.mapM CharRange.folded?).map fun ranges => .set ⟨ranges⟩
  | .any => .ok .any
  | .many inner => inner.folded?.map .many

/-- The token that is read from the folded text. -/
def Token.folded? (t : Token) : Except PatternError Token :=
  match t.symbol with
  | none => .ok ⟨none, fold t.source⟩
  | some σ => σ.folded?.map fun σ' => ⟨some σ', fold t.source⟩

/-- The set that is read from the folded text. -/
def SetReading.folded? (r : SetReading) : Except PatternError SetReading :=
  (r.ranges.mapM CharRange.folded?).map fun ranges => ⟨ranges, fold r.source, fold r.rest⟩

theorem Symbol.folded?_many (σ : Symbol) :
    (Symbol.many σ).folded? = σ.folded?.map .many := rfl

theorem Token.folded?_some (σ : Symbol) (source : Text) :
    (Token.mk (some σ) source).folded? = σ.folded?.map fun σ' => ⟨some σ', fold source⟩ := rfl

@[simp] theorem CharRange.folded?_single (c : Char) :
    (CharRange.single c).folded? = .ok (.single (foldChar c)) :=
  dif_pos (Nat.le_refl _)

theorem SetReading.folded?_cons (r : SetReading) (range : CharRange) (source : Text) :
    (r.cons range source).folded? =
      range.folded?.bind fun range' => r.folded?.map (.cons range' (fold source)) := by
  rw [SetReading.folded?, SetReading.folded?]
  show ((range :: r.ranges).mapM CharRange.folded?).map _ = _
  rw [List.mapM_cons]
  cases range.folded? with
  | error e => rfl
  | ok range' =>
    cases r.ranges.mapM CharRange.folded? with
    | error e => rfl
    | ok ranges =>
      show Except.ok (SetReading.mk (range' :: ranges) (fold (source ++ r.source)) (fold r.rest)) =
        _
      rw [fold_append]
      rfl

/-! ## Sets -/

section

variable {opening : Nat} {t : Text} {r : SetReading}

theorem startsRange_fold : StartsRange (fold t) ↔ StartsRange t := by
  constructor
  · rintro ⟨last, behind, h_t, h_last⟩
    match t with
    | [] => exact absurd h_t (by simp)
    | [c] => exact absurd h_t (by simp [fold])
    | c :: c' :: t =>
      obtain ⟨h_c, h_t⟩ := List.cons.inj h_t
      obtain ⟨rfl, -⟩ := List.cons.inj h_t
      rw [foldChar_eq_dialect_iff (by decide)] at h_c
      rw [ne_eq, foldChar_eq_dialect_iff (by decide)] at h_last
      exact ⟨c', t, by rw [h_c], h_last⟩
  · rintro ⟨last, behind, rfl, h_last⟩
    refine ⟨foldChar last, fold behind, ?_, ?_⟩
    · show foldChar '-' :: foldChar last :: fold behind = _
      rw [foldChar_dialect (by decide)]
    · rwa [ne_eq, foldChar_eq_dialect_iff (by decide)]

/-- From the folded text the folded set is read. -/
theorem readSet_fold (h : readSet opening t = .ok r) :
    readSet opening (fold t) = r.folded? := by
  -- a character that starts no range starts none in the folded text
  have h_plain : ∀ {c : Char} {t : Text} {r' : SetReading}, c ≠ ']' → c ≠ '\\' → t ≠ [] →
      ¬ StartsRange t → readSet opening (fold t) = r'.folded? →
      readSet opening (fold (c :: t)) = (r'.cons (.single c) [c]).folded? := by
    intro c t r' h_close h_escape h_t h_range h_r'
    have h_close' : foldChar c ≠ ']' := by rwa [ne_eq, foldChar_eq_dialect_iff (by decide)]
    have h_escape' : foldChar c ≠ '\\' := by rwa [ne_eq, foldChar_eq_dialect_iff (by decide)]
    have h_t' : fold t ≠ [] := by rwa [fold, ne_eq, List.map_eq_nil_iff]
    show readSet opening (foldChar c :: fold t) = _
    rw [readSet_single h_close' h_escape' h_t' (mt startsRange_fold.1 h_range), h_r',
      SetReading.folded?_cons, CharRange.folded?_single]
    rfl
  fun_induction readSet opening t generalizing r with
  | case1 => exact absurd h (by simp)
  | case2 rest =>
    rw [← Except.ok.inj h]
    show readSet opening (foldChar ']' :: fold rest) = .ok ⟨[], [foldChar ']'], fold rest⟩
    rw [foldChar_dialect (by decide), readSet.eq_def]
    rfl
  | case3 => exact absurd h (by simp)
  | case4 escaped rest _ ih =>
    obtain ⟨r', h_r', rfl⟩ := ok_of_map_eq_ok h
    rw [SetReading.folded?_cons, CharRange.folded?_single, ← ih h_r']
    show readSet opening (foldChar '\\' :: foldChar escaped :: fold rest) =
      (readSet opening (fold rest)).map (.cons _ [foldChar '\\', foldChar escaped])
    rw [foldChar_dialect (by decide), readSet.eq_def]
    rfl
  | case5 c h_close h_escape hyphen last behind h_range h_le ih =>
    obtain ⟨r', h_r', rfl⟩ := ok_of_map_eq_ok h
    rw [← foldChar_eq_dialect_iff (by decide)] at h_close h_escape
    have h_range' : foldChar hyphen = '-' ∧ foldChar last ≠ ']' := by
      rw [foldChar_eq_dialect_iff (by decide), ne_eq, foldChar_eq_dialect_iff (by decide)]
      exact h_range
    rw [SetReading.folded?_cons, CharRange.folded?, ← ih h_r']
    show readSet opening (foldChar c :: foldChar hyphen :: foldChar last :: fold behind) = _
    rw [readSet.eq_def]
    simp only [if_neg h_close, if_neg h_escape, if_pos h_range']
    -- the ends of the range may have changed places
    by_cases h_order : foldChar c ≤ foldChar last
    · rw [dif_pos h_order, dif_pos h_order]
      rfl
    · rw [dif_neg h_order, dif_neg h_order]
      rfl
  | case6 => exact absurd h (by simp)
  | case7 c h_close h_escape hyphen last behind h_range ih =>
    obtain ⟨r', h_r', rfl⟩ := ok_of_map_eq_ok h
    refine h_plain h_close h_escape (List.cons_ne_nil _ _) ?_ (ih h_r')
    rintro ⟨last', behind', h_eq, h_ne⟩
    simp only [List.cons.injEq] at h_eq
    exact h_range ⟨h_eq.1, h_eq.2.1 ▸ h_ne⟩
  | case8 c h_close h_escape one ih =>
    obtain ⟨r', h_r', rfl⟩ := ok_of_map_eq_ok h
    refine h_plain h_close h_escape (List.cons_ne_nil _ _) ?_ (ih h_r')
    rintro ⟨last', behind', h_eq, h_ne⟩
    simp at h_eq
  | case9 => exact absurd h (by simp)

end

/-! ## Tokens -/

section

variable {o : Lexing} {position : Nat} {pattern : Text}

/-- A star is folded to a star, and nothing else is. -/
theorem withStar_fold {σ : Symbol} {source rest left : Text} {t : Token}
    (h : Token.withStar σ source rest = (t, left)) :
    (σ.folded?.map fun σ' => Token.withStar σ' (fold source) (fold rest)) =
      t.folded?.map fun t' => (t', fold left) := by
  by_cases h_star : rest.head? = some '*'
  · obtain ⟨behind, rfl⟩ := List.head?_eq_some_iff.1 h_star
    obtain ⟨rfl, rfl⟩ := Prod.mk.inj h
    have h_fold : fold ('*' :: behind) = '*' :: fold behind := by
      show foldChar '*' :: fold behind = _
      rw [foldChar_dialect (by decide)]
    have h_source : fold (source ++ ['*']) = fold source ++ ['*'] := by
      rw [fold_append]
      show _ ++ [foldChar '*'] = _
      rw [foldChar_dialect (by decide)]
    rw [h_fold, Token.folded?_some, Symbol.folded?_many, h_source]
    cases σ.folded? with
    | error e => rfl
    | ok σ' => rfl
  · rw [withStar_of_head?_ne h_star] at h
    obtain ⟨rfl, rfl⟩ := Prod.mk.inj h
    rw [Token.folded?_some]
    cases σ.folded? with
    | error e => rfl
    | ok σ' =>
      show Except.ok (Token.withStar σ' (fold source) (fold rest)) = _
      rw [withStar_of_head?_ne (mt (head?_fold_star rest).1 h_star)]
      rfl

/-- From the folded text the folded token is read. -/
theorem readToken_fold {c : Char} {rest left : Text} {t : Token}
    (h : readToken o position c rest = .ok (t, left)) :
    readToken o position (foldChar c) (fold rest) = t.folded?.map fun t' => (t', fold left) := by
  have h_significant : ∀ {a : Char}, isInsignificant o.skipHyphens a = false →
      isInsignificant o.skipHyphens (foldChar a) = false := by
    intro a h_a
    rwa [isInsignificant_foldChar]
  have h_skips : ∀ {a : Char}, isInsignificant o.skipHyphens a = true →
      isInsignificant o.skipHyphens (foldChar a) = true := by
    intro a h_a
    rwa [isInsignificant_foldChar]
  rw [readToken_eq_ok_iff] at h
  cases h with
  | skipped h_skipped => exact readToken_eq_ok_iff.2 (.skipped (h_skips h_skipped))
  | literal h_c h_mode => exact readToken_eq_ok_iff.2 (.literal (h_significant h_c) h_mode)
  | @escapedSkipped a _ h_mode h_a =>
    show readToken o position (foldChar '\\') (foldChar a :: fold left) =
      .ok (⟨none, [foldChar '\\', foldChar a]⟩, fold left)
    rw [foldChar_dialect (by decide)]
    exact readToken_eq_ok_iff.2 (.escapedSkipped h_mode (h_skips h_a))
  | @escaped a rest _ _ h_mode h_a h_star =>
    rw [← withStar_fold h_star]
    show readToken o position (foldChar '\\') (foldChar a :: fold rest) =
      .ok (Token.withStar (.char (foldChar a)) [foldChar '\\', foldChar a] (fold rest))
    rw [foldChar_dialect (by decide)]
    exact readToken_eq_ok_iff.2 (.escaped h_mode (h_significant h_a) rfl)
  | @set _ set _ _ h_mode h_set h_members h_star =>
    rw [← withStar_fold h_star]
    have h_folded := readSet_fold h_set
    rw [SetReading.folded?] at h_folded
    show readToken o position (foldChar '[') (fold rest) =
      ((set.ranges.mapM CharRange.folded?).map fun ranges => Symbol.set ⟨ranges⟩).map fun σ' =>
        Token.withStar σ' (foldChar '[' :: fold set.source) (fold set.rest)
    rw [foldChar_dialect (by decide)]
    cases h_ranges : set.ranges.mapM CharRange.folded? with
    | error e =>
      rw [h_ranges] at h_folded
      have h_error : readSet position (fold rest) = .error e := h_folded
      simp [readToken.eq_def, h_mode, h_error, IsOperator.significant (.inr (.inl rfl)), Except.map]
    | ok ranges =>
      rw [h_ranges] at h_folded
      -- there are as many ranges as before
      have h_length := (mapM_eq_ok_iff.1 h_ranges).length_eq
      have h_members' : ranges.isEmpty = false := by
        rw [List.isEmpty_eq_false_iff, ← List.length_pos_iff] at h_members ⊢
        rwa [← h_length]
      exact readToken_eq_ok_iff.2 (.set h_mode h_folded h_members' rfl)
  | any h_mode h_star =>
    show readToken o position (foldChar '.') (fold rest) =
      .ok (⟨some .any, [foldChar '.']⟩, fold rest)
    rw [foldChar_dialect (by decide)]
    exact readToken_eq_ok_iff.2 (.any h_mode (mt (head?_fold_star rest).1 h_star))
  | plain h_mode h_c h_plain h_star =>
    rw [← withStar_fold h_star]
    exact readToken_eq_ok_iff.2
      (.plain h_mode (h_significant h_c) (mt (isOperator_foldChar c).1 h_plain) rfl)

/-- A folded token has the folded text. -/
theorem Token.source_of_folded? {t t' : Token} (h : t.folded? = .ok t') :
    t'.source = fold t.source := by
  obtain ⟨symbol, source⟩ := t
  cases symbol with
  | none =>
    rw [← Except.ok.inj h]
  | some σ =>
    obtain ⟨σ', -, rfl⟩ := ok_of_map_eq_ok h
    rfl

theorem readTokens_eq_error {c : Char} {rest : Text} {e : PatternError}
    (h : readToken o position c rest = .error e) :
    readTokens o position (c :: rest) = .error e := by
  rw [readTokens]
  split
  · rename_i h_error
    rw [h, Except.error.injEq] at h_error
    rw [h_error]
  · rename_i h_ok
    rw [h] at h_ok
    exact absurd h_ok (by simp)

/-- From a folded pattern the folded tokens are read. -/
theorem readTokens_fold {ts : List Token} (h : readTokens o position pattern = .ok ts) :
    readTokens o position (fold pattern) = ts.mapM Token.folded? := by
  induction ts generalizing position pattern with
  | nil =>
    rw [eq_nil_of_readTokens h, fold_nil, readTokens, List.mapM_nil]
    rfl
  | cons t ts ih =>
    obtain ⟨c, rest, left, rfl, h_token, h_left⟩ := eq_cons_of_readTokens h
    have h_fold := readToken_fold h_token
    show readTokens o position (foldChar c :: fold rest) = _
    rw [List.mapM_cons]
    cases h_t : t.folded? with
    | error e =>
      rw [h_t] at h_fold
      exact readTokens_eq_error h_fold
    | ok t' =>
      rw [h_t] at h_fold
      rw [readTokens_cons h_fold, Token.source_of_folded? h_t, fold_length, ih h_left]
      rfl

end

/-- A folded pattern has the folded symbols. -/
theorem symbolsOf_fold {o : Lexing} {pattern : Text} {symbols : List Symbol}
    (h : symbolsOf o pattern = .ok symbols) :
    symbolsOf o (fold pattern) = symbols.mapM Symbol.folded? := by
  obtain ⟨ts, h_ts, rfl⟩ := ok_of_map_eq_ok h
  rw [symbolsOf, tokensOf, readTokens_fold h_ts]
  clear h_ts h
  induction ts with
  | nil => rfl
  | cons t ts ih =>
    obtain ⟨symbol, source⟩ := t
    rw [List.mapM_cons]
    cases symbol with
    | none =>
      rw [List.filterMap_cons_none rfl, ← ih]
      show Except.map _ ((ts.mapM Token.folded?).map (Token.mk none (fold source) :: ·)) = _
      cases ts.mapM Token.folded? with
      | error e => rfl
      | ok ts' => rfl
    | some σ =>
      show _ = (σ :: ts.filterMap Token.symbol).mapM Symbol.folded?
      rw [List.mapM_cons, ← ih, Token.folded?_some]
      cases σ.folded? with
      | error e => rfl
      | ok σ' =>
        show Except.map _ ((ts.mapM Token.folded?).map (Token.mk (some σ') (fold source) :: ·)) = _
        cases ts.mapM Token.folded? with
        | error e => rfl
        | ok ts' => rfl

end PagedSearch
