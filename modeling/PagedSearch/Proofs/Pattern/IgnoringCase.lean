/-
  PagedSearch.Proofs.Pattern.IgnoringCase

  What becomes of a chain if letter case stops to count. The states stay and
  their symbols are folded (`Chain.compile_ignoringCase_iff`). A symbol for
  one character accepts this character folded; a set accepts what lies between
  the folded ends of its ranges, and this need not hold all that it held
  before (`Symbol.accepts_foldChar_iff`).
-/
import Mathlib
import PagedSearch.Proofs.Pattern.Folding

namespace PagedSearch

/-! ## Lists of results -/

theorem exists_map_eq_ok_iff {ε α β : Type} {f : α → β} {x : Except ε α} :
    (∃ b, x.map f = .ok b) ↔ ∃ a, x = .ok a := by
  constructor
  · rintro ⟨b, h⟩
    obtain ⟨a, h_a, -⟩ := ok_of_map_eq_ok h
    exact ⟨a, h_a⟩
  · rintro ⟨a, rfl⟩
    exact ⟨f a, rfl⟩

theorem exists_mapM_eq_ok_iff {ε α β : Type} {f : α → Except ε β} {l : List α} :
    (∃ l', l.mapM f = .ok l') ↔ ∀ a ∈ l, ∃ b, f a = .ok b := by
  simp only [mapM_eq_ok_iff]
  induction l with
  | nil => exact iff_of_true ⟨[], .nil⟩ fun a h_a => absurd h_a List.not_mem_nil
  | cons a l ih =>
    rw [List.forall_mem_cons, ← ih]
    constructor
    · rintro ⟨_, h⟩
      obtain ⟨b, l', h_a, h_l, -⟩ := List.forall₂_cons_left_iff.1 h
      exact ⟨⟨b, h_a⟩, l', h_l⟩
    · rintro ⟨⟨b, h_a⟩, l', h_l⟩
      exact ⟨b :: l', .cons h_a h_l⟩

theorem exists_mem_iff_of_forall₂ {α β : Type} {R : α → β → Prop} {P : α → Prop} {Q : β → Prop}
    {l : List α} {l' : List β} (h : List.Forall₂ R l l') (h_iff : ∀ {a b}, R a b → (P a ↔ Q b)) :
    (∃ a ∈ l, P a) ↔ ∃ b ∈ l', Q b := by
  induction h with
  | nil => simp
  | cons h_ab _ ih =>
    rw [List.exists_mem_cons_iff, List.exists_mem_cons_iff, ih, h_iff h_ab]

theorem map_eq_map_of_forall₂ {α β γ : Type} {R : α → β → Prop} {f : α → γ} {g : β → γ}
    {l : List α} {l' : List β} (h_eq : ∀ a b, R a b → g b = f a) (h : List.Forall₂ R l l') :
    l'.map g = l.map f := by
  have h_map : List.Forall₂ (· = ·) (l'.map g) (l.map f) := by
    rw [List.forall₂_map_left_iff, List.forall₂_map_right_iff]
    exact (h.imp h_eq).flip
  rwa [List.forall₂_eq_eq_eq] at h_map

theorem getElem?_of_forall₂ {α β : Type} {R : α → β → Prop} {l : List α} {l' : List β}
    (h : List.Forall₂ R l l') {k : Nat} {a : α} (h_a : l[k]? = some a) :
    ∃ b, l'[k]? = some b ∧ R a b := by
  induction h generalizing k with
  | nil => exact absurd h_a (by simp)
  | @cons a' b' _ _ h_ab _ ih =>
    cases k with
    | zero =>
      obtain rfl : a' = a := Option.some.inj h_a
      exact ⟨b', rfl, h_ab⟩
    | succ k => exact ih h_a

/-! ## What folded symbols accept -/

/-- True of the characters whose folded forms lie between the folded ends of a range. -/
def CharRange.HoldsFolded (r : CharRange) (c : Char) : Prop :=
  foldChar r.first ≤ foldChar c ∧ foldChar c ≤ foldChar r.last

theorem CharRange.exists_folded?_iff {r : CharRange} :
    (∃ r', r.folded? = .ok r') ↔ foldChar r.first ≤ foldChar r.last := by
  rw [CharRange.folded?]
  constructor
  · rintro ⟨r', h⟩
    by_contra h_order
    rw [dif_neg h_order] at h
    exact absurd h (by simp)
  · intro h_order
    exact ⟨_, dif_pos h_order⟩

theorem CharRange.contains_foldChar_iff {r r' : CharRange} (h : r.folded? = .ok r') {c : Char} :
    r'.contains (foldChar c) = true ↔ r.HoldsFolded c := by
  have h_order := CharRange.exists_folded?_iff.1 ⟨r', h⟩
  rw [CharRange.folded?, dif_pos h_order] at h
  rw [← Except.ok.inj h, CharRange.contains, Bool.and_eq_true, decide_eq_true_eq,
    decide_eq_true_eq, CharRange.HoldsFolded]

/-- The folded ends of every range of the set are in order. -/
def CharSet.FoldsInOrder (s : CharSet) : Prop := ∀ r ∈ s.ranges, foldChar r.first ≤ foldChar r.last

/-- True of the characters whose folded forms lie between the folded ends of a range of the set. -/
def CharSet.HoldsFolded (s : CharSet) (c : Char) : Prop := ∃ r ∈ s.ranges, r.HoldsFolded c

namespace Symbol

/-- Kinds of symbols. -/
inductive Kind where
  | char
  | set
  | any
  | many (inner : Kind)
deriving DecidableEq, Repr

/-- The kind of a symbol. -/
def kind : Symbol → Kind
  | .char _ => .char
  | .set _ => .set
  | .any => .any
  | .many inner => .many inner.kind

/-- The set that a symbol is or repeats. -/
def set? : Symbol → Option CharSet
  | .set s => some s
  | .many inner => inner.set?
  | _ => none

section

variable {σ σ' : Symbol}

theorem isMany_eq_of_kind_eq (h : σ'.kind = σ.kind) : σ'.isMany = σ.isMany := by
  cases σ <;> cases σ' <;> first | rfl | exact absurd h (by simp [kind])

theorem kind_of_folded? (h : σ.folded? = .ok σ') : σ'.kind = σ.kind := by
  induction σ generalizing σ' with
  | char c => rw [← Except.ok.inj h]; rfl
  | set s =>
    obtain ⟨ranges, -, rfl⟩ := ok_of_map_eq_ok h
    rfl
  | any => rw [← Except.ok.inj h]
  | many inner ih =>
    obtain ⟨inner', h_inner, rfl⟩ := ok_of_map_eq_ok h
    exact congrArg Kind.many (ih h_inner)

/-- Symbols fold, except for sets with a range whose ends change places. -/
theorem exists_folded?_iff :
    (∃ σ', σ.folded? = .ok σ') ↔ ∀ s, σ.set? = some s → s.FoldsInOrder := by
  induction σ with
  | char c => exact iff_of_true ⟨_, rfl⟩ fun s h_s => absurd h_s (by simp [set?])
  | set s =>
    rw [folded?, exists_map_eq_ok_iff, exists_mapM_eq_ok_iff]
    simp only [CharRange.exists_folded?_iff]
    show s.FoldsInOrder ↔ ∀ s', some s = some s' → s'.FoldsInOrder
    simp only [Option.some.injEq, forall_eq']
  | any => exact iff_of_true ⟨_, rfl⟩ fun s h_s => absurd h_s (by simp [set?])
  | many inner ih =>
    rw [folded?_many, exists_map_eq_ok_iff]
    exact ih

/-- What a symbol accepts it accepts folded, except for sets that do not hold the folded
    character. -/
theorem accepts_foldChar_iff (h : σ.folded? = .ok σ') {c : Char} (h_c : σ.accepts c = true) :
    σ'.accepts (foldChar c) = true ↔ ∀ s, σ.set? = some s → s.HoldsFolded c := by
  induction σ generalizing σ' with
  | char a =>
    rw [← Except.ok.inj h]
    have h_a : a = c := beq_iff_eq.1 h_c
    exact iff_of_true (beq_iff_eq.2 (congrArg foldChar h_a)) fun s h_s =>
      absurd h_s (by simp [set?])
  | set s =>
    obtain ⟨ranges, h_ranges, rfl⟩ := ok_of_map_eq_ok h
    show ranges.any (·.contains (foldChar c)) = true ↔ ∀ s', some s = some s' → s'.HoldsFolded c
    simp only [Option.some.injEq, forall_eq']
    rw [List.any_eq_true, CharSet.HoldsFolded]
    exact (exists_mem_iff_of_forall₂ (mapM_eq_ok_iff.1 h_ranges) fun h_r =>
      (CharRange.contains_foldChar_iff h_r).symm).symm
  | any =>
    rw [← Except.ok.inj h]
    exact iff_of_true rfl fun s h_s => absurd h_s (by simp [set?])
  | many inner ih =>
    obtain ⟨inner', h_inner, rfl⟩ := ok_of_map_eq_ok h
    have h_accepts := ih h_inner h_c
    exact h_accepts

end

end Symbol

/-! ## Chains -/

section

variable {α β : Type} {R : α → β → Prop} {s : Settings}

@[simp] theorem Settings.inOrder_inOrder (l : List α) : s.inOrder (s.inOrder l) = l := by
  rw [Settings.inOrder.eq_def, Settings.inOrder.eq_def]
  cases s.direction with
  | forward => rfl
  | backward => exact List.reverse_reverse l

theorem forall₂_inOrder_iff {l : List α} {l' : List β} :
    List.Forall₂ R (s.inOrder l) (s.inOrder l') ↔ List.Forall₂ R l l' := by
  rw [Settings.inOrder.eq_def, Settings.inOrder.eq_def]
  cases s.direction with
  | forward => exact Iff.rfl
  | backward => exact List.forall₂_reverse_iff

end

namespace Chain

/-- The set that a state waits for, once or repeatedly. -/
def setAt? (chain : Chain) (k : Nat) : Option CharSet := chain.symbols[k]?.bind Symbol.set?

/-- The chain of its own symbols. -/
theorem ofSymbols?_symbols (chain : Chain) : ofSymbols? chain.symbols = .ok chain := by
  have h_ne : chain.symbols ≠ [] := List.length_pos_iff.1 chain.size_pos
  rw [ofSymbols?, if_neg h_ne, dif_pos ⟨chain.head_fixed, chain.last_fixed⟩, Except.ok.injEq]
  exact ext_symbols rfl

section

variable {s : Settings} {pattern : Text} {chain folded : Chain}

/-- There is a chain of the folded symbols exactly if every symbol folds. -/
theorem exists_folded_iff :
    (∃ folded : Chain, List.Forall₂ (fun σ σ' => σ.folded? = .ok σ') chain.symbols folded.symbols) ↔
      ∀ σ ∈ chain.symbols, ∃ σ', σ.folded? = .ok σ' := by
  rw [← exists_mapM_eq_ok_iff]
  simp only [mapM_eq_ok_iff]
  constructor
  · rintro ⟨folded, h_all⟩
    exact ⟨folded.symbols, h_all⟩
  · rintro ⟨symbols, h_all⟩
    -- repetitions stay repetitions, so the edges are fixed as they were
    have h_many : symbols.map Symbol.isMany = chain.symbols.map Symbol.isMany :=
      map_eq_map_of_forall₂
        (fun _ _ h_σ => Symbol.isMany_eq_of_kind_eq (Symbol.kind_of_folded? h_σ)) h_all
    have h_head : ∀ l : List Symbol,
        l.head?.any (!·.isMany) = (l.map Symbol.isMany).head?.any (!·) := by
      intro l
      rw [List.head?_map, Option.any_map]
    have h_last : ∀ l : List Symbol,
        l.getLast?.any (!·.isMany) = (l.map Symbol.isMany).getLast?.any (!·) := by
      intro l
      rw [List.getLast?_map, Option.any_map]
    refine ⟨⟨symbols, linksOf symbols, ?_, ?_, rfl⟩, h_all⟩
    · rw [h_head, h_many, ← h_head]
      exact chain.head_fixed
    · rw [h_last, h_many, ← h_last]
      exact chain.last_fixed

/-- If letter case stops to count, the chain has the folded symbols. -/
theorem compile_ignoringCase_iff (h_case : s.caseSensitive = true)
    (h : Chain.compile s pattern = .ok chain) :
    Chain.compile s.ignoringCase pattern = .ok folded ↔
      List.Forall₂ (fun σ σ' => σ.folded? = .ok σ') chain.symbols folded.symbols := by
  have h_fold : s.fold pattern = pattern := if_pos h_case
  rw [compile_eq, h_fold] at h
  cases h_symbols : symbolsOf s.lexing pattern with
  | error e =>
    rw [h_symbols] at h
    exact absurd h (by simp [Except.bind])
  | ok symbols =>
    rw [h_symbols] at h
    have h_chain : chain.symbols = s.inOrder symbols := symbols_of_ofSymbols? h
    rw [compile_eq]
    show (symbolsOf s.lexing (fold pattern)).bind (fun symbols => ofSymbols? (s.inOrder symbols)) =
      .ok folded ↔ _
    rw [symbolsOf_fold h_symbols, h_chain]
    constructor
    · intro h_folded
      cases h_all : symbols.mapM Symbol.folded? with
      | error e =>
        rw [h_all] at h_folded
        exact absurd h_folded (by simp [Except.bind])
      | ok symbols' =>
        rw [h_all] at h_folded
        rw [symbols_of_ofSymbols? h_folded, forall₂_inOrder_iff]
        exact mapM_eq_ok_iff.1 h_all
    · intro h_all
      have h_map : symbols.mapM Symbol.folded? = .ok (s.inOrder folded.symbols) := by
        rw [mapM_eq_ok_iff, ← forall₂_inOrder_iff, Settings.inOrder_inOrder]
        exact h_all
      rw [h_map]
      show ofSymbols? (s.inOrder (s.inOrder folded.symbols)) = .ok folded
      rw [Settings.inOrder_inOrder, ofSymbols?_symbols]

end

end Chain

/-- If letter case stops to count, a pattern still compiles exactly if the ends of no range in one
    of its sets change places. It has the same kinds of symbols then; and what a state accepted it
    accepts folded, unless it waits for a set and the folded character lies in none of its ranges
    with folded ends. -/
theorem compile_ignoringCase (s : Settings) (pattern : Text) (chain : Chain)
    (h_case : s.caseSensitive = true) (h_compile : Chain.compile s pattern = .ok chain) :
    ((∃ folded, Chain.compile s.ignoringCase pattern = .ok folded) ↔
      ∀ k set, chain.setAt? k = some set → set.FoldsInOrder) ∧
    ∀ folded, Chain.compile s.ignoringCase pattern = .ok folded →
      folded.symbols.map Symbol.kind = chain.symbols.map Symbol.kind ∧
      ∀ k c, chain.accepts k c = true → (folded.accepts k (foldChar c) = true ↔
        ∀ set, chain.setAt? k = some set → set.HoldsFolded c) := by
  constructor
  · rw [exists_congr fun _ => Chain.compile_ignoringCase_iff h_case h_compile,
      Chain.exists_folded_iff]
    simp only [Symbol.exists_folded?_iff]
    constructor
    · intro h_folds k set h_set
      obtain ⟨σ, h_σ, h_set⟩ := Option.bind_eq_some_iff.1 h_set
      exact h_folds σ (List.mem_of_getElem? h_σ) set h_set
    · intro h_folds σ h_σ set h_set
      obtain ⟨k, h_k⟩ := List.mem_iff_getElem?.1 h_σ
      exact h_folds k set (Option.bind_eq_some_iff.2 ⟨σ, h_k, h_set⟩)
  · intro folded h_folded
    have h_all := (Chain.compile_ignoringCase_iff h_case h_compile).1 h_folded
    refine ⟨map_eq_map_of_forall₂ (fun _ _ => Symbol.kind_of_folded?) h_all, ?_⟩
    intro k c h_accepts
    cases h_σ : chain.symbols[k]? with
    | none =>
      rw [Chain.accepts, h_σ] at h_accepts
      exact absurd h_accepts (by simp)
    | some σ =>
      obtain ⟨σ', h_σ', h_folds⟩ := getElem?_of_forall₂ h_all h_σ
      rw [Chain.accepts, h_σ] at h_accepts
      rw [Chain.accepts, h_σ', Chain.setAt?, h_σ]
      exact Symbol.accepts_foldChar_iff h_folds h_accepts

/-- Read from the end, with a set that holds more than letters: a letter is accepted folded, the
    underscore is not. -/
theorem compile_ignoringCase_set :
    ∃ folded, Chain.compile ({ caseSensitive := true, mode := .wildcard, direction := .backward } :
        Settings).ignoringCase "[A-z]R*.x".toList = .ok folded ∧
      folded.symbols.map Symbol.kind = [.char, .any, .many .char, .set] ∧
      folded.accepts 2 (foldChar 'R') = true ∧ folded.accepts 3 (foldChar 'Q') = true ∧
      ¬ folded.accepts 3 (foldChar '_') = true := by
  have h_sets : ∀ {set : CharSet}, some (CharSet.mk [⟨'A', 'z', by decide⟩]) = some set →
      set.HoldsFolded 'Q' ∧ ¬ set.HoldsFolded '_' := by
    rintro set ⟨⟩
    constructor
    · exact ⟨_, .head _, by decide +kernel, by decide +kernel⟩
    · rintro ⟨r, h_r, h_first, -⟩
      obtain rfl := List.mem_singleton.1 h_r
      exact absurd h_first (by decide +kernel)
  obtain ⟨h_kinds, h_accepts⟩ := (compile_ignoringCase
    { caseSensitive := true, mode := .wildcard, direction := .backward } "[A-z]R*.x".toList
    ⟨[.char 'x', .any, .many (.char 'R'), .set ⟨[⟨'A', 'z', by decide⟩]⟩], [0, 0, 0, 0],
      by decide, by decide, by cbv⟩ rfl (by cbv)).2
    ⟨[.char 'x', .any, .many (.char 'r'), .set ⟨[⟨'a', 'z', by decide⟩]⟩], [0, 0, 0, 0],
      by decide, by decide, by cbv⟩ (by cbv)
  refine ⟨_, by cbv, h_kinds, ?_, ?_, ?_⟩
  · exact (h_accepts 2 'R' rfl).2 fun set h_set =>
      absurd h_set (by simp [Chain.setAt?, Symbol.set?])
  · exact (h_accepts 3 'Q' rfl).2 fun set h_set => (h_sets h_set).1
  · exact fun h => (h_sets rfl).2 ((h_accepts 3 '_' rfl).1 h _ rfl)

/-- The ends of a range may change places, and a range may lose what lay between its ends. -/
theorem compile_ignoringCase_loses :
    (∃ chain, Chain.compile { caseSensitive := true, mode := .wildcard } "[Z-a]".toList =
      .ok chain) ∧
    Chain.compile { mode := .wildcard } "[Z-a]".toList = .error (.descendingRange 'z' 'a') ∧
    ∃ chain folded,
      Chain.compile { caseSensitive := true, mode := .wildcard } "[A-z]".toList = .ok chain ∧
      Chain.compile { mode := .wildcard } "[A-z]".toList = .ok folded ∧
      chain.accepts 0 '_' = true ∧ folded.accepts 0 (foldChar '_') = false :=
  ⟨⟨_, by cbv⟩, by cbv, _, _, by cbv, by cbv, by cbv, by cbv⟩

end PagedSearch
