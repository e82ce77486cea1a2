/-
  PagedSearch.Proofs.Scan.Possessive

  The possessive reading of a pattern, on its own: every repetition takes the
  longest run of characters that it accepts, possibly none, and every other
  symbol one character that it accepts. A scan reports nothing else
  (`drain_found`).

  The invariant `Follows` cuts the text read since the last match in three:
  a part that is given up, the part that the symbols before the current state
  have taken, and the run that the current repetition is taking. `Passed`
  says of the second part that it is read possessively, whatever repetitions
  were passed as empty; a border of single symbols survives a fallback
  because its symbols subsume those that took the characters.
-/
import PagedSearch.Proofs.Chain.Link
import PagedSearch.Proofs.Scan.Occurrence
import Mathlib.Data.List.Forall2

namespace PagedSearch

/-! ## The possessive reading -/

/-- Reads symbols possessively from the start of a text; gives what they leave of it. -/
def readPossessively : List Symbol → Text → Option Text
  | [], t => some t
  | σ :: symbols, t =>
    if σ.isMany then readPossessively symbols (t.dropWhile σ.accepts)
    else match t with
      | [] => none
      | c :: t => if σ.accepts c then readPossessively symbols t else none

section

variable {σ : Symbol} {symbols : List Symbol} {c : Char} {t : Text}

theorem readPossessively_many (h : σ.isMany = true) :
    readPossessively (σ :: symbols) t = readPossessively symbols (t.dropWhile σ.accepts) :=
  if_pos h

theorem readPossessively_single (h : ¬ σ.isMany = true) :
    readPossessively (σ :: symbols) (c :: t) =
      if σ.accepts c then readPossessively symbols t else none :=
  if_neg h

theorem readPossessively_nil (h : ¬ σ.isMany = true) :
    readPossessively (σ :: symbols) [] = none :=
  if_neg h

end

theorem readPossessively_append (symbols symbols' : List Symbol) (t : Text) :
    readPossessively (symbols ++ symbols') t =
      (readPossessively symbols t).bind (readPossessively symbols') := by
  induction symbols generalizing t with
  | nil => rfl
  | cons σ symbols ih =>
    rw [List.cons_append]
    by_cases h_many : σ.isMany = true
    · rw [readPossessively_many h_many, readPossessively_many h_many, ih]
    · match t with
      | [] => rw [readPossessively_nil h_many, readPossessively_nil h_many, Option.bind_none]
      | c :: t =>
        rw [readPossessively_single h_many, readPossessively_single h_many]
        by_cases h_c : σ.accepts c = true
        · rw [if_pos h_c, if_pos h_c, ih]
        · rw [if_neg h_c, if_neg h_c, Option.bind_none]

/-- A symbol that is no repetition takes the character. -/
def Fits (σ : Symbol) (c : Char) : Prop := σ.isMany = false ∧ σ.accepts c = true

/-- Single symbols read the characters that they take one by one. -/
theorem readPossessively_fits {symbols : List Symbol} {t : Text} (h : List.Forall₂ Fits symbols t)
    (rest : Text) : readPossessively symbols (t ++ rest) = some rest := by
  induction h with
  | nil => rfl
  | cons h_fits _ ih =>
    rw [List.cons_append, readPossessively_single (Bool.not_eq_true _ ▸ h_fits.1),
      if_pos h_fits.2]
    exact ih

/-- What symbols take, symbols that subsume them take too. -/
theorem fits_of_subsumes {symbols symbols' : List Symbol} {t : Text}
    (h : List.Forall₂ Symbol.Subsumes symbols symbols') (h_fits : List.Forall₂ Fits symbols' t) :
    List.Forall₂ Fits symbols t := by
  induction h generalizing t with
  | nil => exact h_fits
  | cons h_subsumes _ ih =>
    obtain ⟨c, t, h_c, h_t, rfl⟩ := List.forall₂_cons_left_iff.1 h_fits
    exact .cons ⟨h_subsumes.left_single, h_subsumes.accepts_of c h_c.2⟩ (ih h_t)

theorem single_of_subsumes {symbols symbols' : List Symbol}
    (h : List.Forall₂ Symbol.Subsumes symbols symbols') : ∀ σ ∈ symbols', σ.isMany = false := by
  induction h with
  | nil => exact fun σ h_σ => absurd h_σ List.not_mem_nil
  | cons h_subsumes _ ih =>
    intro σ h_σ
    rcases List.mem_cons.1 h_σ with rfl | h_mem
    · exact h_subsumes.right_single
    · exact ih σ h_mem

/-- A border pairs the first symbols with the last ones. -/
theorem Ends.forall₂ {R : Symbol → Symbol → Prop} {symbols : List Symbol} {j k : Nat}
    (h : Ends R symbols j k) :
    List.Forall₂ R (symbols.take j) ((symbols.take k).drop (k - j)) := by
  obtain ⟨h_le, h⟩ := h
  have h_size : j = 0 ∨ k ≤ symbols.length := by
    rcases Nat.eq_zero_or_pos j with h_zero | h_pos
    · exact .inl h_zero
    · obtain ⟨_, _, _, h_last, _⟩ := h (j - 1) (by omega)
      obtain ⟨h_lt, -⟩ := List.getElem?_eq_some_iff.1 h_last
      exact .inr (by omega)
  rw [List.forall₂_iff_get]
  refine ⟨?_, ?_⟩
  · rw [List.length_take, List.length_drop, List.length_take]
    omega
  · intro i h_i h_i'
    rw [List.length_take] at h_i
    obtain ⟨σ, τ, h_σ, h_τ, h_στ⟩ := h i (by omega)
    obtain ⟨_, h_σ⟩ := List.getElem?_eq_some_iff.1 h_σ
    obtain ⟨_, h_τ⟩ := List.getElem?_eq_some_iff.1 h_τ
    rw [List.get_eq_getElem, List.get_eq_getElem, List.getElem_take, List.getElem_drop,
      List.getElem_take]
    exact h_σ ▸ h_τ ▸ h_στ

/-! ## A partial match -/

variable {α : Type} {chain : Chain}

/-- The symbols before state `k` have read `part` possessively, and `rest` is what they leave.
    The window has a place for each of them. Single symbols at the end took the last characters
    of the part, at the places that the window gives for them. -/
structure Passed (chain : Chain) (k : Nat) (part : List (Char × α)) (window : List α)
    (rest : Text) : Prop where
  reads : readPossessively (chain.symbols.take k) (part.map Prod.fst ++ rest) = some rest
  le_size : k ≤ chain.size
  window_length : window.length = k
  window_head : window.head? = part.head?.map Prod.snd
  tail_fits : ∀ front singles, chain.symbols.take k = front ++ singles →
    (∀ σ ∈ singles, σ.isMany = false) →
    ∃ before last places, part = before ++ last ∧ window = places ++ last.map Prod.snd ∧
      List.Forall₂ Fits singles (last.map Prod.fst)

theorem concat_eq_append {β : Type} {l front back : List β} {x : β}
    (h : l ++ [x] = front ++ back) :
    back = [] ∨ ∃ back', back = back' ++ [x] ∧ l = front ++ back' := by
  rcases List.eq_nil_or_concat back with rfl | ⟨back', y, rfl⟩
  · exact .inl rfl
  · rw [List.concat_eq_append, ← List.append_assoc] at h
    obtain ⟨h_l, h_x⟩ := List.append_inj' h rfl
    exact .inr ⟨back', by rw [List.concat_eq_append, List.singleton_inj.1 h_x], h_l⟩

theorem take_succ_symbols {k : Nat} {σ : Symbol} (h_σ : chain.symbols[k]? = some σ) :
    chain.symbols.take (k + 1) = chain.symbols.take k ++ [σ] := by
  rw [List.take_add_one, h_σ]
  rfl

namespace Passed

variable {k : Nat} {part : List (Char × α)} {window : List α} {rest : Text} {σ : Symbol}

/-- Single symbols that took a character each. -/
theorem of_fits {last : List (Char × α)} (h_k : k ≤ chain.size)
    (h : List.Forall₂ Fits (chain.symbols.take k) (last.map Prod.fst)) :
    Passed chain k last (last.map Prod.snd) rest where
  reads := readPossessively_fits h rest
  le_size := h_k
  window_length := by
    have h_length := h.length_eq
    rw [List.length_map, List.length_take, Nat.min_eq_left (by exact h_k)] at h_length
    rw [List.length_map, h_length]
  window_head := List.head?_map
  tail_fits front singles h_split _ := by
    have h_drop := List.forall₂_drop front.length (h_split ▸ h)
    rw [List.drop_left, ← List.map_drop] at h_drop
    refine ⟨last.take front.length, last.drop front.length, (last.take front.length).map Prod.snd,
      (List.take_append_drop _ _).symm, ?_, h_drop⟩
    rw [← List.map_append, List.take_append_drop]

theorem root (chain : Chain) (rest : Text) :
    Passed chain 0 ([] : List (Char × α)) [] rest :=
  of_fits (Nat.zero_le _) .nil

/-- The state is a repetition: it takes a run and leaves a character that it does not take. -/
theorem repetition {run : List (Char × α)} {c : Char} {here : α}
    (h : Passed chain k part window (run.map Prod.fst ++ c :: rest))
    (h_σ : chain.symbols[k]? = some σ) (h_many : σ.isMany = true)
    (h_run : ∀ x ∈ run, σ.accepts x.1 = true) (h_c : σ.accepts c = false) :
    Passed chain (k + 1) (part ++ run) (window ++ [here]) (c :: rest) where
  reads := by
    have h_left : (run.map Prod.fst ++ c :: rest).dropWhile σ.accepts = c :: rest := by
      rw [List.dropWhile_append_of_pos, List.dropWhile_cons_of_neg (by simp [h_c])]
      intro a h_a
      obtain ⟨x, h_x, rfl⟩ := List.mem_map.1 h_a
      exact h_run x h_x
    rw [take_succ_symbols h_σ, readPossessively_append, List.map_append, List.append_assoc,
      h.reads, Option.bind_some, readPossessively_many h_many, h_left]
    rfl
  le_size := (List.getElem?_eq_some_iff.1 h_σ).1
  window_length := by rw [List.length_append, h.window_length, List.length_singleton]
  window_head := by
    -- the root is no repetition, so something was taken before
    have h_head := chain.head_fixed
    match k, window, part, h.window_length, h.window_head with
    | 0, _, _, _, _ =>
      rw [List.head?_eq_getElem?, h_σ] at h_head
      simp [h_many] at h_head
    | k + 1, p :: window, x :: part, _, h_eq => exact h_eq
  tail_fits front singles h_split h_singles := by
    rw [take_succ_symbols h_σ] at h_split
    -- the repetition is the last symbol, so no single symbols stand behind it
    rcases concat_eq_append h_split with rfl | ⟨singles, rfl, -⟩
    · exact ⟨part ++ run, [], window ++ [here], by simp, by simp, .nil⟩
    · have h_false := h_singles σ (by simp)
      rw [h_many] at h_false
      exact absurd h_false (by decide)

/-- The state is no repetition and takes the next character. -/
theorem single {c : Char} {here : α} (h : Passed chain k part window (c :: rest))
    (h_σ : chain.symbols[k]? = some σ) (h_fits : Fits σ c) :
    Passed chain (k + 1) (part ++ [(c, here)]) (window ++ [here]) rest where
  reads := by
    rw [take_succ_symbols h_σ, readPossessively_append, List.map_append, List.append_assoc]
    show (readPossessively _ (part.map Prod.fst ++ c :: rest)).bind _ = _
    rw [h.reads, Option.bind_some]
    exact readPossessively_fits (.cons h_fits .nil) rest
  le_size := (List.getElem?_eq_some_iff.1 h_σ).1
  window_length := by rw [List.length_append, h.window_length, List.length_singleton]
  window_head := by
    rw [List.head?_append, List.head?_append, h.window_head]
    cases part.head? <;> rfl
  tail_fits front singles h_split h_singles := by
    rw [take_succ_symbols h_σ] at h_split
    rcases concat_eq_append h_split with rfl | ⟨singles, rfl, h_front⟩
    · exact ⟨part ++ [(c, here)], [], window ++ [here], by simp, by simp, .nil⟩
    · obtain ⟨before, last, places, h_part, h_window, h_last⟩ :=
        h.tail_fits front singles h_front fun τ h_τ => h_singles τ (List.mem_append_left _ h_τ)
      refine ⟨before, last ++ [(c, here)], places, ?_, ?_, ?_⟩
      · rw [h_part, List.append_assoc]
      · rw [h_window, List.append_assoc, List.map_append]
        rfl
      · rw [List.map_append]
        exact List.rel_append h_last (.cons h_fits .nil)

/-- Falling back keeps a border of single symbols. -/
theorem fallen (h : Passed chain k part window rest) (h_lt : chain.link k < k) :
    ∃ before last, part = before ++ last ∧
      Passed chain (chain.link k) last ((window.take k).drop (k - chain.link k)) rest := by
  have h_border := (chain.ends_link_subsumes k).forall₂
  have h_size := h.le_size
  obtain ⟨before, last, places, h_part, h_window, h_last⟩ :=
    h.tail_fits _ _ (List.take_append_drop (k - chain.link k) _).symm (single_of_subsumes h_border)
  refine ⟨before, last, h_part, ?_⟩
  -- the window has as many places in front of the border as there are symbols in front of it
  have h_places : places.length = k - chain.link k := by
    have h_length := h_last.length_eq
    have h_sum := h.window_length
    rw [List.length_drop, List.length_take, Nat.min_eq_left (by exact h_size),
      List.length_map] at h_length
    rw [h_window, List.length_append, List.length_map] at h_sum
    omega
  rw [List.take_of_length_le (Nat.le_of_eq h.window_length), h_window, ← h_places, List.drop_left]
  exact of_fits (by omega) (fits_of_subsumes h_border h_last)

end Passed

/-! ## Repetitions passed as empty -/

theorem Chain.accepts_iff {k : Nat} {c : Char} :
    chain.accepts k c = true ↔ ∃ σ, chain.symbols[k]? = some σ ∧ σ.accepts c = true := by
  rw [Chain.accepts, Option.any_eq_true]

theorem Chain.isMany_iff {k : Nat} :
    chain.isMany k = true ↔ ∃ σ, chain.symbols[k]? = some σ ∧ σ.isMany = true := by
  rw [Chain.isMany, Option.any_eq_true]

theorem Chain.emptyRun_eq_succ {c : Char} {k n : Nat} (h : chain.emptyRun c k = n + 1) :
    ∃ σ, chain.symbols[k]? = some σ ∧ σ.isMany = true ∧ σ.accepts c = false ∧
      chain.emptyRun c (k + 1) = n := by
  unfold Chain.emptyRun at h ⊢
  rw [← List.tail_drop]
  cases h_drop : chain.symbols.drop k with
  | nil => simp [h_drop] at h
  | cons σ symbols =>
    have h_σ := List.head?_drop (l := chain.symbols) (i := k)
    rw [h_drop, List.head?_cons] at h_σ
    rw [h_drop, List.takeWhile_cons] at h
    by_cases h_empty : (σ.isMany && !σ.accepts c) = true
    · rw [if_pos h_empty, List.length_cons, Nat.add_right_cancel_iff] at h
      rw [Bool.and_eq_true, Bool.not_eq_true'] at h_empty
      exact ⟨σ, h_σ.symm, h_empty.1, h_empty.2, h⟩
    · rw [if_neg h_empty] at h
      exact absurd h (by simp)

/-- What is passed as empty are repetitions that do not take the character. -/
theorem Chain.empty_of_lt_emptyRun {c : Char} {i k : Nat} (h_k : k ≤ i)
    (h_i : i < k + chain.emptyRun c k) : chain.isMany i = true ∧ chain.accepts i c = false := by
  induction h_n : chain.emptyRun c k generalizing k with
  | zero => exact absurd h_i (by omega)
  | succ n ih =>
    obtain ⟨σ, h_σ, h_many, h_c, h_next⟩ := Chain.emptyRun_eq_succ h_n
    rcases Nat.eq_or_lt_of_le h_k with rfl | h_lt
    · rw [Chain.isMany, Chain.accepts, h_σ]
      exact ⟨h_many, h_c⟩
    · exact ih (k := k + 1) h_lt (by omega) h_next

/-- Behind that stands a symbol that takes the character or is no repetition. -/
theorem Chain.accepts_of_emptyRun {c : Char} {k : Nat}
    (h : chain.isMany (k + chain.emptyRun c k) = true) :
    chain.accepts (k + chain.emptyRun c k) c = true := by
  induction h_n : chain.emptyRun c k generalizing k with
  | zero =>
    rw [h_n, Nat.add_zero] at h
    obtain ⟨σ, h_σ, h_many⟩ := Chain.isMany_iff.1 h
    obtain ⟨h_lt, h_get⟩ := List.getElem?_eq_some_iff.1 h_σ
    rw [Chain.emptyRun, List.drop_eq_getElem_cons h_lt, h_get, List.takeWhile_cons] at h_n
    refine Chain.accepts_iff.2 ⟨σ, h_σ, ?_⟩
    by_contra h_c
    rw [if_pos (by simp [h_many, h_c])] at h_n
    exact absurd h_n (by simp)
  | succ n ih =>
    obtain ⟨σ, h_σ, h_many, h_c, h_next⟩ := Chain.emptyRun_eq_succ h_n
    have h_eq : k + chain.emptyRun c k = k + 1 + chain.emptyRun c (k + 1) := by omega
    rw [h_eq] at h
    rw [show k + (n + 1) = k + 1 + n by omega]
    exact ih h h_next

theorem Chain.emptyRun_eq_zero {c : Char} {k : Nat} (h : chain.accepts k c = true) :
    chain.emptyRun c k = 0 := by
  apply Nat.eq_zero_of_not_pos
  intro h_pos
  have h_empty : chain.isMany k = true ∧ chain.accepts k c = false :=
    Chain.empty_of_lt_emptyRun (Nat.le_refl k) (Nat.lt_add_of_pos_right h_pos)
  rw [h] at h_empty
  exact absurd h_empty.2 (by decide)

/-- A repetition is not the last symbol. -/
theorem Chain.succ_lt_of_isMany {k : Nat} {σ : Symbol} (h_σ : chain.symbols[k]? = some σ)
    (h_many : σ.isMany = true) : k + 1 < chain.size := by
  have h_lt : k < chain.size := (List.getElem?_eq_some_iff.1 h_σ).1
  apply Nat.lt_of_le_of_ne h_lt
  intro (h_eq : k + 1 = chain.size)
  have h_last := chain.last_fixed
  rw [List.getLast?_eq_getElem?, ← Chain.size, ← h_eq, Nat.add_sub_cancel, h_σ] at h_last
  simp [h_many] at h_last

theorem Passed.empties {k : Nat} {part : List (Char × α)} {window : List α} {c : Char}
    {rest : Text} (here : α) (h : Passed chain k part window (c :: rest)) :
    Passed chain (k + chain.emptyRun c k) part
      (window ++ List.replicate (chain.emptyRun c k) here) (c :: rest) := by
  induction h_n : chain.emptyRun c k generalizing k window with
  | zero => simpa using h
  | succ n ih =>
    obtain ⟨σ, h_σ, h_many, h_c, h_next⟩ := Chain.emptyRun_eq_succ h_n
    have h_passed : Passed chain (k + 1) (part ++ []) (window ++ [here]) (c :: rest) :=
      h.repetition h_σ h_many (by simp) h_c
    rw [List.append_nil] at h_passed
    have h_all := ih h_passed h_next
    rw [List.append_assoc] at h_all
    rw [Nat.add_comm n 1, ← Nat.add_assoc, List.replicate_add]
    exact h_all

/-! ## One character -/

/-- What was read since the last match is cut in three: given up, taken by the symbols before the
    current state, and taken by the current repetition. -/
structure Follows (chain : Chain) (seen : List (Char × α)) (rest : Text) (scan : Scan α) :
    Prop where
  current_lt : scan.current < chain.size
  cut : ∃ before part run, seen = before ++ part ++ run ∧
    Passed chain scan.current part scan.window (run.map Prod.fst ++ rest) ∧
    run.length = scan.taken ∧ (∀ x ∈ run, chain.accepts scan.current x.1 = true) ∧
    (run ≠ [] → chain.isMany scan.current = true)

/-- What a step may come to: the scan goes on, or it has found a part that the symbols read. -/
def Went (chain : Chain) (seen : List (Char × α)) (rest : Text) : Scan α × Option (Span α) → Prop
  | (next, none) => Follows chain seen rest next
  | (next, some span) => Follows chain [] rest next ∧ ∃ before part, seen = before ++ part ∧
      readPossessively chain.symbols (part.map Prod.fst ++ rest) = some rest ∧ span.Delimits part

theorem Follows.root {seen : List (Char × α)} (rest : Text) (n : Nat) :
    Follows chain seen rest { comparisons := n } where
  current_lt := chain.size_pos
  cut := ⟨seen, [], [], by simp, Passed.root chain rest, rfl, by simp, by simp⟩

/-- A state that takes the character. -/
theorem take_went {before part run : List (Char × α)} {c : Char} {here : α} {k : Nat}
    {scan : Scan α} {rest : Text}
    (h : Passed chain k part scan.window (run.map Prod.fst ++ c :: rest))
    (h_taken : run.length = scan.taken) (h_run : ∀ x ∈ run, chain.accepts k x.1 = true)
    (h_many : run ≠ [] → chain.isMany k = true) (h_c : chain.accepts k c = true) :
    Went chain (before ++ part ++ run ++ [(c, here)]) rest (scan.take chain here k) := by
  obtain ⟨σ, h_σ, h_σc⟩ := Chain.accepts_iff.1 h_c
  have h_lt : k < chain.size := (List.getElem?_eq_some_iff.1 h_σ).1
  rw [Scan.take]
  by_cases h_k : chain.isMany k = true
  · -- a repetition takes one character more
    rw [if_pos h_k]
    refine ⟨h_lt, before, part, run ++ [(c, here)], ?_, ?_, ?_, ?_, fun _ => h_k⟩
    · rw [List.append_assoc (before ++ part)]
    · rw [List.map_append, List.append_assoc]
      exact h
    · rw [List.length_append, h_taken, List.length_singleton]
    · intro x h_x
      rcases List.mem_append.1 h_x with h_x | h_x
      · exact h_run x h_x
      · rw [List.mem_singleton.1 h_x]
        exact h_c
  · -- any other symbol takes one character, and nothing was taken before it
    rw [if_neg h_k]
    have h_nil : run = [] := Decidable.byContradiction fun h_ne => h_k (h_many h_ne)
    subst h_nil
    have h_fits : Fits σ c := by
      refine ⟨?_, h_σc⟩
      rw [← Bool.not_eq_true]
      exact fun h_σ_many => h_k (Chain.isMany_iff.2 ⟨σ, h_σ, h_σ_many⟩)
    have h_next : Passed chain (k + 1) (part ++ [(c, here)]) (scan.window ++ [here]) rest :=
      h.single h_σ h_fits
    rw [List.append_nil, List.append_assoc]
    by_cases h_last : k + 1 < chain.size
    · rw [if_pos h_last]
      exact ⟨h_last, before, part ++ [(c, here)], [], by simp, h_next, rfl, by simp, by simp⟩
    · -- the last symbol has taken its character, and all symbols have read the part
      rw [if_neg h_last]
      refine ⟨Follows.root rest _, before, part ++ [(c, here)], rfl, ?_, ?_, ?_⟩
      · have h_reads := h_next.reads
        rw [List.take_of_length_le (Nat.le_of_not_lt h_last)] at h_reads
        exact h_reads
      · rw [← h_next.window_head]
        cases h_window : (scan.window ++ [here]).head? with
        | none => simp at h_window
        | some first => rfl
      · rw [List.getLast?_concat]
        rfl

/-- Trying a character in a state that has taken nothing. -/
theorem attempt_went {before part : List (Char × α)} {c : Char} {here : α} {k : Nat}
    {scan : Scan α} {rest : Text} (h_taken : scan.taken = 0) (h_k : k < chain.size)
    (h : Passed chain k part scan.window (c :: rest)) :
    Went chain (before ++ part ++ [(c, here)]) rest (scan.attempt chain c here k) := by
  -- links go down, and what the part loses at a fall is given up
  induction k using Nat.strongRecOn generalizing before part scan with
  | ind k ih =>
    have h_passed := h.empties here
    rw [Scan.attempt]
    by_cases h_c : chain.accepts (k + chain.emptyRun c k) c = true
    · rw [if_pos h_c]
      rw [← List.append_nil (before ++ part)]
      exact take_went h_passed h_taken.symm (by simp) (by simp) h_c
    · rw [if_neg h_c]
      by_cases h_down : chain.link k < k
      · -- only what was taken before the repetitions passed as empty counts
        rw [dif_pos h_down]
        obtain ⟨front, last, rfl, h_last⟩ := h.fallen h_down
        rw [← List.append_assoc]
        refine ih _ h_down rfl (Nat.lt_trans h_down h_k) ?_
        rw [Scan.fallBack]
        rw [List.take_append_of_le_length (Nat.le_of_eq h.window_length.symm)]
        exact h_last
      · rw [dif_neg h_down]
        exact Follows.root rest _

/-- A step keeps the invariant, or it has found a part that the symbols read. -/
theorem step_went {seen : List (Char × α)} {c : Char} {here : α} {scan : Scan α} {rest : Text}
    (h : Follows chain seen (c :: rest) scan) :
    Went chain (seen ++ [(c, here)]) rest (scan.step chain c here) := by
  obtain ⟨h_lt, before, part, run, rfl, h_passed, h_taken, h_run, h_many⟩ := h
  rw [Scan.step]
  by_cases h_zero : scan.taken = 0
  · -- nothing was taken at the current state yet
    rw [if_pos (.inl h_zero)]
    have h_nil : run = [] := List.length_eq_zero_iff.1 (h_taken.trans h_zero)
    subst h_nil
    rw [List.append_nil]
    exact attempt_went h_zero h_lt h_passed
  · have h_ne : run ≠ [] := by
      rintro rfl
      exact h_zero h_taken.symm
    obtain ⟨σ, h_σ, h_σ_many⟩ := Chain.isMany_iff.1 (h_many h_ne)
    by_cases h_c : chain.accepts scan.current c = true
    · -- the repetition goes on
      rw [if_pos (.inr h_c), Scan.attempt]
      -- a state that takes the character is not passed as empty
      simp only [Chain.emptyRun_eq_zero h_c, Nat.add_zero, List.replicate_zero, List.append_nil]
      rw [if_pos h_c]
      exact take_went h_passed h_taken h_run h_many h_c
    · -- the repetition is over, and the state behind it tries the character
      rw [if_neg (by simp [h_zero, h_c])]
      have h_σc : σ.accepts c = false := by
        rw [← Bool.not_eq_true]
        exact fun h_σc => h_c (Chain.accepts_iff.2 ⟨σ, h_σ, h_σc⟩)
      have h_σ_run : ∀ x ∈ run, σ.accepts x.1 = true := by
        intro x h_x
        obtain ⟨τ, h_τ, h_τx⟩ := Chain.accepts_iff.1 (h_run x h_x)
        rw [h_σ, Option.some.injEq] at h_τ
        rw [h_τ]
        exact h_τx
      have h_over : Passed chain (scan.current + 1) (part ++ run) (scan.window ++ [here])
          (c :: rest) := h_passed.repetition h_σ h_σ_many h_σ_run h_σc
      rw [List.append_assoc before]
      exact attempt_went rfl (Chain.succ_lt_of_isMany h_σ h_σ_many) h_over

/-! ## Whole texts -/

/-- The spans of parts of a text, one behind the other, that the symbols read possessively. -/
inductive FoundIn (symbols : List Symbol) : List (Char × α) → List (Span α) → Prop where
  | none {s} : FoundIn symbols s []
  | next {s before part behind span spans} : s = before ++ part ++ behind →
      readPossessively symbols ((part ++ behind).map Prod.fst) = some (behind.map Prod.fst) →
      span.Delimits part → FoundIn symbols behind spans → FoundIn symbols s (span :: spans)

/-- Each of them delimits a part of the whole text. -/
theorem FoundIn.reads {symbols : List Symbol} {s : List (Char × α)} {spans : List (Span α)}
    (h : FoundIn symbols s spans) : ∀ span ∈ spans, ∃ before part behind,
      s = before ++ part ++ behind ∧
      readPossessively symbols ((part ++ behind).map Prod.fst) = some (behind.map Prod.fst) ∧
      span.Delimits part := by
  induction h with
  | none => exact fun span h_mem => absurd h_mem List.not_mem_nil
  | @next s before part behind span spans h_split h_reads h_span _ ih =>
    intro other h_mem
    rcases List.mem_cons.1 h_mem with rfl | h_mem
    · exact ⟨before, part, behind, h_split, h_reads, h_span⟩
    · obtain ⟨before', part', behind', h_split', h_rest⟩ := ih other h_mem
      refine ⟨before ++ part ++ before', part', behind', ?_, h_rest⟩
      rw [h_split, h_split', ← List.append_assoc, ← List.append_assoc]

/-- Where places go up, each of them begins and ends before the next one begins. -/
theorem FoundIn.pairwise {symbols : List Symbol} {s : List (Char × α)} {spans : List (Span α)}
    {r : α → α → Prop} (h : FoundIn symbols s spans) (h_r : s.Pairwise fun x y => r x.2 y.2) :
    spans.Pairwise fun a b => r a.first b.first ∧ r a.last b.first := by
  induction h with
  | none => exact .nil
  | @next s before part behind span spans h_split _ h_span h_found ih =>
    rw [h_split, List.pairwise_append] at h_r
    obtain ⟨-, h_behind, h_across⟩ := h_r
    refine .cons ?_ (ih h_behind)
    intro other h_mem
    obtain ⟨before', part', behind', h_split', -, h_other⟩ := h_found.reads other h_mem
    obtain ⟨y, h_y, h_first⟩ := h_other.first_mem
    -- the next match lies behind the part as a whole
    have h_ahead : ∀ x ∈ part, r x.2 other.first := by
      intro x h_x
      rw [← h_first]
      refine h_across x (List.mem_append_right _ h_x) y ?_
      rw [h_split']
      exact List.mem_append_left _ (List.mem_append_right _ h_y)
    obtain ⟨x, h_x, h_x_first⟩ := h_span.first_mem
    obtain ⟨z, h_z, h_z_last⟩ := h_span.last_mem
    exact ⟨h_x_first ▸ h_ahead x h_x, h_z_last ▸ h_ahead z h_z⟩

/-- A run reports parts that the symbols read possessively, and nothing else. -/
theorem drain_found {seen : List (Char × α)} {scan : Scan α} {s : List (Char × α)}
    (h : Follows chain seen (s.map Prod.fst) scan) :
    FoundIn chain.symbols (seen ++ s) (scan.drain chain s).2 := by
  -- `seen` is what was read since the last match; a match starts it anew
  induction s generalizing seen scan with
  | nil => exact .none
  | cons head s ih =>
    obtain ⟨c, here⟩ := head
    have h_step : Went chain (seen ++ [(c, here)]) (s.map Prod.fst) (scan.step chain c here) :=
      step_went h
    rw [Scan.drain]
    rcases h_result : scan.step chain c here with ⟨next, _ | span⟩
    · rw [h_result] at h_step
      have h_found := ih (show Follows chain (seen ++ [(c, here)]) _ next from h_step)
      rw [List.append_assoc] at h_found
      exact h_found
    · rw [h_result] at h_step
      obtain ⟨h_next, before, part, h_seen, h_reads, h_span⟩ := h_step
      have h_split : seen ++ (c, here) :: s = before ++ part ++ s := by
        rw [← h_seen, List.append_assoc]
        rfl
      rw [← List.map_append] at h_reads
      exact .next h_split h_reads h_span (ih h_next)

theorem drain_fresh_found (chain : Chain) (n : Nat) (s : List (Char × α)) :
    FoundIn chain.symbols s (({ comparisons := n } : Scan α).drain chain s).2 :=
  @drain_found α chain [] _ s (Follows.root _ n)

end PagedSearch
