/-
  PagedSearch.Proofs.Scan.Straight

  A scan with an empty window waits at the root (`Scan.Reachable.at_root`). If
  what comes then starts with a part that the symbols read possessively, the
  scan goes straight through it: the state that is reached takes each
  character, perhaps behind repetitions that are passed as empty, and nothing
  ever falls back. So this part is what is found next (`drain_straight`).
-/
import PagedSearch.Proofs.Scan.Reading

namespace PagedSearch

/-! ## Readings of a text that goes on -/

/-- The last symbol, if there is one, is no repetition. -/
def EndsFixed (symbols : List Symbol) : Prop := ∀ σ, symbols.getLast? = some σ → σ.isMany = false

section

variable {σ : Symbol} {symbols : List Symbol} {t u : Text}

theorem EndsFixed.tail (h : EndsFixed (σ :: symbols)) : EndsFixed symbols := by
  intro τ h_τ
  apply h τ
  rw [List.getLast?_cons, h_τ]
  rfl

theorem EndsFixed.ne_nil (h : EndsFixed (σ :: symbols)) (h_many : σ.isMany = true) :
    symbols ≠ [] := by
  rintro rfl
  exact absurd ((h σ rfl).symm.trans h_many) (by decide)

/-- The last symbol takes a character, so there must be one. -/
theorem EndsFixed.readPossessively_nil (h : EndsFixed symbols) (h_symbols : symbols ≠ []) :
    readPossessively symbols [] = none := by
  induction symbols with
  | nil => exact absurd rfl h_symbols
  | cons σ symbols ih =>
    by_cases h_many : σ.isMany = true
    · rw [readPossessively_many h_many]
      exact ih h.tail (h.ne_nil h_many)
    · exact PagedSearch.readPossessively_nil h_many

/-- What comes behind a reading does not matter to it. -/
theorem EndsFixed.readPossessively_append (h : EndsFixed symbols)
    (h_reads : readPossessively symbols t = some u) (rest : Text) :
    readPossessively symbols (t ++ rest) = some (u ++ rest) := by
  induction symbols generalizing t with
  | nil =>
    obtain rfl := Option.some.inj h_reads
    rfl
  | cons σ symbols ih =>
    by_cases h_many : σ.isMany = true
    · rw [readPossessively_many h_many] at h_reads ⊢
      -- the run ends inside the text, for the symbols behind it take something of it
      have h_left : t.dropWhile σ.accepts ≠ [] := by
        intro h_nil
        rw [h_nil, h.tail.readPossessively_nil (h.ne_nil h_many)] at h_reads
        exact absurd h_reads (by simp)
      rw [List.dropWhile_append, if_neg (by simpa using h_left)]
      exact ih h.tail h_reads
    · match t with
      | [] =>
        rw [PagedSearch.readPossessively_nil h_many] at h_reads
        exact absurd h_reads (by simp)
      | c :: t =>
        rw [List.cons_append, readPossessively_single h_many]
        rw [readPossessively_single h_many] at h_reads
        by_cases h_c : σ.accepts c = true
        · rw [if_pos h_c] at h_reads ⊢
          exact ih h.tail h_reads
        · rw [if_neg h_c] at h_reads
          exact absurd h_reads (by simp)

end

namespace Chain

variable {chain : Chain} {σ : Symbol} {c : Char} {k : Nat} {t u : Text}

theorem endsFixed_drop (chain : Chain) (k : Nat) : EndsFixed (chain.symbols.drop k) := by
  intro σ h_σ
  obtain ⟨τ, h_last, h_τ⟩ := (Option.any_eq_true _ _).1 chain.last_fixed
  rw [List.getLast?_drop] at h_σ
  split at h_σ
  · exact absurd h_σ (by simp)
  · rw [h_last, Option.some.injEq] at h_σ
    subst h_σ
    simpa using h_τ

theorem drop_eq_cons (h : chain.symbols[k]? = some σ) :
    chain.symbols.drop k = σ :: chain.symbols.drop (k + 1) := by
  obtain ⟨h_lt, rfl⟩ := List.getElem?_eq_some_iff.1 h
  exact List.drop_eq_getElem_cons h_lt

/-- Repetitions that are passed as empty are read as empty. -/
theorem readPossessively_emptyRun (h_k : k < chain.size)
    (h : readPossessively (chain.symbols.drop k) (c :: t) = some u) :
    k + chain.emptyRun c k < chain.size ∧
      readPossessively (chain.symbols.drop (k + chain.emptyRun c k)) (c :: t) = some u := by
  induction h_n : chain.emptyRun c k generalizing k with
  | zero => exact ⟨h_k, h⟩
  | succ n ih =>
    obtain ⟨σ, h_σ, h_many, h_c, h_next⟩ := emptyRun_eq_succ h_n
    rw [drop_eq_cons h_σ, readPossessively_many h_many,
      List.dropWhile_cons_of_neg (by simp [h_c])] at h
    obtain ⟨h_size, h_reads⟩ := ih (succ_lt_of_isMany h_σ h_many) h h_next
    rw [Nat.add_comm n 1, ← Nat.add_assoc]
    exact ⟨h_size, h_reads⟩

/-- The state behind them takes the character. -/
theorem accepts_of_reads (h_k : k < chain.size)
    (h : readPossessively (chain.symbols.drop k) (c :: t) = some u) :
    chain.accepts (k + chain.emptyRun c k) c = true := by
  obtain ⟨h_lt, h_reads⟩ := readPossessively_emptyRun h_k h
  have h_σ := List.getElem?_eq_getElem h_lt
  by_cases h_many : chain.isMany (k + chain.emptyRun c k) = true
  · exact accepts_of_emptyRun h_many
  · rw [isMany_eq h_σ] at h_many
    rw [drop_eq_cons h_σ, readPossessively_single h_many] at h_reads
    exact accepts_iff.2 ⟨_, h_σ, (Option.ite_none_right_eq_some.1 h_reads).1⟩

theorem emptyRun_root (chain : Chain) (c : Char) : chain.emptyRun c 0 = 0 := by
  apply Nat.eq_zero_of_not_pos
  intro h_pos
  rw [← Nat.zero_add (chain.emptyRun c 0)] at h_pos
  have h_many := (empty_of_lt_emptyRun (Nat.le_refl 0) h_pos).1
  rw [chain.isMany_zero] at h_many
  exact absurd h_many (by decide)

end Chain

/-! ## One character -/

variable {α : Type} {chain : Chain}

/-- The window of a scan before state `k` begins where the part that was taken begins. Before
    anything is taken, the scan is at the root. -/
structure Begins (part : List (Char × α)) (k : Nat) (window : List α) : Prop where
  head?_eq : window.head? = part.head?.map Prod.snd
  eq_root : part = [] → k = 0

namespace Begins

variable {part : List (Char × α)} {k : Nat} {window : List α} {here : α}

theorem ne_nil (h : Begins part k window) (h_many : chain.isMany k = true) : part ≠ [] := by
  intro h_nil
  rw [h.eq_root h_nil, chain.isMany_zero] at h_many
  exact absurd h_many (by decide)

/-- Repetitions passed as empty stand behind the first place. -/
theorem append (h : Begins part k window) (h_part : part ≠ []) (j : Nat) (places : List α) :
    Begins part j (window ++ places) where
  head?_eq := by
    cases part with
    | nil => exact absurd rfl h_part
    | cons x part => rw [List.head?_append, h.head?_eq]; rfl
  eq_root h_nil := absurd h_nil h_part

theorem empties (h : Begins part k window) (chain : Chain) (c : Char) (here : α) :
    Begins part (k + chain.emptyRun c k)
      (window ++ List.replicate (chain.emptyRun c k) here) := by
  by_cases h_part : part = []
  · obtain rfl := h.eq_root h_part
    rw [chain.emptyRun_root, List.replicate_zero, List.append_nil]
    exact h
  · exact h.append h_part _ _

theorem single (h : Begins part k window) (c : Char) (here : α) :
    Begins (part ++ [(c, here)]) (k + 1) (window ++ [here]) where
  head?_eq := by
    rw [List.head?_append, List.head?_append, h.head?_eq]
    cases part.head? <;> rfl
  eq_root h_nil := absurd h_nil (by simp)

theorem repetition (h : Begins part k window) (h_many : chain.isMany k = true) (c : Char)
    (here : α) : Begins (part ++ [(c, here)]) k window where
  head?_eq := by
    rw [List.head?_append_of_ne_nil _ (h.ne_nil h_many)]
    exact h.head?_eq
  eq_root h_nil := absurd h_nil (by simp)

end Begins

/-- A scan that has taken `part` and goes straight on: from its state on, the symbols read what
    comes possessively and leave `behind`. -/
structure Straight (chain : Chain) (part : List (Char × α)) (t behind : Text) (scan : Scan α) :
    Prop where
  current_lt : scan.current < chain.size
  reads : readPossessively (chain.symbols.drop scan.current) t = some behind
  isMany_of_taken : scan.taken ≠ 0 → chain.isMany scan.current = true
  begins : Begins part scan.current scan.window

/-- What a step comes to then: the scan goes straight on, or it has found what it has taken. -/
def WentOn (chain : Chain) (part : List (Char × α)) (t behind : Text) :
    Scan α × Option (Span α) → Prop
  | (next, none) => Straight chain part t behind next
  | (_, some span) => t = behind ∧ span.Delimits part

section

variable {part : List (Char × α)} {scan : Scan α} {c : Char} {here : α} {k : Nat} {t behind : Text}

theorem take_wentOn (h_c : chain.accepts k c = true)
    (h_reads : readPossessively (chain.symbols.drop k) (c :: t) = some behind)
    (h_begins : Begins part k scan.window) :
    WentOn chain (part ++ [(c, here)]) t behind (scan.take chain here k) := by
  obtain ⟨σ, h_σ, h_σc⟩ := Chain.accepts_iff.1 h_c
  have h_lt : k < chain.size := (List.getElem?_eq_some_iff.1 h_σ).1
  have h_many := Chain.isMany_eq h_σ
  rw [Scan.take]
  by_cases h_k : chain.isMany k = true
  · -- the repetition takes the character and waits for more
    rw [if_pos h_k]
    refine ⟨h_lt, ?_, fun _ => h_k, h_begins.repetition h_k c here⟩
    rw [Chain.drop_eq_cons h_σ, readPossessively_many (h_many ▸ h_k)] at h_reads ⊢
    rw [List.dropWhile_cons_of_pos h_σc] at h_reads
    exact h_reads
  · rw [if_neg h_k]
    have h_next := h_begins.single c here
    rw [Chain.drop_eq_cons h_σ, readPossessively_single (h_many ▸ h_k), if_pos h_σc] at h_reads
    by_cases h_last : k + 1 < chain.size
    · rw [if_pos h_last]
      exact ⟨h_last, h_reads, fun h => absurd rfl h, h_next⟩
    · -- no symbol is left, and nothing more is read
      rw [if_neg h_last]
      rw [List.drop_eq_nil_of_le (Nat.le_of_not_lt h_last)] at h_reads
      refine ⟨Option.some.inj h_reads, ?_, ?_⟩
      · rw [← h_next.head?_eq]
        cases h_window : (scan.window ++ [here]).head? with
        | none => simp at h_window
        | some first => rfl
      · rw [List.getLast?_concat]
        rfl

theorem attempt_wentOn (h_k : k < chain.size)
    (h_reads : readPossessively (chain.symbols.drop k) (c :: t) = some behind)
    (h_begins : Begins part k scan.window) :
    WentOn chain (part ++ [(c, here)]) t behind (scan.attempt chain c here k) := by
  have h_c := Chain.accepts_of_reads h_k h_reads
  rw [Scan.attempt]
  simp only [if_pos h_c]
  exact take_wentOn h_c (Chain.readPossessively_emptyRun h_k h_reads).2
    (h_begins.empties chain c here)

/-- A step goes on with the reading. -/
theorem step_wentOn (h : Straight chain part (c :: t) behind scan) :
    WentOn chain (part ++ [(c, here)]) t behind (scan.step chain c here) := by
  rw [Scan.step]
  by_cases h_on : scan.taken = 0 ∨ chain.accepts scan.current c = true
  · rw [if_pos h_on]
    exact attempt_wentOn h.current_lt h.reads h.begins
  · -- the repetition under way is over, and the reading goes on behind it
    rw [if_neg h_on]
    rw [not_or] at h_on
    have h_many := h.isMany_of_taken h_on.1
    obtain ⟨σ, h_σ, h_σ_many⟩ := Chain.isMany_iff.1 h_many
    have h_σc : ¬ σ.accepts c = true := fun h_σc => h_on.2 (Chain.accepts_iff.2 ⟨σ, h_σ, h_σc⟩)
    have h_reads := h.reads
    rw [Chain.drop_eq_cons h_σ, readPossessively_many h_σ_many,
      List.dropWhile_cons_of_neg h_σc] at h_reads
    exact attempt_wentOn (Chain.succ_lt_of_isMany h_σ h_σ_many) h_reads
      (h.begins.append (h.begins.ne_nil h_many) _ _)

end

/-! ## Whole texts -/

/-- A scan that goes straight on finds what is read, and nothing before. -/
theorem drain_straight {part s : List (Char × α)} {scan : Scan α} {behind : Text}
    (h : Straight chain part (s.map Prod.fst) behind scan) :
    ∃ more rest span spans, s = more ++ rest ∧ rest.map Prod.fst = behind ∧
      (scan.drain chain s).2 = span :: spans ∧ span.Delimits (part ++ more) := by
  induction s generalizing part scan with
  | nil =>
    -- symbols are left, so there must be something to read
    have h_symbols : chain.symbols.drop scan.current ≠ [] := by
      rw [ne_eq, List.drop_eq_nil_iff]
      exact Nat.not_le_of_lt h.current_lt
    have h_none := (chain.endsFixed_drop scan.current).readPossessively_nil h_symbols
    exact absurd (h_none.symm.trans h.reads) (by simp)
  | cons head s ih =>
    obtain ⟨c, here⟩ := head
    have h_step : WentOn chain (part ++ [(c, here)]) (s.map Prod.fst) behind
        (scan.step chain c here) := step_wentOn h
    rw [Scan.drain]
    rcases h_result : scan.step chain c here with ⟨next, _ | span⟩
    · rw [h_result] at h_step
      obtain ⟨more, rest, span, spans, rfl, h_rest, h_drain, h_span⟩ := ih h_step
      rw [List.append_assoc] at h_span
      exact ⟨(c, here) :: more, rest, span, spans, rfl, h_rest, h_drain, h_span⟩
    · rw [h_result] at h_step
      obtain ⟨h_behind, h_span⟩ := h_step
      exact ⟨[(c, here)], s, span, _, rfl, h_behind, rfl, h_span⟩

/-! ## The root -/

/-- The scans that come of steps on one without a partial match. -/
inductive Scan.Reachable (chain : Chain) : Scan α → Prop where
  | fresh (comparisons : Nat) : Reachable chain { comparisons }
  | step {scan : Scan α} (c : Char) (here : α) :
    Reachable chain scan → Reachable chain (scan.step chain c here).1

namespace Scan.Reachable

variable {scan : Scan α}

theorem follows (h : scan.Reachable chain) (rest : Text) :
    ∃ seen, Follows chain seen rest scan := by
  induction h generalizing rest with
  | fresh comparisons => exact ⟨[], Follows.root rest comparisons⟩
  | @step scan c here _ ih =>
    obtain ⟨seen, h_seen⟩ := ih (c :: rest)
    have h_step : Went chain (seen ++ [(c, here)]) rest (scan.step chain c here) :=
      step_went h_seen
    rcases h_result : scan.step chain c here with ⟨next, _ | span⟩
    · rw [h_result] at h_step
      exact ⟨_, h_step⟩
    · rw [h_result] at h_step
      exact ⟨[], h_step.1⟩

/-- An empty window means that the scan is at the root and has taken nothing. -/
theorem at_root (h : scan.Reachable chain) (h_window : scan.window = []) :
    scan.current = 0 ∧ scan.taken = 0 := by
  obtain ⟨seen, h_lt, before, part, run, -, h_passed, h_taken, -, h_many⟩ := h.follows []
  have h_root : scan.current = 0 := by
    rw [← h_passed.window_length, h_window]
    rfl
  refine ⟨h_root, ?_⟩
  -- the root is no repetition
  have h_run : run = [] := by
    by_contra h_ne
    have h_zero := h_many h_ne
    rw [h_root, chain.isMany_zero] at h_zero
    exact absurd h_zero (by decide)
  rw [← h_taken, h_run]
  rfl

theorem advance (h : scan.Reachable chain) (s : List (Char × α)) :
    (scan.advance chain s).1.Reachable chain := by
  induction s generalizing scan with
  | nil => exact h
  | cons head s ih =>
    obtain ⟨c, here⟩ := head
    have h_step := h.step c here
    rw [Scan.advance]
    rcases h_result : scan.step chain c here with ⟨next, _ | span⟩
    · rw [h_result] at h_step
      exact ih h_step
    · rw [h_result] at h_step
      exact h_step

/-- From an empty window on, the next thing found is what the symbols read first. -/
theorem drain_first (h : scan.Reachable chain) (h_window : scan.window = [])
    {w : List (Char × α)} (h_reads : readPossessively chain.symbols (w.map Prod.fst) = some [])
    (rest : List (Char × α)) :
    ∃ span spans, (scan.drain chain (w ++ rest)).2 = span :: spans ∧ span.Delimits w := by
  obtain ⟨h_root, h_taken⟩ := h.at_root h_window
  have h_fixed := chain.endsFixed_drop 0
  have h_straight : Straight chain [] ((w ++ rest).map Prod.fst) (rest.map Prod.fst) scan := by
    refine ⟨h_root ▸ chain.size_pos, ?_, fun h_ne => absurd h_taken h_ne, ?_, fun _ => h_root⟩
    · rw [h_root, List.map_append]
      exact h_fixed.readPossessively_append h_reads _
    · rw [h_window]
      rfl
  obtain ⟨more, left, span, spans, h_split, h_left, h_drain, h_span⟩ := drain_straight h_straight
  -- the part that is left is the one behind what is read
  have h_length : rest.length = left.length := by
    rw [← List.length_map Prod.fst, ← h_left, List.length_map]
  obtain ⟨rfl, rfl⟩ := List.append_inj' h_split h_length
  exact ⟨span, spans, h_drain, h_span⟩

end Scan.Reachable

end PagedSearch
