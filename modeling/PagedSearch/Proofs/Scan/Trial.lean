/-
  PagedSearch.Proofs.Scan.Trial

  A scan tries a character round by round. In each round one state is compared
  with the character: it takes it, hands it on as a repetition that is over or
  empty, or falls back. `Trial.round?` makes a round with every look-up,
  subtraction and cut checked, and comes to nothing where one of them fails.

  The number of the state goes up where the character is handed on and down
  where the scan falls back, so it measures nothing by itself. But a scan falls
  back from where its last run of empty repetitions began, and links go down:
  what goes down is the state at which a run begins. Hence from every scan that
  steps and restarts lead to the rounds end, no check fails, and they end with
  the step of the scan (`step_settles`).
-/
import PagedSearch.Proofs.Scan.Straight

namespace PagedSearch

variable {α : Type}

/-! ## Rounds -/

/-- The difference of two numbers, if it is not below zero. -/
def subtract? (m n : Nat) : Option Nat := if n ≤ m then some (m - n) else none

/-- A list without its first `n` elements, if it has as many. -/
def dropFirst? (n : Nat) (l : List α) : Option (List α) :=
  if n ≤ l.length then some (l.drop n) else none

/-- How far a scan has come in trying a character. -/
structure Trial (α : Type) where
  /-- The state that is tried next. -/
  state : Nat
  /-- How many characters this state has taken before. -/
  taken : Nat := 0
  /-- Where the run of empty repetitions began that have just handed the character on. -/
  emptyFrom : Option Nat := none
  window : List α
  comparisons : Nat

/-- What a round comes to. -/
inductive Round (α : Type) where
  /-- Another state is to be tried. -/
  | again (trial : Trial α)
  /-- The character is read: the scan as it goes on, and the match that it has found. -/
  | over (scan : Scan α) (span : Option (Span α))

namespace Trial

/-- Goes on behind the state with symbol `σ`, which has taken the character at `here`. -/
def take? (chain : Chain) (here : α) (σ : Symbol) (trial : Trial α) : Option (Round α) :=
  if σ.isMany then
    some (.over ⟨trial.state, trial.window, trial.taken + 1, trial.comparisons⟩ none)
  else
    let window := trial.window ++ [here]
    if trial.state + 1 < chain.size then
      some (.over ⟨trial.state + 1, window, 0, trial.comparisons⟩ none)
    else window.head?.map fun first =>
      .over { comparisons := trial.comparisons } (some ⟨first, here⟩)

/-- Hands the character on to the next state. -/
def handOn (here : α) (trial : Trial α) : Trial α where
  state := trial.state + 1
  emptyFrom :=
    if trial.taken = 0 && trial.emptyFrom.isNone then some trial.state else trial.emptyFrom
  window := trial.window ++ [here]
  comparisons := trial.comparisons

/-- Falls back from state `k`, to which the window belongs. -/
def fallBack? (chain : Chain) (k : Nat) (trial : Trial α) : Option (Round α) :=
  (chain.links[k]?).bind fun link => (subtract? k link).bind fun dropped =>
    (dropFirst? dropped trial.window).map fun window =>
      .again { state := link, window, comparisons := trial.comparisons }

/-- Compares the state with the character. Nothing if a state is looked up that does not exist, if
    a difference is below zero, if the window is to lose more than it has, or if a match has no
    beginning in the window. -/
def round? (chain : Chain) (c : Char) (here : α) (trial : Trial α) : Option (Round α) :=
  (chain.symbols[trial.state]?).bind fun σ =>
    let trial := { trial with comparisons := trial.comparisons + 1 }
    if σ.accepts c then trial.take? chain here σ
    else if σ.isMany && trial.state + 1 < chain.size then some (.again (trial.handOn here))
    else match trial.emptyFrom with
      | some k => { trial with window := trial.window.take k }.fallBack? chain k
      | none =>
        if trial.state = 0 then some (.over { comparisons := trial.comparisons } none)
        else trial.fallBack? chain trial.state

/-- Round after round, none of which fails, the trial comes to an end with this result. -/
inductive Settles (chain : Chain) (c : Char) (here : α) :
    Trial α → Scan α × Option (Span α) → Prop where
  | over {trial scan span} : trial.round? chain c here = some (.over scan span) →
      Settles chain c here trial (scan, span)
  | again {trial next result} : trial.round? chain c here = some (.again next) →
      Settles chain c here next result → Settles chain c here trial result

end Trial

namespace Scan

/-- The trial of state `k`, behind a run of empty repetitions or not. -/
def trial (scan : Scan α) (k : Nat) (emptyFrom : Option Nat) : Trial α :=
  ⟨k, scan.taken, emptyFrom, scan.window, scan.comparisons⟩

/-- The scan after one more comparison. -/
def compared (scan : Scan α) : Scan α := { scan with comparisons := scan.comparisons + 1 }

/-- The scan behind a repetition that has ended at `here`. -/
def handedOn (here : α) (scan : Scan α) : Scan α :=
  { scan.compared with window := scan.window ++ [here], taken := 0 }

/-! ## What a round comes to -/

variable {chain : Chain} {c : Char} {here : α} {j k : Nat} {emptyFrom : Option Nat}

section

variable (scan : Scan α)

theorem take?_eq {σ : Symbol} (h_σ : chain.symbols[k]? = some σ) :
    (scan.trial k emptyFrom).take? chain here σ =
      some (.over (scan.take chain here k).1 (scan.take chain here k).2) := by
  rw [Trial.take?, Scan.take, Chain.isMany_eq h_σ]
  by_cases h_many : σ.isMany = true
  · rw [if_pos h_many, if_pos h_many]
    rfl
  · rw [if_neg h_many, if_neg h_many]
    by_cases h_last : k + 1 < chain.size
    · rw [if_pos (by exact h_last), if_pos h_last]
      rfl
    · -- the place of this character is in the window, so the window has a first place
      rw [if_neg (by exact h_last), if_neg h_last]
      obtain ⟨first, h_first⟩ : ∃ first, (scan.window ++ [here]).head? = some first := by
        rw [← Option.isSome_iff_exists]
        simp
      simp only [trial, h_first]
      rfl

/-- The state takes the character. -/
theorem round?_take (h_c : chain.accepts k c = true) :
    (scan.trial k emptyFrom).round? chain c here =
      some (.over (scan.compared.take chain here k).1 (scan.compared.take chain here k).2) := by
  obtain ⟨σ, h_σ, h_σc⟩ := Chain.accepts_iff.1 h_c
  rw [Trial.round?, trial, h_σ, Option.bind_some, if_pos h_σc]
  exact scan.compared.take?_eq h_σ

/-- The state is a repetition that does not take the character. -/
theorem round?_handOn (h_many : chain.isMany k = true) (h_c : ¬ chain.accepts k c = true) :
    (scan.trial k emptyFrom).round? chain c here =
      some (.again ((scan.handedOn here).trial (k + 1)
        (if scan.taken = 0 && emptyFrom.isNone then some k else emptyFrom))) := by
  obtain ⟨σ, h_σ, h_σ_many⟩ := Chain.isMany_iff.1 h_many
  have h_σc : ¬ σ.accepts c = true := fun h_σc => h_c (Chain.accepts_iff.2 ⟨σ, h_σ, h_σc⟩)
  have h_next := Chain.succ_lt_of_isMany h_σ h_σ_many
  rw [Trial.round?, trial, h_σ, Option.bind_some, if_neg h_σc, if_pos (by simp [h_σ_many, h_next])]
  rfl

/-- A state of the chain can be fallen back from. -/
theorem fallBack?_eq {trial : Trial α} (h_k : k < chain.size) (h_length : k ≤ scan.window.length)
    (h_window : trial.window = scan.window.take k)
    (h_comparisons : trial.comparisons = scan.comparisons) :
    trial.fallBack? chain k =
      some (.again ((scan.fallBack chain k).trial (chain.link k) none)) := by
  have h_link : chain.links[k]? = some (chain.link k) := by
    rw [Chain.link, List.getD_eq_getElem?_getD,
      List.getElem?_eq_getElem (by rw [chain.links_length]; exact h_k), Option.getD_some]
  have h_le : chain.link k ≤ k := (chain.ends_link_subsumes k).1
  have h_dropped : k - chain.link k ≤ (scan.window.take k).length := by
    rw [List.length_take, Nat.min_eq_left h_length]
    exact Nat.sub_le k _
  rw [Trial.fallBack?, h_link, Option.bind_some, subtract?, if_pos h_le, Option.bind_some,
    dropFirst?, h_window, if_pos h_dropped, h_comparisons]
  rfl

section

variable (h_k : k < chain.size) (h_many : ¬ chain.isMany k = true)
  (h_c : ¬ chain.accepts k c = true)

include h_k h_many h_c

theorem round?_of_refused :
    (scan.trial k emptyFrom).round? chain c here = match emptyFrom with
      | some j =>
        { scan.compared.trial k emptyFrom with window := scan.window.take j }.fallBack? chain j
      | none =>
        if k = 0 then some (.over scan.compared.restart none)
        else (scan.compared.trial k none).fallBack? chain k := by
  have h_σ : chain.symbols[k]? = some chain.symbols[k] := List.getElem?_eq_getElem h_k
  have h_σc : ¬ chain.symbols[k].accepts c = true :=
    fun h_σc => h_c (Chain.accepts_iff.2 ⟨_, h_σ, h_σc⟩)
  rw [Chain.isMany_eq h_σ] at h_many
  rw [Trial.round?, trial, h_σ, Option.bind_some, if_neg h_σc, if_neg (by simp [h_many])]
  cases emptyFrom with
  | some j => rfl
  | none => rfl

/-- The state refuses the character behind a run of empty repetitions. -/
theorem round?_fallBack_run (h_j : j < chain.size) (h_window : j ≤ scan.window.length) :
    (scan.trial k (some j)).round? chain c here =
      some (.again ((scan.compared.fallBack chain j).trial (chain.link j) none)) := by
  rw [round?_of_refused scan h_k h_many h_c]
  exact fallBack?_eq scan.compared h_j h_window rfl rfl

/-- The state refuses the character. -/
theorem round?_fallBack (h_pos : 0 < k) (h_window : scan.window.length = k) :
    (scan.trial k none).round? chain c here =
      some (.again ((scan.compared.fallBack chain k).trial (chain.link k) none)) := by
  have h_whole : scan.window = scan.window.take k :=
    (List.take_of_length_le (Nat.le_of_eq h_window)).symm
  rw [round?_of_refused scan h_k h_many h_c]
  simp only [if_neg (Nat.ne_of_gt h_pos)]
  exact fallBack?_eq scan.compared h_k (Nat.le_of_eq h_window.symm) h_whole rfl

/-- The root refuses the character. -/
theorem round?_root (h_root : k = 0) :
    (scan.trial k none).round? chain c here = some (.over scan.compared.restart none) := by
  rw [round?_of_refused scan h_k h_many h_c]
  simp only [if_pos h_root]

end

end

/-! ## From round to round -/

/-- The character is handed on through a run of empty repetitions, which remembers where it began
    unless one before it does. -/
theorem settles_of_run {scan : Scan α} {result : Scan α × Option (Span α)}
    (h_taken : scan.taken = 0) (h : (({ scan with
        window := scan.window ++ List.replicate (chain.emptyRun c k) here
        comparisons := scan.comparisons + chain.emptyRun c k } : Scan α).trial
      (k + chain.emptyRun c k)
      (if chain.emptyRun c k = 0 then emptyFrom else emptyFrom.or (some k))).Settles
        chain c here result) :
    (scan.trial k emptyFrom).Settles chain c here result := by
  induction h_n : chain.emptyRun c k generalizing k emptyFrom scan with
  | zero =>
    rw [h_n, List.replicate_zero, List.append_nil, if_pos rfl] at h
    exact h
  | succ n ih =>
    obtain ⟨σ, h_σ, h_many, h_c, h_next⟩ := Chain.emptyRun_eq_succ h_n
    have h_refused : ¬ chain.accepts k c = true := by
      rw [Chain.accepts, h_σ, Option.any_some, h_c]
      exact Bool.false_ne_true
    have h_from : (if scan.taken = 0 && emptyFrom.isNone then some k else emptyFrom) =
        emptyFrom.or (some k) := by
      rw [h_taken]
      cases emptyFrom with
      | none => rfl
      | some j => rfl
    have h_window : scan.window ++ [here] ++ List.replicate n here =
        scan.window ++ List.replicate (n + 1) here := by
      rw [List.append_assoc, List.singleton_append, ← List.replicate_succ]
    refine .again (round?_handOn scan (Chain.isMany_iff.2 ⟨σ, h_σ, h_many⟩) h_refused) ?_
    rw [h_from]
    refine ih rfl ?_ h_next
    -- where the run began is remembered from here on
    have h_kept : (if n = 0 then emptyFrom.or (some k) else
        (emptyFrom.or (some k)).or (some (k + 1))) = emptyFrom.or (some k) := by
      cases emptyFrom <;> simp
    rw [h_n, if_neg (Nat.succ_ne_zero n)] at h
    rw [h_next, h_kept]
    show (Trial.mk (k + 1 + n) 0 _ (scan.window ++ [here] ++ List.replicate n here)
      (scan.comparisons + 1 + n)).Settles chain c here result
    rw [h_window, Nat.add_right_comm k, Nat.add_right_comm scan.comparisons, ← h_taken]
    exact h

/-- Behind a run of empty repetitions there is a state. -/
theorem add_emptyRun_lt (c : Char) (h_k : k < chain.size) :
    k + chain.emptyRun c k < chain.size := by
  cases h_n : chain.emptyRun c k with
  | zero => exact h_k
  | succ n =>
    have h_last : chain.isMany (k + n) = true :=
      (Chain.empty_of_lt_emptyRun (Nat.le_add_right k n) (by rw [h_n]; omega)).1
    obtain ⟨σ, h_σ, h_many⟩ := Chain.isMany_iff.1 h_last
    exact Chain.succ_lt_of_isMany h_σ h_many

theorem fallBack_window_length {scan : Scan α} (h_window : k ≤ scan.window.length) :
    (scan.fallBack chain k).window.length = chain.link k := by
  have h_le : chain.link k ≤ k := (chain.ends_link_subsumes k).1
  rw [fallBack, List.length_drop, List.length_take, Nat.min_eq_left h_window]
  omega

/-- A trial that begins with nothing taken settles as the attempt does. -/
theorem attempt_settles {scan : Scan α} (h_taken : scan.taken = 0) (h_k : k < chain.size)
    (h_window : scan.window.length = k) :
    (scan.trial k none).Settles chain c here (scan.attempt chain c here k) := by
  -- links go down, so from fallback to fallback the state at which a run begins goes down
  induction k using Nat.strongRecOn generalizing scan with
  | ind k ih =>
    apply settles_of_run h_taken
    have h_length : k ≤ (scan.window ++ List.replicate (chain.emptyRun c k) here).length := by
      rw [List.length_append, h_window]
      exact Nat.le_add_right k _
    have h_lt := add_emptyRun_lt c h_k
    rw [Scan.attempt]
    by_cases h_c : chain.accepts (k + chain.emptyRun c k) c = true
    · simp only [if_pos h_c]
      exact .over (round?_take _ h_c)
    · have h_many : ¬ chain.isMany (k + chain.emptyRun c k) = true :=
        fun h_many => h_c (Chain.accepts_of_emptyRun h_many)
      simp only [if_neg h_c]
      by_cases h_root : k = 0
      · -- the root is no repetition, and there is nowhere to fall back to
        subst h_root
        have h_run := chain.emptyRun_root c
        rw [dif_neg (by simp), if_pos h_run, h_run]
        rw [h_run] at h_lt h_many h_c
        exact .over (round?_root _ h_lt h_many h_c rfl)
      · have h_down := chain.link_lt (Nat.pos_of_ne_zero h_root)
        rw [dif_pos h_down]
        refine .again ?_
          (ih _ h_down rfl (Nat.lt_trans h_down h_k) (fallBack_window_length h_length))
        by_cases h_run : chain.emptyRun c k = 0
        · rw [if_pos h_run]
          rw [h_run] at h_lt h_many h_c ⊢
          refine round?_fallBack _ h_lt h_many h_c (Nat.pos_of_ne_zero h_root) ?_
          rw [List.replicate_zero, List.append_nil]
          exact h_window
        · rw [if_neg h_run]
          exact round?_fallBack_run _ h_lt h_many h_c h_k h_length

/-- The trial of a scan settles as its step does. -/
theorem trial_settles {scan : Scan α} (h_lt : scan.current < chain.size)
    (h_window : scan.window.length = scan.current)
    (h_many : scan.taken ≠ 0 → chain.isMany scan.current = true) :
    (scan.trial scan.current none).Settles chain c here (scan.step chain c here) := by
  rw [Scan.step]
  by_cases h_taken : scan.taken = 0
  · rw [if_pos (.inl h_taken)]
    exact attempt_settles h_taken h_lt h_window
  · by_cases h_c : chain.accepts scan.current c = true
    · -- the repetition under way goes on
      rw [if_pos (.inr h_c), Scan.attempt]
      simp only [Chain.emptyRun_eq_zero h_c, Nat.add_zero, List.replicate_zero, List.append_nil,
        if_pos h_c]
      exact .over (round?_take scan h_c)
    · -- it is over and not empty, so the state behind it is tried as if nothing was passed
      rw [if_neg (by simp [h_taken, h_c])]
      obtain ⟨σ, h_σ, h_σ_many⟩ := Chain.isMany_iff.1 (h_many h_taken)
      refine .again (round?_handOn scan (h_many h_taken) h_c) ?_
      rw [if_neg (by simp [h_taken])]
      have h_over : (scan.handedOn here).window.length = scan.current + 1 := by
        rw [handedOn, List.length_append, h_window, List.length_singleton]
      exact attempt_settles rfl (Chain.succ_lt_of_isMany h_σ h_σ_many) h_over

/-! ## The window -/

/-- The places of a window are among those that were read, and stand in their order. -/
structure Ordered (r : α → α → Prop) (seen window : List α) : Prop where
  mem : ∀ p ∈ window, p ∈ seen
  pairwise : window.Pairwise r

section

variable {r : α → α → Prop} {seen window : List α} {scan : Scan α}

theorem Ordered.sublist {part : List α} (h : Ordered r seen window) (h_part : part.Sublist window) :
    Ordered r seen part :=
  ⟨fun p h_p => h.mem p (h_part.subset h_p), h.pairwise.sublist h_part⟩

variable (h_here : here ∈ seen) (h_seen : ∀ p ∈ seen, r p here)

include h_here h_seen

theorem Ordered.append (h : Ordered r seen window) (n : Nat) :
    Ordered r seen (window ++ List.replicate n here) where
  mem p h_p := by
    rcases List.mem_append.1 h_p with h_p | h_p
    · exact h.mem p h_p
    · rw [List.eq_of_mem_replicate h_p]
      exact h_here
  pairwise := by
    refine List.pairwise_append.2 ⟨h.pairwise, ?_, ?_⟩
    · exact List.pairwise_replicate.2 (.inr (h_seen here h_here))
    · intro p h_p q h_q
      rw [List.eq_of_mem_replicate h_q]
      exact h_seen p (h.mem p h_p)

theorem take_ordered (h : Ordered r seen scan.window) :
    Ordered r seen (scan.take chain here k).1.window := by
  rw [Scan.take]
  by_cases h_many : chain.isMany k = true
  · rw [if_pos h_many]
    exact h
  · rw [if_neg h_many]
    by_cases h_last : k + 1 < chain.size
    · rw [if_pos h_last]
      exact h.append h_here h_seen 1
    · rw [if_neg h_last]
      exact ⟨fun p h_p => absurd h_p List.not_mem_nil, .nil⟩

theorem attempt_ordered (h : Ordered r seen scan.window) :
    Ordered r seen (scan.attempt chain c here k).1.window := by
  induction k using Nat.strongRecOn generalizing scan with
  | ind k ih =>
    have h_passed := h.append h_here h_seen (chain.emptyRun c k)
    rw [Scan.attempt]
    by_cases h_c : chain.accepts (k + chain.emptyRun c k) c = true
    · simp only [if_pos h_c]
      exact take_ordered h_here h_seen h_passed
    · simp only [if_neg h_c]
      by_cases h_down : chain.link k < k
      · -- a fallback keeps a part of the window
        rw [dif_pos h_down]
        exact ih _ h_down (h_passed.sublist ((List.drop_sublist _ _).trans (List.take_sublist _ _)))
      · rw [dif_neg h_down]
        exact ⟨fun p h_p => absurd h_p List.not_mem_nil, .nil⟩

theorem step_ordered (h : Ordered r seen scan.window) :
    Ordered r seen (scan.step chain c here).1.window := by
  rw [Scan.step]
  by_cases h_on : scan.taken = 0 ∨ chain.accepts scan.current c = true
  · rw [if_pos h_on]
    exact attempt_ordered h_here h_seen h
  · rw [if_neg h_on]
    exact attempt_ordered h_here h_seen (h.append h_here h_seen 1)

end

/-! ## Steps and restarts -/

/-- The scans that steps and restarts lead to, with the places that were read since the last
    restart. -/
inductive Reads (chain : Chain) : List α → Scan α → Prop where
  | fresh : Reads chain [] {}
  | restart {seen : List α} {scan : Scan α} : Reads chain seen scan → Reads chain [] scan.restart
  | step {seen : List α} {scan : Scan α} (c : Char) (here : α) :
    Reads chain seen scan → Reads chain (seen ++ [here]) (scan.step chain c here).1

namespace Reads

variable {seen : List α} {scan : Scan α}

theorem reachable (h : scan.Reads chain seen) : scan.Reachable chain := by
  induction h with
  | fresh => exact .fresh 0
  | @restart _ scan _ _ => exact .fresh scan.comparisons
  | step c here _ ih => exact ih.step c here

theorem ordered {r : α → α → Prop} (h_refl : ∀ p, r p p) (h : scan.Reads chain seen)
    (h_seen : seen.Pairwise r) : Ordered r seen scan.window := by
  induction h with
  | fresh => exact ⟨fun p h_p => absurd h_p List.not_mem_nil, .nil⟩
  | restart => exact ⟨fun p h_p => absurd h_p List.not_mem_nil, .nil⟩
  | @step seen scan c here _ ih =>
    obtain ⟨h_before, -, h_cross⟩ := List.pairwise_append.1 h_seen
    have h_all : ∀ p ∈ seen ++ [here], r p here := by
      intro p h_p
      rcases List.mem_append.1 h_p with h_p | h_p
      · exact h_cross p h_p here (List.mem_singleton_self here)
      · rw [List.mem_singleton.1 h_p]
        exact h_refl here
    obtain ⟨h_mem, h_pairwise⟩ := ih h_before
    exact step_ordered (List.mem_append_right _ (List.mem_singleton_self here)) h_all
      ⟨fun p h_p => List.mem_append_left _ (h_mem p h_p), h_pairwise⟩

end Reads

/-- A reachable scan waits in a state, has a place for each state before, and has taken nothing yet
    unless the state is a repetition. -/
theorem Reachable.in_range {scan : Scan α} (h : scan.Reachable chain) :
    scan.current < chain.size ∧ scan.window.length = scan.current ∧
      (scan.taken ≠ 0 → chain.isMany scan.current = true) := by
  obtain ⟨seen, h_lt, before, part, run, -, h_passed, h_taken, -, h_many⟩ := h.follows []
  refine ⟨h_lt, h_passed.window_length, fun h_ne => h_many ?_⟩
  rintro rfl
  exact h_ne h_taken.symm

end Scan

/-- Between any two steps a scan waits in a state of the chain, its window has one place for each
    state before that one, in the order in which the places were read, and only a repetition has
    taken anything. From there the rounds in which a character is tried end without a failure, and
    with what the step of the scan gives. -/
theorem step_settles {chain : Chain} {seen : List α} {scan : Scan α} (h : scan.Reads chain seen) :
    scan.current < chain.size ∧ scan.window.length = scan.current ∧
    (∀ r : α → α → Prop, (∀ p, r p p) → seen.Pairwise r → scan.window.Pairwise r) ∧
    (scan.taken ≠ 0 → chain.isMany scan.current = true) ∧
    ∀ c here, (scan.trial scan.current none).Settles chain c here (scan.step chain c here) := by
  obtain ⟨h_lt, h_window, h_many⟩ := h.reachable.in_range
  refine ⟨h_lt, h_window, ?_, h_many, fun c here => Scan.trial_settles h_lt h_window h_many⟩
  intro r h_refl h_seen
  exact (h.ordered h_refl h_seen).pairwise

/-- A repetition of nothing and a nested one: the one is empty, the other has taken a character, and
    behind both the next character is refused, up to the root. -/
theorem step_settles_nested :
    ∃ (chain : Chain) (scan : Scan Nat),
      Chain.ofSymbols? [.char 'a', .many (.set ⟨[]⟩), .many (.many (.char 'b')), .char 'c'] =
        .ok chain ∧
      scan.Reads chain [3, 4] ∧ scan.current = 2 ∧ scan.window = [3, 4] ∧ scan.taken = 1 ∧
      [3, 4].Pairwise (· ≤ ·) ∧
      (scan.trial 2 none).Settles chain 'x' 5 ({ comparisons := 6 }, none) := by
  let symbols : List Symbol := [.char 'a', .many (.set ⟨[]⟩), .many (.many (.char 'b')), .char 'c']
  let chain : Chain := ⟨symbols, linksOf symbols, rfl, rfl, rfl⟩
  let scan : Scan Nat := ((({} : Scan Nat).step chain 'a' 3).1.step chain 'b' 4).1
  have h_reads : scan.Reads chain [3, 4] := .step 'b' 4 (.step 'a' 3 .fresh)
  have h_scan : scan = ⟨2, [3, 4], 1, 3⟩ := by decide +kernel
  have h_step : scan.step chain 'x' 5 = ({ comparisons := 6 }, none) := by decide +kernel
  obtain ⟨-, -, h_order, -, h_settles⟩ := step_settles h_reads
  have h_window := h_order (· ≤ ·) Nat.le_refl (by decide)
  have h_x := h_settles 'x' 5
  rw [h_step] at h_x
  rw [h_scan] at h_reads h_window h_x
  exact ⟨chain, _, rfl, h_reads, rfl, rfl, rfl, h_window, h_x⟩

end PagedSearch
