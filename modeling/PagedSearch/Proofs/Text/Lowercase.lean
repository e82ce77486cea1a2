/-
  PagedSearch.Proofs.Text.Lowercase

  Folding a folded character changes nothing (`foldChar_foldChar`). A code
  point stays as it is or goes to a place that a run of the table leads to
  (`lowerCode_eq_or`), and no run takes such a place (`caseRuns_clearOf`),
  which is checked for every two runs.

  Code points that no run takes and none leads to are spared: a character is
  one of them exactly if its folded form is (`spared_iff`). Blanks and hyphens
  are spared, so folding neither brings a character into a search nor takes
  one out of it (`isInsignificant_foldChar`).
-/
import PagedSearch.Settings

namespace PagedSearch

/-- A code point stays as it is, or a run takes it as far behind the target as it is behind the
    first character of the run. -/
theorem lowerCode_eq_or (runs : List CaseRun) (n : Nat) :
    lowerCode runs n = n ∨ ∃ run ∈ runs, ∃ k ≤ run.last - run.first,
      k % run.step = 0 ∧ n = run.first + k ∧ lowerCode runs n = run.target + k := by
  induction runs with
  | nil => exact .inl rfl
  | cons run runs ih =>
    rw [lowerCode]
    by_cases h_before : n < run.first
    · rw [if_pos h_before]
      exact .inl rfl
    rw [if_neg h_before]
    by_cases h_in : n ≤ run.last
    · rw [if_pos h_in]
      by_cases h_step : (n - run.first) % run.step = 0
      · rw [if_pos h_step]
        have h_le : n - run.first ≤ run.last - run.first := Nat.sub_le_sub_right h_in _
        have h_code : n = run.first + (n - run.first) := by omega
        exact .inr ⟨run, List.mem_cons_self, n - run.first, h_le, h_step, h_code, rfl⟩
      · rw [if_neg h_step]
        exact .inl rfl
    · -- the code point lies behind this run
      rw [if_neg h_in]
      apply ih.imp_right
      rintro ⟨other, h_other, h_place⟩
      exact ⟨other, List.mem_cons_of_mem run h_other, h_place⟩

/-- True if none of the places that a run leads to is taken by ascending runs: a run lies behind
    them, in front of them, or skips every second character and meets none of them.
    The comparisons are Boolean, so that the whole table is checked fast. -/
def CaseRun.clearOf (run : CaseRun) : List CaseRun → Bool
  | [] => true
  | other :: runs =>
    Nat.blt (run.target + (run.last - run.first)) other.first ||
      (Nat.blt other.last run.target ||
        (Nat.beq other.step 2 && (Nat.beq run.step 2 || Nat.beq run.first run.last) &&
          Nat.beq ((run.target + other.first) % 2) 1)) && run.clearOf runs

theorem lowerCode_of_clearOf {run : CaseRun} {runs : List CaseRun} {k : Nat}
    (h : run.clearOf runs = true) (h_le : k ≤ run.last - run.first) (h_step : k % run.step = 0) :
    lowerCode runs (run.target + k) = run.target + k := by
  induction runs with
  | nil => rfl
  | cons other runs ih =>
    simp only [CaseRun.clearOf, Bool.or_eq_true, Bool.and_eq_true, Nat.blt_eq, Nat.beq_eq] at h
    rw [lowerCode]
    by_cases h_before : run.target + k < other.first
    · rw [if_pos h_before]
    rw [if_neg h_before]
    rcases h with h_behind | ⟨h_front | ⟨⟨h_other, h_alternate⟩, h_odd⟩, h_rest⟩
    · omega
    · rw [if_neg (by omega)]
      exact ih h_rest
    · by_cases h_in : run.target + k ≤ other.last
      · -- the other run takes every second character, and this is none of them
        have h_even : k % 2 = 0 := by
          rcases h_alternate with h_two | h_one
          · rw [h_two] at h_step
            exact h_step
          · omega
        rw [if_pos h_in, h_other, if_neg (by omega)]
      · rw [if_neg h_in]
        exact ih h_rest

/-- No run of the table leads to a place that the table takes. -/
theorem caseRuns_clearOf : ∀ run ∈ caseRuns, run.clearOf caseRuns = true := by
  decide +kernel

theorem lowerCode_lowerCode (n : Nat) :
    lowerCode caseRuns (lowerCode caseRuns n) = lowerCode caseRuns n := by
  rcases lowerCode_eq_or caseRuns n with h_same | ⟨run, h_run, k, h_le, h_step, -, h_target⟩
  · rw [h_same, h_same]
  · rw [h_target]
    exact lowerCode_of_clearOf (caseRuns_clearOf run h_run) h_le h_step

theorem foldChar_foldChar (c : Char) : foldChar (foldChar c) = foldChar c := by
  by_cases h_valid : (lowerCode caseRuns c.toNat).isValidChar
  · have h_code : (foldChar c).toNat = lowerCode caseRuns c.toNat := by
      rw [foldChar, Char.ofNat, dif_pos h_valid]
      rfl
    rw [foldChar, h_code, lowerCode_lowerCode, ← foldChar]
  · -- what is no character counts as the null character, which stays as it is
    have h_null : foldChar c = '\u0000' := by
      rw [foldChar, Char.ofNat, dif_neg h_valid]
      rfl
    rw [h_null]
    decide +kernel

/-! ## Code points that folding leaves alone -/

/-- True if a run leads to code points of characters only. -/
def CaseRun.leadsToChars (run : CaseRun) : Bool :=
  Nat.blt (run.target + (run.last - run.first)) 0xD800 ||
    (Nat.blt 0xDFFF run.target && Nat.blt (run.target + (run.last - run.first)) 0x110000)

theorem caseRuns_leadToChars : ∀ run ∈ caseRuns, run.leadsToChars = true := by
  decide +kernel

theorem lowerCode_isValidChar {n : Nat} (h : n.isValidChar) :
    (lowerCode caseRuns n).isValidChar := by
  rcases lowerCode_eq_or caseRuns n with h_same | ⟨run, h_run, k, h_le, -, -, h_target⟩
  · rw [h_same]
    exact h
  · have h_leads := caseRuns_leadToChars run h_run
    simp only [CaseRun.leadsToChars, Bool.or_eq_true, Bool.and_eq_true, Nat.blt_eq] at h_leads
    rw [h_target, Nat.isValidChar]
    omega

theorem foldChar_toNat (c : Char) : (foldChar c).toNat = lowerCode caseRuns c.toNat := by
  have h_valid : (lowerCode caseRuns c.toNat).isValidChar := lowerCode_isValidChar c.valid
  rw [foldChar, Char.ofNat, dif_pos h_valid]
  rfl

/-- True if the `n + 1` code points from `start` on lie in front of or behind those from `first` to
    `last`. -/
def liesApart (first last start n : Nat) : Bool :=
  Nat.blt (start + n) first || Nat.blt last start

/-- True if a run takes no code point from `first` to `last` and leads to none. -/
def CaseRun.spares (run : CaseRun) (first last : Nat) : Bool :=
  liesApart first last run.first (run.last - run.first) &&
    liesApart first last run.target (run.last - run.first)

/-- True if folding takes no code point from `first` to `last` and leads to none. -/
def spared (first last : Nat) : Bool := caseRuns.all (·.spares first last)

/-- A character has a spared code point exactly if its folded form has one. -/
theorem spared_iff {first last : Nat} (h : spared first last = true) (c : Char) :
    (first ≤ (foldChar c).toNat ∧ (foldChar c).toNat ≤ last) ↔
      (first ≤ c.toNat ∧ c.toNat ≤ last) := by
  rw [foldChar_toNat]
  rcases lowerCode_eq_or caseRuns c.toNat with h_same | ⟨run, h_run, k, h_le, -, h_code, h_target⟩
  · rw [h_same]
  · have h_spares := List.all_eq_true.1 h run h_run
    simp only [CaseRun.spares, liesApart, Bool.and_eq_true, Bool.or_eq_true, Nat.blt_eq] at h_spares
    obtain ⟨h_takes, h_leads⟩ := h_spares
    rw [h_target]
    constructor
    · omega
    · omega

/-- Only a spared character itself folds to it. -/
theorem foldChar_eq_iff {a : Char} (h : spared a.toNat a.toNat = true) (c : Char) :
    foldChar c = a ↔ c = a := by
  have h_iff := spared_iff h c
  rw [← Char.toNat_inj, ← Char.toNat_inj]
  omega

/-- Folding keeps blanks blank and makes no others. -/
theorem isBlank_foldChar (c : Char) : isBlank (foldChar c) = isBlank c := by
  have h_spared : ∀ run ∈ blankRuns, spared run.1 run.2 = true := by decide +kernel
  rw [isBlank, isBlank, Bool.eq_iff_iff, List.any_eq_true, List.any_eq_true]
  apply exists_congr
  rintro ⟨first, last⟩
  simp only [Bool.and_eq_true, decide_eq_true_eq]
  exact and_congr_right fun h_run => spared_iff (h_spared _ h_run) c

/-- Folding keeps hyphens and makes no others. -/
theorem isHyphen_foldChar (c : Char) : isHyphen (foldChar c) = isHyphen c := by
  have h_spared : (['-', '\u00AD', '\u2010', '\u2011'].all fun a =>
      spared a.toNat a.toNat) = true := by decide +kernel
  have h_iff : ∀ a ∈ ['-', '\u00AD', '\u2010', '\u2011'], (foldChar c == a) = (c == a) := by
    intro a h_a
    rw [Bool.eq_iff_iff, beq_iff_eq, beq_iff_eq]
    exact foldChar_eq_iff (List.all_eq_true.1 h_spared a h_a) c
  simp only [List.forall_mem_cons, List.not_mem_nil] at h_iff
  rw [isHyphen, isHyphen, h_iff.1, h_iff.2.1, h_iff.2.2.1, h_iff.2.2.2.1]

/-- Folding brings no character into a search and takes none out of it. -/
@[simp] theorem isInsignificant_foldChar (skipHyphens : Bool) (c : Char) :
    isInsignificant skipHyphens (foldChar c) = isInsignificant skipHyphens c := by
  rw [isInsignificant, isInsignificant, isBlank_foldChar, isHyphen_foldChar]

namespace Settings

theorem foldChar_foldChar (s : Settings) (c : Char) :
    s.foldChar (s.foldChar c) = s.foldChar c := by
  rw [Settings.foldChar, Settings.foldChar]
  by_cases h_case : s.caseSensitive = true
  · rw [if_pos h_case, if_pos h_case]
  · rw [if_neg h_case, if_neg h_case, PagedSearch.foldChar_foldChar]

/-- Folding decides nothing about which characters are skipped. -/
theorem skips_foldChar (s : Settings) (c : Char) : s.skips (s.foldChar c) = s.skips c := by
  rw [Settings.foldChar]
  by_cases h_case : s.caseSensitive = true
  · rw [if_pos h_case]
  · rw [if_neg h_case]
    exact isInsignificant_foldChar s.hyphenTolerant c

/-- The same settings, but letter case does not count. -/
def ignoringCase (s : Settings) : Settings := { s with caseSensitive := false }

/-- A text made of characters of a folded text is folded. -/
theorem fold_of_subset {s : Settings} {t u : Text} (h : ∀ c ∈ t, c ∈ s.fold u) : s.fold t = t := by
  rw [fold_eq_map] at h ⊢
  have h_fixed : t.map s.foldChar = t.map id := by
    apply List.map_congr_left
    intro c h_c
    obtain ⟨c', -, rfl⟩ := List.mem_map.1 (h c h_c)
    exact s.foldChar_foldChar c'
  rw [h_fixed, List.map_id]

end Settings

end PagedSearch
