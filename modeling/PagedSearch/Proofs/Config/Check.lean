/-
  PagedSearch.Proofs.Config.Check

  What the check of a config file says about the programs that read it. A line
  that the check rejects, as an error or for its key, changes nothing for the
  command line, which takes keys as they are written. The console takes them
  in letters of either case: there a rejected line changes nothing if its key
  is unknown in lower-case letters as well. So without the rejected lines a
  file says what it said (`usable_same`), and in the other case it may not
  (`usable_capitalized`).
-/
import Mathlib
import PagedSearch.Proofs.Config.Line
import PagedSearch.Proofs.Text.Line

namespace PagedSearch

/-! ## Rejected lines -/

/-- True of findings that call a line unusable: of errors and of unknown keys. -/
def Finding.rejects : Finding → Bool
  | .unknownKey _ => true
  | f => f.isError

/-- True of the lines that the check calls unusable. -/
def ConfigLine.isRejected (line : ConfigLine) : Bool := (findingOfLine? line).any Finding.rejects

/-- The numbers of the lines that the check calls unusable. -/
def rejectedLines (contents : Text) : List Nat :=
  ((checkConfig contents).filter fun x => x.2.rejects).map Prod.fst

/-- A text without the lines of these numbers. -/
def withoutLines (numbers : List Nat) (t : Text) : Text :=
  ((((fullLines t).zipIdx 1).filter fun x => !numbers.contains x.2).map Prod.fst).flatten

/-- A config file without the lines that the check calls unusable. -/
def usable (contents : Text) : Text := withoutLines (rejectedLines contents) contents

section

variable {contents : Text} {number : Nat}

theorem mem_checkConfig_iff {f : Finding} : (number, f) ∈ checkConfig contents ↔
    ∃ line, (line, number) ∈ (lines contents).zipIdx 1 ∧
      findingOfLine? (.ofText line) = some f := by
  simp only [checkConfig, checkLine?_eq, List.mem_filterMap, Prod.exists,
    Option.map_eq_some_iff, Prod.mk.injEq]
  constructor
  · rintro ⟨line, n, h_line, _, h_finding, rfl, rfl⟩
    exact ⟨line, h_line, h_finding⟩
  · rintro ⟨line, h_line, h_finding⟩
    exact ⟨line, number, h_line, f, h_finding, rfl, rfl⟩

/-- The number of a line is that of no other line, so the check rejects the number if it rejects
    the line. -/
theorem mem_rejectedLines_iff {line : Text} (h_line : (line, number) ∈ (lines contents).zipIdx 1) :
    number ∈ rejectedLines contents ↔ (ConfigLine.ofText line).isRejected = true := by
  simp only [rejectedLines, List.mem_map, List.mem_filter, Prod.exists, exists_and_right,
    exists_eq_right, ConfigLine.isRejected, Option.any_eq_true, mem_checkConfig_iff]
  constructor
  · rintro ⟨f, ⟨line', h_line', h_finding⟩, h_rejects⟩
    have h_same : line' = line := by
      rw [List.mem_zipIdx_iff_le_and_getElem?_sub] at h_line h_line'
      exact Option.some.inj (h_line'.2.symm.trans h_line.2)
    rw [← h_same]
    exact ⟨f, h_finding, h_rejects⟩
  · rintro ⟨f, h_finding, h_rejects⟩
    exact ⟨f, ⟨line, h_line, h_finding⟩, h_rejects⟩

end

/-- The lines of what is left are the lines that the check accepts. -/
theorem lines_usable (contents : Text) :
    lines (usable contents) =
      (lines contents).filter fun line => !(ConfigLine.ofText line).isRejected := by
  have h_filter : (((fullLines contents).zipIdx 1).filter fun x =>
      !(rejectedLines contents).contains x.2) = ((fullLines contents).zipIdx 1).filter fun x =>
        !(ConfigLine.ofText (withoutEnd x.1)).isRejected := by
    apply List.filter_congr
    rintro ⟨line, number⟩ h_line
    have h_number : (withoutEnd line, number) ∈ (lines contents).zipIdx 1 := by
      rw [lines_eq_map_withoutEnd, List.zipIdx_map]
      exact List.mem_map.2 ⟨(line, number), h_line, rfl⟩
    rw [Bool.eq_iff_iff, Bool.not_eq_true', Bool.not_eq_true', ← Bool.not_eq_true,
      ← Bool.not_eq_true, List.contains_iff_mem, mem_rejectedLines_iff h_number]
  have h_cut : WellCut ((((fullLines contents).zipIdx 1).filter fun x =>
      !(rejectedLines contents).contains x.2).map Prod.fst) := by
    refine (wellCut_fullLines contents).sublist ?_
    have h_sublist := (List.filter_sublist (p := fun x : Text × Nat =>
      !(rejectedLines contents).contains x.2) (l := (fullLines contents).zipIdx 1)).map Prod.fst
    rwa [List.zipIdx_map_fst] at h_sublist
  rw [lines_eq_map_withoutEnd, usable, withoutLines, fullLines_flatten h_cut, h_filter,
    lines_eq_map_withoutEnd contents, List.filter_map]
  have h_fst := List.filter_map (f := Prod.fst) (l := (fullLines contents).zipIdx 1)
    (p := fun line => !(ConfigLine.ofText (withoutEnd line)).isRejected)
  rw [List.zipIdx_map_fst] at h_fst
  exact congrArg (List.map withoutEnd) h_fst.symm

/-! ## Readers -/

theorem foldl_filter_of_unchanged {α β : Type} {f : β → α → β} {p : α → Bool} {l : List α}
    (h : ∀ a ∈ l, p a = false → ∀ b, f b a = b) (init : β) :
    (l.filter p).foldl f init = l.foldl f init := by
  induction l generalizing init with
  | nil => rfl
  | cons a l ih =>
    rw [List.forall_mem_cons] at h
    rw [List.foldl_cons]
    cases h_a : p a with
    | true => rw [List.filter_cons_of_pos h_a, List.foldl_cons, ih h.2]
    | false => rw [List.filter_cons_of_neg (Bool.not_eq_true _ ▸ h_a), h.1 h_a, ih h.2]

/-- A reader that rejected lines change nothing for reads what it read. -/
theorem foldl_usable {β : Type} {contents : Text} (f : β → Text → Text → β) (init : β)
    (h : ∀ key value, ConfigLine.entry key value ∈ (lines contents).map ConfigLine.ofText →
      (ConfigLine.entry key value).isRejected = true → ∀ b, f b key value = b) :
    (lines (usable contents)).foldl (fun b line => (ConfigLine.ofText line).applyTo f b) init =
      (lines contents).foldl (fun b line => (ConfigLine.ofText line).applyTo f b) init := by
  rw [lines_usable]
  apply foldl_filter_of_unchanged
  intro line h_line h_rejected b
  rw [Bool.not_eq_false'] at h_rejected
  have h_mem := List.mem_map_of_mem (f := ConfigLine.ofText) h_line
  cases h_read : ConfigLine.ofText line with
  | ignored => rfl
  | malformed => rfl
  | entry key value =>
    rw [h_read] at h_mem h_rejected
    exact h key value h_mem h_rejected b

/-! ## Entries without effect -/

/-- An error in a value means that the value changes nothing. -/
theorem ofValue?_eq_none {name value : Text} {key : ConfigKey} {f : Finding}
    (h : findingOfValue? name value key = some f) (h_f : f.rejects = true) :
    Change.ofValue? value key = none := by
  have h_switch : ∀ {change : Bool → Change},
      (if (readSwitch? value).isNone then some (.notSwitch name) else none) = some f →
        (readSwitch? value).map change = none := by
    intro change h_finding
    cases h_value : readSwitch? value with
    | none => rfl
    | some on =>
      rw [h_value] at h_finding
      exact absurd h_finding (by simp)
  cases key with
  | caseSensitive => exact h_switch h
  | hyphenTolerant => exact h_switch h
  | wildcards => exact h_switch h
  | direction =>
    rw [findingOfValue?] at h
    rw [Change.ofValue?]
    cases h_value : readDirection? value with
    | none => rfl
    | some dir =>
      rw [h_value] at h
      exact absurd h (by simp)
  | historyLimit =>
    rw [findingOfValue?] at h
    rw [Change.ofValue?]
    cases h_value : readWord? value with
    | none => rfl
    | some limit =>
      -- a limit that is brought into its range is no error
      rw [h_value] at h
      obtain ⟨-, rfl⟩ : _ ∧ Finding.limitClamped = f := by simpa using h
      exact absurd h_f (by decide)
  | excerptContext =>
    rw [findingOfValue?] at h
    rw [Change.ofValue?]
    cases h_value : readWord? value with
    | none => rfl
    | some context =>
      rw [h_value] at h
      obtain ⟨-, rfl⟩ : _ ∧ Finding.contextCapped = f := by simpa using h
      exact absurd h_f (by decide)

/-- The names of keys are in lower-case letters. -/
theorem lowerAscii_of_ofName? {name : Text} {key : ConfigKey}
    (h : ConfigKey.ofName? name = some key) : lowerAscii name = name := by
  have h_names : ∀ x ∈ configNames, lowerAscii x.1.toList = x.1.toList := by decide
  obtain ⟨x, h_x, -⟩ := Option.map_eq_some_iff.1 h
  have h_name : x.1.toList = name := by simpa using List.find?_some h_x
  rw [← h_name]
  exact h_names x (List.mem_of_find?_eq_some h_x)

/-- An entry that the check rejects changes nothing. -/
theorem ofPair?_eq_none {name value : Text}
    (h : (ConfigLine.entry name value).isRejected = true) : Change.ofPair? name value = none := by
  rw [Change.ofPair?]
  cases h_key : ConfigKey.ofName? name with
  | none => rfl
  | some key =>
    obtain ⟨f, h_finding, h_f⟩ := (Option.any_eq_true _ _).1 h
    rw [findingOfLine?, h_key, Option.elim_some] at h_finding
    exact ofValue?_eq_none h_finding h_f

/-- It changes nothing with its name in lower-case letters either, unless the check does not know
    the name as it is written. -/
theorem ofPair?_lowerAscii_eq_none {name value : Text}
    (h : (ConfigLine.entry name value).isRejected = true)
    (h_unknown : ConfigKey.ofName? name = none → ConfigKey.ofName? (lowerAscii name) = none) :
    Change.ofPair? (lowerAscii name) value = none := by
  cases h_key : ConfigKey.ofName? name with
  | none =>
    rw [Change.ofPair?, h_unknown h_key]
    rfl
  | some key =>
    rw [lowerAscii_of_ofName? h_key]
    exact ofPair?_eq_none h

/-- Without the lines that the check rejects a config file says to the command line what it said.
    To the console it does if the check names no unknown key that is one in lower-case letters. -/
theorem usable_same (contents : Text) :
    readSettings (usable contents) = readSettings contents ∧
    ((∀ number name, (number, Finding.unknownKey name) ∈ checkConfig contents →
        ConfigKey.ofName? (lowerAscii name) = none) →
      ConsoleConfig.ofContents (usable contents) = ConsoleConfig.ofContents contents) := by
  rw [readSettings, readSettings, foldl_configEntries Settings.withEntry,
    foldl_configEntries Settings.withEntry, ConsoleConfig.ofContents_eq,
    ConsoleConfig.ofContents_eq]
  constructor
  · refine foldl_usable Settings.withEntry {} ?_
    intro name value _ h_rejected s
    rw [Settings.withEntry_eq, ofPair?_eq_none h_rejected, Option.elim_none]
  · intro h_unknown
    refine foldl_usable ConsoleConfig.withEntry {} ?_
    intro name value h_mem h_rejected c
    rw [ConsoleConfig.withEntry_eq, ofPair?_lowerAscii_eq_none h_rejected, Option.elim_none]
    intro h_name
    obtain ⟨line, h_line, h_read⟩ := List.mem_map.1 h_mem
    rw [← List.zipIdx_map_fst 1 (lines contents)] at h_line
    obtain ⟨⟨_, number⟩, h_number, rfl⟩ := List.mem_map.1 h_line
    refine h_unknown number name (mem_checkConfig_iff.2 ⟨_, h_number, ?_⟩)
    rw [h_read, findingOfLine?, h_name, Option.elim_none]

/-- What both programs read without the rejected lines of a file, one of which is the last line. -/
theorem usable_same_regexp :
    readSettings "regexp=on\n".toList = readSettings "no\nregexp=on\nhistory_limit=?\nx=1".toList ∧
    ConsoleConfig.ofContents "regexp=on\n".toList =
      ConsoleConfig.ofContents "no\nregexp=on\nhistory_limit=?\nx=1".toList := by
  have h_usable : usable "no\nregexp=on\nhistory_limit=?\nx=1".toList =
      "regexp=on\n".toList := by decide +kernel
  have h_check : checkConfig "no\nregexp=on\nhistory_limit=?\nx=1".toList =
      [(1, .malformed), (3, .notLimit), (4, .unknownKey ['x'])] := by decide +kernel
  obtain ⟨h_settings, h_console⟩ := usable_same "no\nregexp=on\nhistory_limit=?\nx=1".toList
  rw [h_usable, h_check] at h_console
  rw [h_usable] at h_settings
  refine ⟨h_settings, h_console ?_⟩
  intro number name h_name
  obtain ⟨-, rfl⟩ : number = 4 ∧ name = ['x'] := by simpa using h_name
  cbv

/-- A key with a capital letter is unknown to the check, but not to the console. -/
theorem usable_capitalized :
    checkConfig "Case_Sensitive = true\n".toList =
      [(1, .unknownKey "Case_Sensitive".toList)] ∧
    usable "Case_Sensitive = true\n".toList = [] ∧
    ConsoleConfig.ofContents "Case_Sensitive = true\n".toList =
      { settings := { caseSensitive := true } } ∧
    ConsoleConfig.ofContents (usable "Case_Sensitive = true\n".toList) = {} := by
  exact ⟨by decide +kernel, by decide +kernel, by decide +kernel, by decide +kernel⟩

end PagedSearch
