/-
  PagedSearch.Proofs.Config.Reading

  What both programs read from a config file. The console reads what the
  command line reads from the file with its keys in lower-case letters: a line
  whose key is lowered is read as the same line with its key lowered
  (`ofText_lowerKey`). And each field of what the console reads is decided by
  the last line that has a value for it (`ofContents_decided`): an entry
  changes the field that its key is for, or nothing, so a field is what a fold
  leaves of the values for it (`foldl_eq_findSome?`).
-/
import Mathlib.Data.List.DropRight
import PagedSearch.Proofs.Config.Check

namespace PagedSearch

/-! ## Lower-case letters -/

/-- An ASCII capital goes to another letter, everything else stays as it is. -/
theorem toLower_eq_or (c : Char) :
    c.toLower = c ∨ 65 ≤ c.toNat ∧ c.toNat ≤ 90 ∧ c.toLower.toNat = c.toNat + 32 := by
  by_cases h_upper : c.isUpper = true
  · right
    obtain ⟨h_ge, h_le⟩ : 65 ≤ c.toNat ∧ c.toNat ≤ 90 := by
      simpa [Char.isUpper, UInt32.le_iff_toNat_le] using h_upper
    have h_valid : (c.toNat + 32).isValidChar := .inl (by omega)
    rw [Char.toLower_eq_of_isUpper h_upper, Char.toNat_ofNat, if_pos h_valid]
    exact ⟨h_ge, h_le, rfl⟩
  · left
    exact Char.toLower_eq_of_not_isUpper h_upper

/-- No capital goes to a character in front of the letters. -/
theorem toLower_eq_iff {c d : Char} (h_d : d.toNat < 65) : c.toLower = d ↔ c = d := by
  rcases toLower_eq_or c with h_same | ⟨h_ge, -, h_code⟩
  · rw [h_same]
  · constructor
    · rintro rfl
      omega
    · rintro rfl
      omega

theorem isBlank_toLower (c : Char) : isBlank c.toLower = isBlank c := by
  have h_letter {d : Char} (h_ge : 65 ≤ d.toNat) (h_le : d.toNat ≤ 122) : isBlank d = false := by
    simp only [isBlank, blankRuns, List.any_cons, List.any_nil, Bool.or_false,
      Bool.or_eq_false_iff, Bool.and_eq_false_imp, decide_eq_true_eq, decide_eq_false_iff_not]
    omega
  rcases toLower_eq_or c with h_same | ⟨h_ge, h_le, h_code⟩
  · rw [h_same]
  · rw [h_letter h_ge (by omega), h_letter (by omega) (by omega)]

theorem trimLeft_lowerAscii (t : Text) : trimLeft (lowerAscii t) = lowerAscii (trimLeft t) := by
  rw [trimLeft, lowerAscii, List.dropWhile_map, show isBlank ∘ Char.toLower = isBlank from
    funext isBlank_toLower]
  rfl

theorem trim_concat {c : Char} (h : isBlank c = true) (t : Text) : trim (t ++ [c]) = trim t := by
  show (trimLeft (t ++ [c])).rdropWhile isBlank = (trimLeft t).rdropWhile isBlank
  rw [trimLeft, List.dropWhile_append]
  split
  · rename_i h_empty
    rw [List.dropWhile_cons_of_pos h, trimLeft, List.isEmpty_iff.1 h_empty]
    rfl
  · exact List.rdropWhile_concat_pos isBlank _ _ h

theorem trim_lowerAscii (t : Text) : trim (lowerAscii t) = lowerAscii (trim t) := by
  have h_reverse (t : Text) : (lowerAscii t).reverse = lowerAscii t.reverse :=
    List.map_reverse.symm
  rw [trim, trimRight, trimLeft_lowerAscii, h_reverse, trimLeft_lowerAscii, h_reverse]
  rfl

/-! ## Lines with their keys in lower-case letters -/

/-- A text with the letters in front of its first equals sign in lower case. -/
def lowerToSign (t : Text) : Text :=
  lowerAscii (t.takeWhile (· != '=')) ++ t.dropWhile (· != '=')

/-- A line of a config file with its key in lower-case letters, if it has one. -/
def lowerKey (line : Text) : Text :=
  match ConfigLine.ofText line with
  | .entry _ _ => lowerToSign line
  | _ => line

/-- A config file with all its keys in lower-case letters. -/
def lowerKeys (contents : Text) : Text :=
  joinWith ['\n'] ((splitAtAll (· == '\n') contents).map lowerKey)

/-- What a line says with its key in lower-case letters. -/
def ConfigLine.lowered : ConfigLine → ConfigLine
  | .entry key value => .entry (lowerAscii key) value
  | line => line

theorem lowerToSign_cons {c : Char} (h : c ≠ '=') (t : Text) :
    lowerToSign (c :: t) = c.toLower :: lowerToSign t := by
  have h_c : (c != '=') = true := bne_iff_ne.2 h
  rw [lowerToSign, List.takeWhile_cons, if_pos h_c, List.dropWhile_cons, if_pos h_c]
  rfl

/-- A character behind a text is lowered or left as it is. -/
theorem lowerToSign_concat (t : Text) (c : Char) :
    ∃ d, lowerToSign (t ++ [c]) = lowerToSign t ++ [d] ∧ isBlank d = isBlank c := by
  induction t with
  | nil =>
    by_cases h_c : c = '='
    · exact ⟨c, by rw [h_c]; rfl, rfl⟩
    · exact ⟨c.toLower, lowerToSign_cons h_c [], isBlank_toLower c⟩
  | cons b t ih =>
    by_cases h_b : b = '='
    · exact ⟨c, by rw [h_b]; rfl, rfl⟩
    · obtain ⟨d, h_d, h_blank⟩ := ih
      refine ⟨d, ?_, h_blank⟩
      rw [List.cons_append, lowerToSign_cons h_b, h_d, lowerToSign_cons h_b, List.cons_append]

theorem trimLeft_lowerToSign (t : Text) :
    trimLeft (lowerToSign t) = lowerToSign (trimLeft t) := by
  induction t with
  | nil => rfl
  | cons c t ih =>
    by_cases h_sign : c = '='
    · subst h_sign
      rfl
    · rw [lowerToSign_cons h_sign]
      by_cases h_blank : isBlank c = true
      · rw [trimLeft, List.dropWhile_cons_of_pos ((isBlank_toLower c).trans h_blank), trimLeft,
          List.dropWhile_cons_of_pos h_blank]
        exact ih
      · rw [trimLeft, List.dropWhile_cons_of_neg (by rwa [isBlank_toLower]), trimLeft,
          List.dropWhile_cons_of_neg h_blank, lowerToSign_cons h_sign]

theorem trimRight_lowerToSign (t : Text) :
    trimRight (lowerToSign t) = lowerToSign (trimRight t) := by
  show (lowerToSign t).rdropWhile isBlank = lowerToSign (t.rdropWhile isBlank)
  induction t using List.reverseRecOn with
  | nil => rfl
  | append_singleton t c ih =>
    obtain ⟨d, h_d, h_blank⟩ := lowerToSign_concat t c
    rw [h_d]
    by_cases h_c : isBlank c = true
    · rw [List.rdropWhile_concat_pos _ _ _ (h_blank.trans h_c), ih,
        List.rdropWhile_concat_pos _ _ _ h_c]
    · rw [List.rdropWhile_concat_neg _ _ _ (by rwa [h_blank]),
        List.rdropWhile_concat_neg _ _ _ h_c, h_d]

theorem trim_lowerToSign (t : Text) : trim (lowerToSign t) = lowerToSign (trim t) := by
  rw [trim, trimLeft_lowerToSign, trimRight_lowerToSign]
  rfl

/-- No other character becomes an equals sign, so a lowered text is cut where it was. -/
theorem cutAt?_lowerToSign (t : Text) :
    cutAt? (· == '=') (lowerToSign t) =
      (cutAt? (· == '=') t).map fun (key, value) => (lowerAscii key, value) := by
  induction t with
  | nil => rfl
  | cons c t ih =>
    by_cases h_sign : c = '='
    · subst h_sign
      rfl
    · have h_lower : c.toLower ≠ '=' := mt (toLower_eq_iff (by decide)).1 h_sign
      rw [lowerToSign_cons h_sign, cutAt?_cons h_lower, ih, cutAt?_cons h_sign, Option.map_map,
        Option.map_map]
      rfl

/-- A lowered text is empty or a comment if the text is. -/
theorem ofText_lowerToSign (t : Text) :
    ConfigLine.ofText (lowerToSign t) = (ConfigLine.ofText t).lowered := by
  have h_skipped (t : Text) : ((lowerToSign t).isEmpty || (lowerToSign t).head? == some '#') =
      (t.isEmpty || t.head? == some '#') := by
    cases t with
    | nil => rfl
    | cons c t =>
      by_cases h_sign : c = '='
      · subst h_sign
        rfl
      · rw [lowerToSign_cons h_sign, Bool.eq_iff_iff]
        simp [toLower_eq_iff (c := c) (d := '#') (by decide)]
  rw [ConfigLine.ofText, ConfigLine.ofText]
  simp only [trim_lowerToSign, h_skipped, cutAt?_lowerToSign]
  split
  · rfl
  · cases cutAt? (· == '=') (trim t) with
    | none => rfl
    | some parts => simp only [Option.map_some, trim_lowerAscii, ConfigLine.lowered]

theorem mem_lowerKey {line : Text} (h : '\n' ∈ lowerKey line) : '\n' ∈ line := by
  rw [lowerKey] at h
  cases h_line : ConfigLine.ofText line with
  | ignored => rwa [h_line] at h
  | malformed => rwa [h_line] at h
  | entry key value =>
    rw [h_line] at h
    rcases List.mem_append.1 h with h_lower | h_rest
    · obtain ⟨c, h_c, h_feed⟩ := List.mem_map.1 h_lower
      rw [toLower_eq_iff (by decide)] at h_feed
      exact h_feed ▸ (List.takeWhile_prefix _).subset h_c
    · exact (List.dropWhile_suffix _).subset h_rest

/-- A line whose key is lowered says the same with its key lowered. -/
theorem ofText_lowerKey (line : Text) :
    ConfigLine.ofText (lowerKey line) = (ConfigLine.ofText line).lowered := by
  rw [lowerKey]
  cases h_line : ConfigLine.ofText line with
  | ignored => exact h_line
  | malformed => exact h_line
  | entry key value =>
    rw [ofText_lowerToSign, h_line]

theorem ofText_dropReturn (line : Text) :
    ConfigLine.ofText (dropReturn line) = ConfigLine.ofText line := by
  rw [dropReturn]
  by_cases h_end : line.getLast? = some '\r'
  · obtain ⟨front, rfl⟩ := List.getLast?_eq_some_iff.1 h_end
    rw [if_pos h_end, List.dropLast_concat, ConfigLine.ofText, ConfigLine.ofText,
      trim_concat (by decide)]
  · rw [if_neg h_end]

section

variable {β : Type} (f : β → Text → Text → β) (init : β)

/-- Readers of entries read the pieces between the line feeds: a carriage return at the end of a
    line is a blank, and an empty last piece is ignored. -/
theorem foldl_lines_eq (contents : Text) :
    (lines contents).foldl (fun b line => (ConfigLine.ofText line).applyTo f b) init =
      (splitAtAll (· == '\n') contents).foldl
        (fun b piece => (ConfigLine.ofText piece).applyTo f b) init := by
  have h_return : (fun b piece => (ConfigLine.ofText (dropReturn piece)).applyTo f b) =
      fun b piece => (ConfigLine.ofText piece).applyTo f b := by
    funext b piece
    rw [ofText_dropReturn]
  obtain ⟨pieces, last, h_pieces⟩ : ∃ pieces last,
      splitAtAll (· == '\n') contents = pieces ++ [last] :=
    ⟨_, _, (List.dropLast_concat_getLast (splitAtAll_ne_nil _ contents)).symm⟩
  rw [lines, h_pieces, List.getLast?_concat, List.dropLast_concat, List.foldl_concat]
  cases last with
  | nil =>
    rw [List.foldl_map, h_return]
    rfl
  | cons c last => rw [List.foldl_concat, List.foldl_map, h_return]

end

/-- In the settings of a search the console has what the command line has after the entry with its
    name in lower-case letters. -/
theorem withEntry_settings (c : ConsoleConfig) (name value : Text) :
    (c.withEntry name value).settings = c.settings.withEntry (lowerAscii name) value := by
  rw [ConsoleConfig.withEntry_eq, Settings.withEntry_eq]
  cases Change.ofPair? (lowerAscii name) value with
  | none => rfl
  | some change => cases change <;> rfl

/-- The settings that the console reads are the command line's for the file with its keys in
    lower-case letters. -/
theorem ofContents_settings (contents : Text) :
    (ConsoleConfig.ofContents contents).settings = readSettings (lowerKeys contents) := by
  have h_pieces : splitAtAll (· == '\n') (lowerKeys contents) =
      (splitAtAll (· == '\n') contents).map lowerKey := by
    apply splitAtAll_joinWith
    · exact mt List.map_eq_nil_iff.1 (splitAtAll_ne_nil _ contents)
    · rw [List.forall_mem_map]
      intro piece h_piece
      exact mt mem_lowerKey (not_mem_of_mem_splitAtAll h_piece)
  have h_line (c : ConsoleConfig) (line : ConfigLine) :
      line.lowered.applyTo Settings.withEntry c.settings =
        (line.applyTo ConsoleConfig.withEntry c).settings := by
    cases line with
    | ignored => rfl
    | malformed => rfl
    | entry name value => exact (withEntry_settings c name value).symm
  rw [readSettings, foldl_configEntries Settings.withEntry, foldl_lines_eq, h_pieces,
    List.foldl_map, ConsoleConfig.ofContents_eq, foldl_lines_eq]
  simp only [ofText_lowerKey]
  exact (List.foldl_hom ConsoleConfig.settings fun c piece => h_line c (.ofText piece)).symm

/-! ## The last line that has a value -/

/-- What `read?` makes of the value in a line whose key is one of some names, in letters of either
    case. -/
def ConfigLine.value? {α : Type} (names : List String) (read? : Text → Option α) :
    ConfigLine → Option α
  | .entry name value =>
    if names.any (·.toList == lowerAscii name) then read? value else none
  | _ => none

/-- What `read?` makes of the value in the last such line of a config file that it makes anything
    of. -/
def lastValue? {α : Type} (names : List String) (read? : Text → Option α) (contents : Text) :
    Option α :=
  (lines contents).reverse.findSome? fun line => (ConfigLine.ofText line).value? names read?

/-- The key that a change is for. -/
def Change.key : Change → ConfigKey
  | .caseSensitive _ => .caseSensitive
  | .hyphenTolerant _ => .hyphenTolerant
  | .mode _ => .wildcards
  | .direction _ => .direction
  | .historyLimit _ => .historyLimit
  | .excerptContext _ => .excerptContext

/-- The change as the console makes it, with limits in their ranges. -/
def Change.bounded : Change → Change
  | .historyLimit limit => .historyLimit (clampHistoryLimit limit)
  | .excerptContext context => .excerptContext (min context maxContext)
  | change => change

/-- What the console has for a key, as the change that would set it. -/
def ConsoleConfig.held (c : ConsoleConfig) : ConfigKey → Change
  | .caseSensitive => .caseSensitive c.settings.caseSensitive
  | .hyphenTolerant => .hyphenTolerant c.settings.hyphenTolerant
  | .wildcards => .mode c.settings.mode
  | .direction => .direction c.settings.direction
  | .historyLimit => .historyLimit c.historyLimit
  | .excerptContext => .excerptContext c.excerptContext

/-- A change sets what is held for its key and leaves what is held for the others. -/
theorem ConsoleConfig.changed_held (c : ConsoleConfig) (change : Change) (key : ConfigKey) :
    (c.changed change).held key = if change.key = key then change.bounded else c.held key := by
  cases change <;> cases key <;> rfl

theorem ofValue?_key {key : ConfigKey} {value : Text} {change : Change}
    (h : Change.ofValue? value key = some change) : change.key = key := by
  cases key <;> obtain ⟨_, -, rfl⟩ := Option.map_eq_some_iff.1 h <;> rfl

/-- What a fold makes of a field that each step gives a value or leaves as it is. -/
theorem foldl_eq_findSome? {σ ι β : Type} {step : σ → ι → σ} {value? : ι → Option β}
    (field : σ → β) (h : ∀ s i, field (step s i) = (value? i).getD (field s))
    (l : List ι) (init : σ) :
    field (l.foldl step init) = (l.reverse.findSome? value?).getD (field init) := by
  induction l using List.reverseRecOn with
  | nil => rfl
  | append_singleton l i ih =>
    rw [List.foldl_concat, h, ih, List.reverse_concat, List.findSome?_cons]
    cases value? i with
    | none => rfl
    | some b => rfl

theorem lastValue?_map {α β : Type} (names : List String) (read? : Text → Option α) (form : α → β)
    (contents : Text) : lastValue? names (fun value => (read? value).map form) contents =
      (lastValue? names read? contents).map form := by
  rw [lastValue?, lastValue?, List.map_findSome?]
  refine congrArg (List.findSome? · _) (funext fun line => ?_)
  rw [Function.comp_apply]
  cases ConfigLine.ofText line with
  | ignored => rfl
  | malformed => rfl
  | entry name value =>
    rw [ConfigLine.value?, ConfigLine.value?]
    split
    · rfl
    · rfl

/-- A line with a value for a key sets what is held for it, every other line leaves it. -/
theorem ConsoleConfig.applyTo_held (c : ConsoleConfig) (line : ConfigLine) (key : ConfigKey) :
    (line.applyTo ConsoleConfig.withEntry c).held key =
      (line.value? key.names fun value => (Change.ofValue? value key).map Change.bounded).getD
        (c.held key) := by
  cases line with
  | ignored => rfl
  | malformed => rfl
  | entry name value =>
    rw [ConfigLine.applyTo, ConfigLine.value?, ← isOneOf.eq_def, ConsoleConfig.withEntry_eq,
      Change.ofPair?]
    by_cases h_name : ConfigKey.ofName? (lowerAscii name) = some key
    · rw [if_pos (ConfigKey.ofName?_eq_some_iff.1 h_name), h_name, Option.bind_some]
      cases h_change : Change.ofValue? value key with
      | none => rfl
      | some change => exact (c.changed_held change key).trans (if_pos (ofValue?_key h_change))
    · rw [if_neg (mt ConfigKey.ofName?_eq_some_iff.2 h_name)]
      cases h_change : (ConfigKey.ofName? (lowerAscii name)).bind (Change.ofValue? value) with
      | none => rfl
      | some change =>
        obtain ⟨other, h_other, h_value⟩ := Option.bind_eq_some_iff.1 h_change
        refine (c.changed_held change key).trans (if_neg ?_)
        rintro rfl
        exact h_name (by rw [h_other, ofValue?_key h_value])

/-- What is held for a key comes from the last line with a value for it. -/
theorem ofContents_held (contents : Text) (key : ConfigKey) :
    (ConsoleConfig.ofContents contents).held key =
      (lastValue? key.names (fun value => (Change.ofValue? value key).map Change.bounded)
        contents).getD (ConsoleConfig.held {} key) := by
  rw [ConsoleConfig.ofContents_eq]
  exact foldl_eq_findSome? (ConsoleConfig.held · key)
    (fun c line => c.applyTo_held (.ofText line) key) (lines contents) _

/-- The same for the field that a key is for: with `read?` the value is read as the field has
    it. -/
theorem ofContents_field {α : Type} {store : α → Change} {field default : α} (contents : Text)
    (key : ConfigKey) (read? : Text → Option α) (h_store : Function.Injective store)
    (h_field : (ConsoleConfig.ofContents contents).held key = store field)
    (h_default : ConsoleConfig.held {} key = store default)
    (h_read : ∀ value, (Change.ofValue? value key).map Change.bounded = (read? value).map store) :
    field = (lastValue? key.names read? contents).getD default := by
  apply h_store
  rw [← h_field, ofContents_held, funext h_read, lastValue?_map, h_default, Option.getD_map]

/-- The console reads a config file as the command line reads it with its keys in lower-case
    letters. Every field has the value of the last line that has one for it under one of its names,
    in letters of either case, and its default if no line has; the limits are brought into their
    ranges. -/
theorem ofContents_decided (contents : Text) :
    (ConsoleConfig.ofContents contents).settings = readSettings (lowerKeys contents) ∧
    ConsoleConfig.ofContents contents =
      { settings :=
          { caseSensitive := (lastValue? ["case_sensitive"] readSwitch? contents).getD false
            hyphenTolerant :=
              (lastValue? ["hyphen_tolerant", "concatenate_hyphens"] readSwitch? contents).getD
                false
            mode :=
              ((lastValue? ["wildcards", "regexp"] readSwitch? contents).map Mode.ofWildcards).getD
                .literal
            direction := (lastValue? ["direction"] readDirection? contents).getD .forward }
        historyLimit :=
          ((lastValue? ["history_limit"] readWord? contents).map fun n => max 1 (min n 10000)).getD
            200
        excerptContext :=
          ((lastValue? ["excerpt_context"] readWord? contents).map fun n => min n 200).getD
            16 } := by
  refine ⟨ofContents_settings contents, ?_⟩
  rw [← lastValue?_map _ _ Mode.ofWildcards, ← lastValue?_map _ _ fun n => max 1 (min n 10000),
    ← lastValue?_map _ _ fun n => min n 200]
  have h_case := ofContents_field contents .caseSensitive readSwitch?
    (fun _ _ => Change.caseSensitive.inj) rfl rfl fun _ => Option.map_map ..
  have h_hyphen := ofContents_field contents .hyphenTolerant readSwitch?
    (fun _ _ => Change.hyphenTolerant.inj) rfl rfl fun _ => Option.map_map ..
  have h_direction := ofContents_field contents .direction readDirection?
    (fun _ _ => Change.direction.inj) rfl rfl fun _ => Option.map_map ..
  -- modes and limits are not stored as they are read
  have h_mode := ofContents_field contents .wildcards
    (fun value => (readSwitch? value).map Mode.ofWildcards)
    (fun _ _ => Change.mode.inj) rfl rfl fun value => by
      rw [Change.ofValue?, Option.map_map, Option.map_map]
      rfl
  have h_limit := ofContents_field contents .historyLimit
    (fun value => (readWord? value).map fun n => max 1 (min n 10000))
    (fun _ _ => Change.historyLimit.inj) rfl rfl fun value => by
      rw [Change.ofValue?, Option.map_map, Option.map_map]
      rfl
  have h_context := ofContents_field contents .excerptContext
    (fun value => (readWord? value).map fun n => min n 200)
    (fun _ _ => Change.excerptContext.inj) rfl rfl fun value => by
      rw [Change.ofValue?, Option.map_map, Option.map_map]
      rfl
  have h_settings :=
    congr (congr (congr (congrArg Settings.mk h_case) h_hyphen) h_mode) h_direction
  exact congr (congr (congrArg ConsoleConfig.mk h_settings) h_limit) h_context

/-- Aliases set one field, and a later line without a value for it does not undo that. -/
example :
    ConsoleConfig.ofContents "Regexp=1\nHISTORY_LIMIT=0\nwildcards=?".toList =
      { settings := { mode := .wildcard }, historyLimit := 1 } := by decide +kernel

end PagedSearch
