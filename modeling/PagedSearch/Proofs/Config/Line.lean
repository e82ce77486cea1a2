/-
  PagedSearch.Proofs.Config.Line

  What config files say to the three that read them. The command line, the
  console and the check of a file each go over its lines in their own way and
  have a table of keys of their own. They agree on what a line is
  (`foldl_configEntries`, `withLine_eq`, `checkLine?_eq`) and on what the
  entry of a key means, up to the case of the letters in the key
  (`Settings.withEntry_eq`, `ConsoleConfig.withEntry_eq`).
-/
import Mathlib.Tactic.SplitIfs
import PagedSearch.Config
import PagedSearch.Config.Check

namespace PagedSearch

/-! ## Lines -/

/-- What a line of a config file says. -/
inductive ConfigLine where
  /-- Nothing: the line is blank or a comment. -/
  | ignored
  /-- It has no equals sign. -/
  | malformed
  | entry (key value : Text)
deriving DecidableEq, Repr

/-- Reads a line. -/
def ConfigLine.ofText (line : Text) : ConfigLine :=
  let content := trim line
  if content.isEmpty || content.head? == some '#' then .ignored
  else match cutAt? (· == '=') content with
    | some (key, value) => .entry (trim key) (trim value)
    | none => .malformed

/-! ## Keys -/

/-- What a config file can set. -/
inductive ConfigKey where
  | caseSensitive
  | hyphenTolerant
  | wildcards
  | direction
  | historyLimit
  | excerptContext
deriving DecidableEq, Repr

/-- The names of the keys. -/
def configNames : List (String × ConfigKey) :=
  [("case_sensitive", .caseSensitive), ("hyphen_tolerant", .hyphenTolerant),
   ("concatenate_hyphens", .hyphenTolerant), ("wildcards", .wildcards), ("regexp", .wildcards),
   ("direction", .direction), ("history_limit", .historyLimit),
   ("excerpt_context", .excerptContext)]

/-- The key of a name in lower-case letters. -/
def ConfigKey.ofName? (name : Text) : Option ConfigKey :=
  (configNames.find? fun (known, _) => known.toList == name).map Prod.snd

/-- The names that a key has. -/
def ConfigKey.names (key : ConfigKey) : List String :=
  (configNames.filter fun (_, known) => known = key).map Prod.fst

/-- A name in lower-case letters is looked up among all names, and no two keys share one. -/
theorem ConfigKey.ofName?_eq_some_iff {name : Text} {key : ConfigKey} :
    ConfigKey.ofName? name = some key ↔ isOneOf key.names name = true := by
  have h_own : ∀ x ∈ configNames, ConfigKey.ofName? x.1.toList = some x.2 := by decide
  rw [isOneOf, List.any_eq_true, ConfigKey.names]
  simp only [List.mem_map, List.mem_filter, decide_eq_true_eq, beq_iff_eq]
  constructor
  · intro h
    obtain ⟨x, h_x, h_key⟩ := Option.map_eq_some_iff.1 h
    have h_name : x.1.toList = name := by simpa using List.find?_some h_x
    exact ⟨x.1, ⟨x, ⟨List.mem_of_find?_eq_some h_x, h_key⟩, rfl⟩, h_name⟩
  · rintro ⟨_, ⟨x, ⟨h_x, rfl⟩, rfl⟩, rfl⟩
    exact h_own x h_x

/-- Looking a name up among all names is asking for the names of one key after the other. -/
theorem ConfigKey.elim_ofName? {β : Type} (name : Text) (other : β) (f : ConfigKey → β) :
    (ConfigKey.ofName? name).elim other f =
      if isOneOf ["case_sensitive"] name then f .caseSensitive
      else if isOneOf ["hyphen_tolerant", "concatenate_hyphens"] name then f .hyphenTolerant
      else if isOneOf ["wildcards", "regexp"] name then f .wildcards
      else if isOneOf ["direction"] name then f .direction
      else if isOneOf ["history_limit"] name then f .historyLimit
      else if isOneOf ["excerpt_context"] name then f .excerptContext
      else other := by
  have h_key {key : ConfigKey} (h : isOneOf key.names name = true) :
      (ConfigKey.ofName? name).elim other f = f key := by
    rw [ofName?_eq_some_iff.2 h, Option.elim_some]
  split_ifs with h_case h_hyphen h_wildcards h_direction h_limit h_context
  · exact @h_key .caseSensitive h_case
  · exact @h_key .hyphenTolerant h_hyphen
  · exact @h_key .wildcards h_wildcards
  · exact @h_key .direction h_direction
  · exact @h_key .historyLimit h_limit
  · exact @h_key .excerptContext h_context
  · -- all names were asked for, so a name that has a key is none of those left
    cases h_name : ConfigKey.ofName? name with
    | none => rfl
    | some key =>
      have h_one := ofName?_eq_some_iff.1 h_name
      cases key with
      | caseSensitive => exact absurd h_one h_case
      | hyphenTolerant => exact absurd h_one h_hyphen
      | wildcards => exact absurd h_one h_wildcards
      | direction => exact absurd h_one h_direction
      | historyLimit => exact absurd h_one h_limit
      | excerptContext => exact absurd h_one h_context

/-! ## Changes -/

/-- A setting with its new value. -/
inductive Change where
  | caseSensitive (on : Bool)
  | hyphenTolerant (on : Bool)
  | mode (mode : Mode)
  | direction (dir : Direction)
  | historyLimit (limit : Nat)
  | excerptContext (context : Nat)
deriving DecidableEq, Repr

/-- The change that a key's value stands for. -/
def Change.ofValue? (value : Text) : ConfigKey → Option Change
  | .caseSensitive => (readSwitch? value).map .caseSensitive
  | .hyphenTolerant => (readSwitch? value).map .hyphenTolerant
  | .wildcards => (readSwitch? value).map fun on => .mode (.ofWildcards on)
  | .direction => (readDirection? value).map .direction
  | .historyLimit => (readWord? value).map .historyLimit
  | .excerptContext => (readWord? value).map .excerptContext

/-- The change that an entry stands for. -/
def Change.ofPair? (name value : Text) : Option Change :=
  (ConfigKey.ofName? name).bind (Change.ofValue? value)

/-- Changes the settings of a search. -/
def Settings.changed (s : Settings) : Change → Settings
  | .caseSensitive on => { s with caseSensitive := on }
  | .hyphenTolerant on => { s with hyphenTolerant := on }
  | .mode mode => { s with mode }
  | .direction direction => { s with direction }
  | .historyLimit _ => s
  | .excerptContext _ => s

/-- Changes what the console has; limits are brought into their ranges. -/
def ConsoleConfig.changed (c : ConsoleConfig) : Change → ConsoleConfig
  | .historyLimit limit => { c with historyLimit := clampHistoryLimit limit }
  | .excerptContext context => { c with excerptContext := min context maxContext }
  | change => { c with settings := c.settings.changed change }

/-- Making the change of an entry is asking for the names of one key after the other and reading the
    value for it. -/
theorem Change.elim_ofPair? {β : Type} (name value : Text) (other : β) (f : Change → β) :
    (Change.ofPair? name value).elim other f =
      if isOneOf ["case_sensitive"] name then
        (readSwitch? value).elim other fun on => f (.caseSensitive on)
      else if isOneOf ["hyphen_tolerant", "concatenate_hyphens"] name then
        (readSwitch? value).elim other fun on => f (.hyphenTolerant on)
      else if isOneOf ["wildcards", "regexp"] name then
        (readSwitch? value).elim other fun on => f (.mode (.ofWildcards on))
      else if isOneOf ["direction"] name then
        (readDirection? value).elim other fun dir => f (.direction dir)
      else if isOneOf ["history_limit"] name then
        (readWord? value).elim other fun limit => f (.historyLimit limit)
      else if isOneOf ["excerpt_context"] name then
        (readWord? value).elim other fun context => f (.excerptContext context)
      else other := by
  have h_bind : (Change.ofPair? name value).elim other f =
      (ConfigKey.ofName? name).elim other fun key => (ofValue? value key).elim other f := by
    rw [ofPair?]
    cases ConfigKey.ofName? name with
    | none => rfl
    | some key => rfl
  rw [h_bind, ConfigKey.elim_ofName?]
  simp only [ofValue?, Option.elim_map, Function.comp_def]

/-! ## The command line -/

/-- The command line makes the change that an entry stands for; the limits are nothing to it. -/
theorem Settings.withEntry_eq (s : Settings) (name value : Text) :
    s.withEntry name value = (Change.ofPair? name value).elim s s.changed := by
  have h_limits : ∀ limit : Option Nat, (limit.elim s fun _ => s) = s := by
    rintro (_ | limit)
    · rfl
    · rfl
  rw [withEntry, Change.elim_ofPair?]
  simp only [changed, h_limits, ite_self]

/-- What a reader of entries makes of a line. -/
def ConfigLine.applyTo {β : Type} (f : β → Text → Text → β) (b : β) : ConfigLine → β
  | .entry key value => f b key value
  | _ => b

/-- Readers of entries read line by line. -/
theorem foldl_configEntries {β : Type} (f : β → Text → Text → β) (init : β) (contents : Text) :
    (configEntries contents).foldl (fun b x => f b x.2.1 x.2.2) init =
      (lines contents).foldl (fun b line => (ConfigLine.ofText line).applyTo f b) init := by
  -- what is left without an entry leaves the result as it is
  rw [← List.zipIdx_map_fst 1 (lines contents), List.foldl_map, configEntries,
    List.foldl_filterMap]
  refine congrArg (fun g => List.foldl g init ((lines contents).zipIdx 1)) (funext fun b => ?_)
  funext ⟨line, number⟩
  rw [ConfigLine.ofText]
  by_cases h_skipped : ((trim line).isEmpty || (trim line).head? == some '#') = true
  · simp only [if_pos h_skipped]
    rfl
  · simp only [if_neg h_skipped]
    cases cutAt? (· == '=') (trim line) with
    | none => rfl
    | some entry => rfl

/-! ## The console -/

/-- The names of keys are in lower-case letters. -/
theorem isOneOfAscii_eq {names : List String}
    (h : ∀ name ∈ names, lowerAscii name.toList = name.toList) (t : Text) :
    isOneOfAscii names t = isOneOf names (lowerAscii t) := by
  rw [isOneOfAscii, isOneOf]
  rw [Bool.eq_iff_iff, List.any_eq_true, List.any_eq_true]
  refine exists_congr fun name => and_congr_right fun h_name => ?_
  rw [h name h_name]

/-- The console makes the change that an entry with its key in lower-case letters stands for. -/
theorem ConsoleConfig.withEntry_eq (c : ConsoleConfig) (name value : Text) :
    c.withEntry name value = (Change.ofPair? (lowerAscii name) value).elim c c.changed := by
  rw [withEntry, Change.elim_ofPair?]
  repeat rw [isOneOfAscii_eq (by decide)]
  rfl

/-- The console reads line by line. -/
theorem ConsoleConfig.withLine_eq (c : ConsoleConfig) (line : Text) :
    c.withLine line = (ConfigLine.ofText line).applyTo ConsoleConfig.withEntry c := by
  rw [withLine, ConfigLine.ofText]
  by_cases h_skipped : ((trim line).isEmpty || (trim line).head? == some '#') = true
  · simp only [if_pos h_skipped]
    rfl
  · simp only [if_neg h_skipped]
    cases cutAt? (· == '=') (trim line) with
    | none => rfl
    | some entry => rfl

theorem ConsoleConfig.ofContents_eq (contents : Text) :
    ConsoleConfig.ofContents contents = (lines contents).foldl
      (fun c line => (ConfigLine.ofText line).applyTo ConsoleConfig.withEntry c) {} := by
  have h_step : withLine = fun c line => (ConfigLine.ofText line).applyTo withEntry c := by
    funext c line
    exact c.withLine_eq line
  rw [ofContents, h_step]

/-! ## The check -/

/-- What is wrong with the value of a key. -/
def findingOfValue? (name value : Text) : ConfigKey → Option Finding
  | .caseSensitive | .hyphenTolerant | .wildcards =>
    if (readSwitch? value).isNone then some (.notSwitch name) else none
  | .direction => if (readDirection? value).isNone then some .notDirection else none
  | .historyLimit =>
    match readWord? value with
    | none => some .notLimit
    | some limit => if clampHistoryLimit limit = limit then none else some .limitClamped
  | .excerptContext =>
    match readWord? value with
    | none => some .notContext
    | some context => if context ≤ maxContext then none else some .contextCapped

/-- What is wrong with a line. -/
def findingOfLine? : ConfigLine → Option Finding
  | .ignored => none
  | .malformed => some .malformed
  | .entry name value =>
    (ConfigKey.ofName? name).elim (some (.unknownKey name)) (findingOfValue? name value)

theorem isOneOf_names (key : ConfigKey) (name : Text) :
    isOneOf key.names name = decide (ConfigKey.ofName? name = some key) := by
  rw [Bool.eq_iff_iff, decide_eq_true_eq, ConfigKey.ofName?_eq_some_iff]

theorem isOneOf_append (names others : List String) (t : Text) :
    isOneOf (names ++ others) t = (isOneOf names t || isOneOf others t) := List.any_append

theorem clampHistoryLimit_eq_self {limit : Nat} :
    clampHistoryLimit limit = limit ↔ 1 ≤ limit ∧ limit ≤ maxHistoryLimit := by
  rw [clampHistoryLimit, maxHistoryLimit]
  omega

/-- The check of a value goes by its key. -/
theorem checkValue?_eq {name : Text} {key : ConfigKey} (h : ConfigKey.ofName? name = some key)
    (value : Text) : checkValue? name value = findingOfValue? name value key := by
  have h_names (other : ConfigKey) : isOneOf other.names name = decide (key = other) := by
    rw [isOneOf_names, h, Bool.eq_iff_iff, decide_eq_true_eq, decide_eq_true_eq, Option.some.injEq]
  -- three keys are switches
  have h_switch : isOneOf ["case_sensitive", "hyphen_tolerant", "concatenate_hyphens", "wildcards",
      "regexp"] name = (decide (key = .caseSensitive) || (decide (key = .hyphenTolerant) ||
        decide (key = .wildcards))) := by
    rw [← h_names, ← h_names, ← h_names, ← isOneOf_append, ← isOneOf_append]
    rfl
  have h_direction : isOneOf ["direction"] name = _ := h_names .direction
  have h_limit : isOneOf ["history_limit"] name = _ := h_names .historyLimit
  have h_context : isOneOf ["excerpt_context"] name = _ := h_names .excerptContext
  rw [checkValue?, h_switch, h_direction, h_limit, h_context]
  cases key with
  | caseSensitive => rfl
  | hyphenTolerant => rfl
  | wildcards => rfl
  | direction => rfl
  | historyLimit =>
    simp only [findingOfValue?, clampHistoryLimit_eq_self]
    cases readWord? value with
    | none => rfl
    | some limit => rfl
  | excerptContext =>
    simp only [findingOfValue?]
    cases readWord? value with
    | none => rfl
    | some context => rfl

/-- The check reads line by line. -/
theorem checkLine?_eq (line : Text) :
    checkLine? line = findingOfLine? (ConfigLine.ofText line) := by
  have h_valid (name : Text) : isOneOf validKeys name = (ConfigKey.ofName? name).isSome := by
    rw [Bool.eq_iff_iff, ConfigKey.ofName?, Option.isSome_map, List.find?_isSome,
      show validKeys = configNames.map Prod.fst from rfl, isOneOf, List.any_map, List.any_eq_true]
    rfl
  rw [checkLine?, ConfigLine.ofText]
  by_cases h_skipped : ((trim line).isEmpty || (trim line).head? == some '#') = true
  · simp only [if_pos h_skipped]
    rfl
  · simp only [if_neg h_skipped]
    cases cutAt? (· == '=') (trim line) with
    | none => rfl
    | some entry =>
      simp only [h_valid, findingOfLine?]
      cases h_name : ConfigKey.ofName? (trim entry.1) with
      | none => rfl
      | some key => exact checkValue?_eq h_name _

end PagedSearch
