/-
  PagedSearch.Config.Check

  Checking a config file: what a user should know about its lines. An error
  is a line without effect; a warning is a key that nothing reads or a limit
  that is brought into its range. The check has a table of the keys and the
  bounds of its own.
-/
import PagedSearch.Config.Value

namespace PagedSearch

/-- The keys that the check knows. -/
def validKeys : List String :=
  ["case_sensitive", "hyphen_tolerant", "concatenate_hyphens", "wildcards", "regexp", "direction",
   "history_limit", "excerpt_context"]

/-- The characters around a match that the check allows at most. -/
def maxCheckedContext : Nat := 200

/-- What is wrong with a line of a config file. -/
inductive Finding where
  | malformed
  | unknownKey (name : Text)
  | notSwitch (name : Text)
  | notDirection
  | notLimit
  | limitClamped
  | notContext
  | contextCapped
deriving DecidableEq, Repr

namespace Finding

/-- True of findings about lines without effect, unknown keys apart. -/
def isError : Finding → Bool
  | .malformed | .notSwitch _ | .notDirection | .notLimit | .notContext => true
  | .unknownKey _ | .limitClamped | .contextCapped => false

/-- What a finding says. -/
def text : Finding → String
  | .malformed => "Invalid syntax. Expected 'key = value'"
  | .unknownKey name => s!"Unknown key '{String.ofList name}'"
  | .notSwitch name => s!"{String.ofList name} must be true/false, yes/no, on/off or 1/0"
  | .notDirection => "direction must be 'forward' or 'backward'"
  | .notLimit => "history_limit must be a positive integer"
  | .limitClamped => s!"history_limit is clamped to 1..={maxHistoryLimit}"
  | .notContext => "excerpt_context must be a non-negative integer"
  | .contextCapped => s!"excerpt_context is capped at {maxCheckedContext}"

/-- The message that a user is shown about a line. -/
def message (number : Nat) (f : Finding) : String := s!"Line {number}: {f.text}"

end Finding

/-- What is wrong with the value of a key. -/
def checkValue? (key value : Text) : Option Finding :=
  if isOneOf ["case_sensitive", "hyphen_tolerant", "concatenate_hyphens", "wildcards", "regexp"]
      key then
    if (readSwitch? value).isNone then some (.notSwitch key) else none
  else if isOneOf ["direction"] key then
    if (readDirection? value).isNone then some .notDirection else none
  else if isOneOf ["history_limit"] key then
    match readWord? value with
    | some limit => if 1 ≤ limit ∧ limit ≤ maxHistoryLimit then none else some .limitClamped
    | none => some .notLimit
  else if isOneOf ["excerpt_context"] key then
    match readWord? value with
    | some context => if context ≤ maxCheckedContext then none else some .contextCapped
    | none => some .notContext
  else none

/-- What is wrong with a line. -/
def checkLine? (line : Text) : Option Finding :=
  let line := trim line
  if line.isEmpty || line.head? == some '#' then none
  else match cutAt? (· == '=') line with
    | none => some .malformed
    | some (key, value) =>
      let key := trim key
      if isOneOf validKeys key then checkValue? key (trim value)
      else some (.unknownKey key)

/-- What is wrong with a config file, with line numbers. -/
def checkConfig (contents : Text) : List (Nat × Finding) :=
  ((lines contents).zipIdx 1).filterMap fun (line, number) =>
    (checkLine? line).map fun f => (number, f)

/-- The messages about errors. -/
def errorMessages (findings : List (Nat × Finding)) : List String :=
  (findings.filter fun (_, f) => f.isError).map fun (number, f) => f.message number

/-- The messages about warnings. -/
def warningMessages (findings : List (Nat × Finding)) : List String :=
  (findings.filter fun (_, f) => !f.isError).map fun (number, f) => f.message number

end PagedSearch
