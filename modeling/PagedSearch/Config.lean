/-
  PagedSearch.Config

  Reading config files. A line is blank, a comment behind a number sign, or
  sets a key to a value; what is none of these is passed over. Entries take
  effect one after the other, so the last entry of a key that has a value of
  its own decides. The command line takes keys as they are written, the
  console in letters of either case; the console also reads the limits of its
  history and its excerpts.
-/
import PagedSearch.Config.Value

namespace PagedSearch

/-! ## The command line -/

/-- The keys and values of a config file with their line numbers, counted from one. -/
def configEntries (contents : Text) : List (Nat × Text × Text) :=
  ((lines contents).zipIdx 1).filterMap fun (line, number) =>
    let line := trim line
    if line.isEmpty || line.head? == some '#' then none
    else (cutAt? (· == '=') line).map fun (key, value) => (number, trim key, trim value)

/-- Settings after an entry; one whose value does not belong to its key changes nothing. -/
def Settings.withEntry (s : Settings) (key value : Text) : Settings :=
  if isOneOf ["case_sensitive"] key then
    (readSwitch? value).elim s fun on => { s with caseSensitive := on }
  else if isOneOf ["hyphen_tolerant", "concatenate_hyphens"] key then
    (readSwitch? value).elim s fun on => { s with hyphenTolerant := on }
  else if isOneOf ["wildcards", "regexp"] key then
    (readSwitch? value).elim s fun on => { s with mode := .ofWildcards on }
  else if isOneOf ["direction"] key then
    (readDirection? value).elim s fun direction => { s with direction }
  else s

/-- The settings that the command line reads from a config file. -/
def readSettings (contents : Text) : Settings :=
  (configEntries contents).foldl (fun s (_, key, value) => s.withEntry key value) {}

/-! ## The console -/

/-- How many characters the console shows around a match when it is not told. -/
def defaultContext : Nat := 16

/-- How many characters the console shows around a match at most. -/
def maxContext : Nat := 200

/-- What the console reads from its config file. -/
structure ConsoleConfig where
  settings : Settings := {}
  historyLimit : Nat := defaultHistoryLimit
  excerptContext : Nat := defaultContext
deriving DecidableEq, Repr, Inhabited

namespace ConsoleConfig

/-- The config after an entry. Letter case in the key does not count, and limits are brought into
    their ranges. -/
def withEntry (c : ConsoleConfig) (key value : Text) : ConsoleConfig :=
  if isOneOfAscii ["case_sensitive"] key then
    (readSwitch? value).elim c fun on =>
      { c with settings := { c.settings with caseSensitive := on } }
  else if isOneOfAscii ["hyphen_tolerant", "concatenate_hyphens"] key then
    (readSwitch? value).elim c fun on =>
      { c with settings := { c.settings with hyphenTolerant := on } }
  else if isOneOfAscii ["wildcards", "regexp"] key then
    (readSwitch? value).elim c fun on =>
      { c with settings := { c.settings with mode := .ofWildcards on } }
  else if isOneOfAscii ["direction"] key then
    (readDirection? value).elim c fun direction =>
      { c with settings := { c.settings with direction } }
  else if isOneOfAscii ["history_limit"] key then
    (readWord? value).elim c fun limit => { c with historyLimit := clampHistoryLimit limit }
  else if isOneOfAscii ["excerpt_context"] key then
    (readWord? value).elim c fun context => { c with excerptContext := min context maxContext }
  else c

/-- The config after a line. -/
def withLine (c : ConsoleConfig) (line : Text) : ConsoleConfig :=
  let line := trim line
  if line.isEmpty || line.head? == some '#' then c
  else match cutAt? (· == '=') line with
    | some (key, value) => c.withEntry (trim key) (trim value)
    | none => c

/-- What the console reads from a config file. -/
def ofContents (contents : Text) : ConsoleConfig := (lines contents).foldl withLine {}

end ConsoleConfig

/-- The config file that is written where there is none. -/
def initialConfig : Text :=
  ("# Search settings\n" ++
   "# Match letter case exactly\n" ++
   "case_sensitive = false\n" ++
   "# Ignore hyphens so words broken across lines still match\n" ++
   "hyphen_tolerant = false\n" ++
   "# Enable the wildcard dialect: . [a-z] \\x x*\n" ++
   "wildcards = false\n" ++
   "# Initial search direction (forward|backward)\n" ++
   "direction = forward\n" ++
   "\n" ++
   "# Console settings\n" ++
   "# Lines kept in the search history (max 10000)\n" ++
   "# history_limit = 200\n" ++
   "# Characters of context printed around a match\n" ++
   "# excerpt_context = 16\n").toList

end PagedSearch
