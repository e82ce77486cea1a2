/-
  PagedSearch.CommandLine.Arguments

  The arguments of the command line: the name of an action and, behind it,
  what the action is about. Flags may stand anywhere behind the name; an
  argument of two hyphens ends them. The command line runs with any parser of
  arguments; `Action.ofArguments` is the one that the programs use.
-/
import PagedSearch.Files.Path
import PagedSearch.Settings

namespace PagedSearch

/-- The flags of a search; each one switches a setting on. -/
structure SearchFlags where
  caseSensitive : Bool := false
  hyphenTolerant : Bool := false
  wildcard : Bool := false
  backward : Bool := false
deriving DecidableEq, Repr

/-- Settings with the flags switched on. -/
def SearchFlags.appliedTo (f : SearchFlags) (s : Settings) : Settings where
  caseSensitive := s.caseSensitive || f.caseSensitive
  hyphenTolerant := s.hyphenTolerant || f.hyphenTolerant
  mode := if f.wildcard then .wildcard else s.mode
  direction := if f.backward then .backward else s.direction

/-- What the command line is asked to do. -/
inductive Action where
  | search (document : Path) (pattern : Text) (all : Bool) (flags : SearchFlags)
  | replace (document : Path) (pattern replacement : Text) (output : Option Path)
      (flags : SearchFlags)
  | help
  | showConfig
  | validateConfig
  | version
deriving DecidableEq, Repr

/-- Why arguments name no action. -/
inductive UsageError where
  /-- There is no such action. -/
  | unknownAction (name : Text)
  /-- The action does not take this argument, or not once more. -/
  | unexpected (argument : Text)
  /-- A document, pattern or replacement is not given. -/
  | incomplete
  /-- A path is empty or not given. -/
  | needsPath
deriving DecidableEq, Repr

/-- The message that a user is shown. -/
def UsageError.message : UsageError → String
  | .unknownAction name => s!"unrecognized action '{String.ofList name}'"
  | .unexpected argument => s!"unexpected argument '{String.ofList argument}'"
  | .incomplete => "required arguments were not provided"
  | .needsPath => "a path is required"

/-! ## Behind the name -/

/-- A flag. -/
inductive Switch where
  | all
  | caseSensitive
  | hyphenTolerant
  | wildcard
  | backward
deriving DecidableEq, Repr

/-- The flags by name. -/
def switchNames : List (String × Switch) :=
  [("--all", .all), ("--case-sensitive", .caseSensitive),
   ("--hyphen-tolerant", .hyphenTolerant), ("--wildcard", .wildcard), ("--backward", .backward)]

/-- The flag of a name. -/
def Switch.ofName? (name : Text) : Option Switch :=
  (switchNames.find? fun (known, _) => known.toList == name).map Prod.snd

/-- What stands behind the name of an action. -/
structure Arguments where
  /-- The arguments that are no flags. -/
  plain : List Text := []
  switches : List Switch := []
  /-- The path to write to. -/
  output : Option Path := none
deriving DecidableEq, Repr

namespace Arguments

/-- True of arguments that are read as flags. -/
def isFlag (argument : Text) : Bool := argument.head? == some '-' && 1 < argument.length

/-- True of the two flags whose path is the following argument. -/
def isOutputName (argument : Text) : Bool :=
  argument == "-o".toList || argument == "--output".toList

/-- The path of a flag that holds its path. -/
def outputWithin? (argument : Text) : Option Path :=
  if "--output=".toList.isPrefixOf argument then some (argument.drop 9)
  else if "-o=".toList.isPrefixOf argument then some (argument.drop 3)
  else if "-o".toList.isPrefixOf argument then some (argument.drop 2)
  else none

/-- Puts an argument that is no flag in front. -/
def withPlain (argument : Text) (a : Arguments) : Arguments :=
  { a with plain := argument :: a.plain }

/-- Takes a path to write to, unless there is one already. -/
def withOutput (path : Path) (a : Arguments) : Except UsageError Arguments :=
  if path.isEmpty then .error .needsPath
  else if a.output.isSome then .error (.unexpected "--output".toList)
  else .ok { a with output := some path }

/-- Takes a flag, unless it is given already. -/
def withSwitch (argument : Text) (switch : Switch) (a : Arguments) :
    Except UsageError Arguments :=
  if a.switches.contains switch then .error (.unexpected argument)
  else .ok { a with switches := switch :: a.switches }

/-- Reads the arguments behind the name of an action. -/
def ofList : List Text → Except UsageError Arguments
  | [] => .ok {}
  | argument :: rest =>
    if !isFlag argument then (ofList rest).map (withPlain argument)
    else if argument == "--".toList then .ok { plain := rest }
    else if isOutputName argument then
      match rest with
      | [] => .error .needsPath
      | path :: rest => if isFlag path then .error .needsPath else ofList rest >>= withOutput path
    else match Switch.ofName? argument, outputWithin? argument with
      | some switch, _ => ofList rest >>= withSwitch argument switch
      | none, some path => ofList rest >>= withOutput path
      | none, none => .error (.unexpected argument)

/-- The flags of a search. -/
def flags (a : Arguments) : SearchFlags where
  caseSensitive := a.switches.contains .caseSensitive
  hyphenTolerant := a.switches.contains .hyphenTolerant
  wildcard := a.switches.contains .wildcard
  backward := a.switches.contains .backward

/-- The arguments of a search. -/
def search (a : Arguments) : Except UsageError Action :=
  match a.plain, a.output with
  | _, some path => .error (.unexpected path)
  | [document, pattern], none =>
    if document.isEmpty then .error .needsPath
    else .ok (.search document pattern (a.switches.contains .all) a.flags)
  | _ :: _ :: extra :: _, none => .error (.unexpected extra)
  | _, none => .error .incomplete

/-- The arguments of a replacement. -/
def replace (a : Arguments) : Except UsageError Action :=
  match a.plain with
  | [document, pattern, replacement] =>
    if a.switches.contains .all then .error (.unexpected "--all".toList)
    else if document.isEmpty then .error .needsPath
    else .ok (.replace document pattern replacement a.output a.flags)
  | _ :: _ :: _ :: extra :: _ => .error (.unexpected extra)
  | _ => .error .incomplete

/-- An action that takes no arguments. -/
def alone (action : Action) : List Text → Except UsageError Action
  | [] => .ok action
  | argument :: rest =>
    if argument == "--".toList && rest.isEmpty then .ok action else .error (.unexpected argument)

end Arguments

/-! ## The whole -/

/-- Reads the arguments of the command line. Without an action it shows its help. -/
def Action.ofArguments : List Text → Except UsageError Action
  | [] => .ok .help
  | name :: rest =>
    if name == "-search".toList then Arguments.ofList rest >>= Arguments.search
    else if name == "-replace".toList then Arguments.ofList rest >>= Arguments.replace
    else if name == "-help".toList then Arguments.alone .help rest
    else if name == "-show-config".toList then Arguments.alone .showConfig rest
    else if name == "-validate-config".toList then Arguments.alone .validateConfig rest
    else if name == "--version".toList || name == "-V".toList then .ok .version
    else if name == "--".toList then Arguments.alone .help rest
    else .error (.unknownAction name)

end PagedSearch
