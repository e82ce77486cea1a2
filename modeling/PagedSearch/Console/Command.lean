/-
  PagedSearch.Console.Command

  The lines that a user types into the console. A line is the name of a
  command, in letters of either case, and what it is about. Numbers count
  from one.
-/
import PagedSearch.Config.Value
import PagedSearch.Files.Path

namespace PagedSearch

/-- What a line asks for. -/
inductive Command where
  | find (pattern : Text)
  | next
  | previous
  | all (pattern : Text)
  | first
  | last
  /-- The match with this number. -/
  | pick (number : Nat)
  /-- The page with this number. -/
  | page (number : Nat)
  | replace (pattern replacement : Text)
  | caseSensitive (on : Bool)
  | hyphenTolerant (on : Bool)
  | wildcards (on : Bool)
  | stop
  | history
  | save (path : Path)
  | help
  | quit
deriving DecidableEq, Repr

/-! ## What is wrong with a line -/

/-- Why a line is no command. -/
inductive CommandError where
  /-- The line is blank. -/
  | blank
  | needsPattern (name : Text)
  | needsPath (name : Text)
  | needsSwitch (name : Text)
  | needsNumber (name : Text)
  /-- A replacement without an arrow. -/
  | needsArrow
  | unknown (name : Text)
deriving DecidableEq, Repr

/-- The message that a user is shown. -/
def CommandError.message : CommandError → String
  | .blank => ""
  | .needsPattern name => s!"`{String.ofList name}` needs a pattern"
  | .needsPath name => s!"`{String.ofList name}` needs a path"
  | .needsSwitch name => s!"`{String.ofList name}` expects on or off"
  | .needsNumber name => s!"`{String.ofList name}` expects a number from 1"
  | .needsArrow => "usage: replace <pattern> => <text>"
  | .unknown name => s!"unknown command `{String.ofList name}`, try `help`"

/-! ## Names -/

/-- The commands without what they are about. -/
inductive CommandName where
  | find | next | previous | all | first | last | pick | page | replace
  | caseSensitive | hyphenTolerant | wildcards | stop | history | save | help | quit
deriving DecidableEq, Repr

/-- The names of the commands. -/
def commandNames : List (String × CommandName) :=
  [("find", .find), ("f", .find), ("next", .next), ("n", .next),
   ("prev", .previous), ("previous", .previous), ("p", .previous), ("all", .all),
   ("first", .first), ("last", .last), ("match", .pick), ("m", .pick), ("page", .page),
   ("replace", .replace), ("case", .caseSensitive), ("hyphen", .hyphenTolerant),
   ("wildcard", .wildcards), ("stop", .stop), ("history", .history), ("save", .save),
   ("help", .help), ("?", .help), ("quit", .quit), ("exit", .quit), ("q", .quit)]

/-- The command of a name in lower-case letters. -/
def CommandName.ofName? (name : Text) : Option CommandName :=
  (commandNames.find? fun (known, _) => known.toList == name).map Prod.snd

/-! ## Lines -/

/-- The first word of a line and what follows it. -/
def nameAndRest (line : Text) : Text × Text :=
  match cutAt? isBlank (trim line) with
  | some (name, rest) => (name, trim rest)
  | none => (trim line, [])

/-- A text that must not be empty. -/
def required (t : Text) (e : CommandError) : Except CommandError Text :=
  if t.isEmpty then .error e else .ok t

/-- A number that must not be zero. -/
def readNumber? (t : Text) : Option Nat := (readWord? t).filter (0 < ·)

/-- What stands between the two texts of a replacement. -/
def arrow : Text := "=>".toList

/-- Reads a replacement. -/
def readReplacement (rest : Text) : Except CommandError Command :=
  match cutAtText? arrow rest with
  | none => .error .needsArrow
  | some (pattern, replacement) =>
    (required (trim pattern) (.needsPattern "replace".toList)).map (.replace · (trim replacement))

/-- Reads what a command is about; `name` is the name as it was typed. -/
def CommandName.read (name rest : Text) : CommandName → Except CommandError Command
  | .find => (required rest (.needsPattern name)).map .find
  | .all => (required rest (.needsPattern name)).map .all
  | .save => (required rest (.needsPath name)).map .save
  | .pick => ((readNumber? rest).map .pick).elim (.error (.needsNumber name)) .ok
  | .page => ((readNumber? rest).map .page).elim (.error (.needsNumber name)) .ok
  | .replace => readReplacement rest
  | .caseSensitive =>
    ((readSwitch? rest).map .caseSensitive).elim (.error (.needsSwitch name)) .ok
  | .hyphenTolerant =>
    ((readSwitch? rest).map .hyphenTolerant).elim (.error (.needsSwitch name)) .ok
  | .wildcards => ((readSwitch? rest).map .wildcards).elim (.error (.needsSwitch name)) .ok
  | .next => .ok .next
  | .previous => .ok .previous
  | .first => .ok .first
  | .last => .ok .last
  | .stop => .ok .stop
  | .history => .ok .history
  | .help => .ok .help
  | .quit => .ok .quit

/-- Reads a line. -/
def Command.ofLine (line : Text) : Except CommandError Command :=
  let (name, rest) := nameAndRest line
  if name.isEmpty then .error .blank
  else match CommandName.ofName? (lowerAscii name) with
    | some command => command.read name rest
    | none => .error (.unknown (lowerAscii name))

end PagedSearch
