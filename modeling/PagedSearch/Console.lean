/-
  PagedSearch.Console

  A console on top of a desk: it reads a line, sends the desk a request and
  prints the event that answers it. The console keeps settings of its own,
  which the switches change before they are sent to the desk.
-/
import PagedSearch.Config
import PagedSearch.Console.Command
import PagedSearch.Console.Reply

namespace PagedSearch

/-- A console and the desk it sends requests to. -/
structure Console where
  desk : Desk
  settings : Settings

/-- What the console does on a line. -/
inductive Reaction where
  /-- It prints a text. -/
  | print (text : Text)
  | send (request : Request)
  /-- It takes these settings and sends them. -/
  | switch (settings : Settings)
  | stop
  | quit
deriving DecidableEq, Repr

/-- What the console does on a command under its settings. -/
def Command.reaction (s : Settings) : Command → Reaction
  | .find pattern => .send (.find (some pattern) none)
  | .next => .send (.find none (some .forward))
  | .previous => .send (.find none (some .backward))
  | .all pattern => .send (.findAll pattern)
  | .first => .send (.select .first)
  | .last => .send (.select .last)
  | .pick number => .send (.select (.index (number - 1)))
  | .page number => .send (.showPage (number - 1))
  | .replace pattern replacement => .send (.replace pattern replacement)
  | .caseSensitive on => .switch { s with caseSensitive := on }
  | .hyphenTolerant on => .switch { s with hyphenTolerant := on }
  | .wildcards on => .switch { s with mode := .ofWildcards on }
  | .stop => .stop
  | .history => .send .history
  | .save path => .send (.save path)
  | .help => .print consoleHelp
  | .quit => .quit

/-- What the console does on a line under its settings. -/
def reactionTo (s : Settings) (line : Text) : Reaction :=
  match Command.ofLine line with
  | .ok command => command.reaction s
  | .error .blank => .print []
  | .error e => .print (printedLine e.message)

/-- What comes of a line: the console afterwards, what was printed, and whether the console goes
    on. -/
structure Turn where
  console : Console
  printed : Text := []
  goesOn : Bool := true

namespace Console

/-- Opens a console on a document. -/
def opened (document : Document) (files : FileTree) (config : ConsoleConfig) : Console where
  desk := .opened document files config.settings config.historyLimit config.excerptContext
  settings := config.settings

/-- The settings of the console after an event. -/
def settingsAfter (s : Settings) : Event → Settings
  | .configured settings => settings
  | _ => s

/-- Sends a request and prints its answer. -/
def send (json : JsonLibrary) (c : Console) (request : Request) : Turn :=
  let (desk, event) := c.desk.answer json request
  { console := ⟨desk, settingsAfter c.settings event⟩, printed := event.printed }

/-- Reads a line. -/
def read (json : JsonLibrary) (c : Console) (line : Text) : Turn :=
  match reactionTo c.settings line with
  | .print text => { console := c, printed := text }
  | .send request => c.send json request
  | .switch settings => { c with settings }.send json (.configure settings)
  | .stop => { console := { c with desk := c.desk.stop } }
  | .quit => { console := c, goesOn := false }

/-- Reads lines until one ends the console; gives the console afterwards and all that was
    printed. -/
def readAll (json : JsonLibrary) (c : Console) : List Text → Console × Text
  | [] => (c, [])
  | line :: rest =>
    let turn := c.read json line
    if turn.goesOn then
      let (last, printed) := turn.console.readAll json rest
      (last, turn.printed ++ printed)
    else (turn.console, turn.printed)

end Console

end PagedSearch
