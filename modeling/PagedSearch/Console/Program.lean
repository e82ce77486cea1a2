/-
  PagedSearch.Console.Program

  The console as a program: it opens the document named by its first
  argument, sees that there is a config file, and reads lines until one ends
  it or the input does.
-/
import PagedSearch.Config.Place
import PagedSearch.Console
import PagedSearch.Report

namespace PagedSearch

/-- What the console is asked to do when it is started. -/
inductive Start where
  | version
  | document (path : Path)
deriving DecidableEq, Repr

/-- Reads the arguments of the console; only the first one counts. -/
def Start.ofArguments : List Text → Except Failure Start
  | [] => .error ⟨"usage: pagescan <document.json|document.txt>".toList, []⟩
  | argument :: _ =>
    if argument == "--version".toList then .ok .version else .ok (.document argument)

/-- Writes a config file where there is none, if that is possible. -/
def ensureConfig (files : FileTree) (path : Path) : FileTree :=
  if files.holds path then files
  else
    let files := files.makeFolders path.folder
    match files.writeText path initialConfig with
    | .ok files => files
    | .error _ => files

/-- What the console reads from its config file. -/
def loadConfig (files : FileTree) (path : Path) : ConsoleConfig :=
  match files.readText path with
  | .ok contents => .ofContents contents
  | .error _ => {}

/-- Opens the console on a document; also gives what it prints first. -/
def Console.openedAt (json : JsonLibrary) (e : Environment) (files : FileTree) (path : Path) :
    Except Failure (Console × Text) :=
  match Document.load json files path with
  | .error error => .error (.ofDocumentError ("failed to load ".toList ++ path) error)
  | .ok d =>
    let files := ensureConfig files e.consoleConfig
    .ok (.opened d files (loadConfig files e.consoleConfig),
      printedLine s!"{d.pageCount} page(s) loaded, type `help` for commands")

/-- Runs the console on its arguments and its input. -/
def Console.run (json : JsonLibrary) (e : Environment) (files : FileTree) (arguments : List Text)
    (input : Text) : Run :=
  match Start.ofArguments arguments with
  | .error f => .failed files f
  | .ok .version => { printed := printedLine programVersion, files }
  | .ok (.document path) =>
    match Console.openedAt json e files path with
    | .error f => .failed files f
    | .ok (console, greeting) =>
      let (last, printed) := console.readAll json (lines input)
      { printed := greeting ++ printed, files := last.desk.files }

end PagedSearch
