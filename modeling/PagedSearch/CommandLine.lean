/-
  PagedSearch.CommandLine

  The command line: one action on a document or on the config file.
-/
import PagedSearch.CommandLine.ConfigReport
import PagedSearch.CommandLine.Search

namespace PagedSearch.CommandLine

/-- What the command line can do. -/
def help : Text :=
  ["Available commands:",
   "",
   "  -search <document> <pattern>           Find the first occurrence",
   "  -search <document> <pattern> --all     List every occurrence",
   "  -replace <document> <pattern> <text>   Replace every occurrence",
   "  -help                                  Show this help message",
   "  -show-config                           Display current configuration",
   "  -validate-config                       Validate configuration file",
   "  --version                              Show version information",
   "",
   "Search flags: --case-sensitive --hyphen-tolerant --wildcard --backward",
   "Documents are JSON (\x7b\"pages\":[\x7b\"fragments\":[...]\x7d]\x7d) or plain text,",
   "with form feeds separating pages."].flatMap printedLine

/-- Does what an action asks for. -/
def perform (json : JsonLibrary) (e : Environment) (files : FileTree) :
    Action → Except Failure Run
  | .search document pattern all flags => runSearch json e files document pattern all flags
  | .replace document pattern replacement output flags =>
    runReplace json e files document pattern replacement output flags
  | .help => .ok { printed := help, files }
  | .showConfig => .ok (showConfig e files)
  | .validateConfig => .ok (validateConfig e files)
  | .version => .ok { printed := printedLine programVersion, files }

/-- Runs the command line on its arguments, which are parsed to the action that they ask for. -/
def run (parse : List Text → Except UsageError Action) (json : JsonLibrary) (e : Environment)
    (files : FileTree) (arguments : List Text) : Run :=
  match parse arguments with
  | .error error => { status := 2, complaint := printedLine s!"error: {error.message}", files }
  | .ok action =>
    match perform json e files action with
    | .ok run => run
    | .error f => .failed files f

end PagedSearch.CommandLine
