/-
  PagedSearch.CommandLine.ConfigReport

  What the command line tells about its config file: the file with the
  settings in effect, and what is wrong with it.
-/
import PagedSearch.Config
import PagedSearch.Config.Check
import PagedSearch.Config.Place
import PagedSearch.Report

namespace PagedSearch

/-! ## Showing -/

/-- The value of a switch in a config file. -/
def switchValue (on : Bool) : String := if on then "true" else "false"

/-- The settings in effect, written as a config file. -/
def shownSettings (s : Settings) : Text :=
  ["# Effective search settings:",
   s!"case_sensitive = {switchValue s.caseSensitive}",
   s!"hyphen_tolerant = {switchValue s.hyphenTolerant}",
   s!"wildcards = {switchValue (s.mode == .wildcard)}",
   "direction = " ++ (match s.direction with
     | .forward => "forward"
     | .backward => "backward")].flatMap printedLine

/-- Shows the contents of a config file. -/
def shownContents (contents : Text) : Text :=
  if (trim contents).isEmpty then printedLine "# (empty file - using defaults)" ++ ['\n']
  else contents ++ (if contents.getLast? = some '\n' then [] else ['\n']) ++ ['\n']

/-- Shows the config file and the settings in effect. -/
def showConfig (e : Environment) (files : FileTree) : Run :=
  let path := e.commandLineConfig
  let heading := "# Config file: ".toList ++ path
  if files.holds path then
    let heading := heading ++ ['\n', '\n']
    match files.readText path with
    | .ok contents =>
      { printed := heading ++ shownContents contents ++ shownSettings (readSettings contents)
        files }
    | .error fault =>
      { printed := heading
        complaint := printedLine s!"Failed to read config file: {fault.message}"
        files }
  else
    { printed := heading ++ printedLine " (not created yet)" ++
        printedLine "# Using default configuration" ++ ['\n'] ++ shownSettings {}
      files }

/-! ## Validating -/

/-- A list of messages under a heading; nothing if there are none. -/
def messageList (heading : String) (messages : List String) : Text :=
  if messages.isEmpty then []
  else '\n' :: printedLine heading ++ messages.flatMap fun m => printedLine s!"  {m}"

/-- Shows what is wrong with a config file. -/
def shownFindings (errors warnings : List String) : Text :=
  if errors.isEmpty && warnings.isEmpty then printedLine "Status: Valid"
  else messageList "Errors:" errors ++ messageList "Warnings:" warnings ++ ['\n'] ++
    printedLine (if errors.isEmpty then "Result: Valid (with warnings)" else "Result: Invalid")

/-- Checks the config file; the status tells whether all its lines have an effect. -/
def validateConfig (e : Environment) (files : FileTree) : Run :=
  let path := e.commandLineConfig
  let heading := "Config file: ".toList ++ path ++ ['\n']
  if files.holds path then
    match files.readText path with
    | .ok contents =>
      let findings := checkConfig contents
      let errors := errorMessages findings
      { status := if errors.isEmpty then 0 else 1
        printed := heading ++ shownFindings errors (warningMessages findings)
        files }
    | .error fault =>
      { status := 1
        printed := heading ++ printedLine "Status: Failed to read file" ++
          printedLine s!"Error: {fault.message}"
        files }
  else
    { printed := heading ++ printedLine "Status: File does not exist (using defaults)" ++
        printedLine "Result: Valid"
      files }

end PagedSearch
