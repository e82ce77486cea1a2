/-
  PagedSearch.Console.Reply

  What the console prints: its help and the lines that show an event.
-/
import PagedSearch.Desk

namespace PagedSearch

/-- What the console can do. -/
def consoleHelp : Text :=
  ["Commands:",
   "  find <pattern>              search from the current selection",
   "  next | prev                 repeat the search, or step through `all` results",
   "  all <pattern>               list every occurrence",
   "  first | last | match <n>    select a listed occurrence",
   "  page <n>                    show a page with listed occurrences marked",
   "  replace <pattern> => <text> replace every occurrence",
   "  case on|off                 match letter case exactly",
   "  hyphen on|off               ignore hyphens inside words",
   "  wildcard on|off             enable . [a-z] \\x x*",
   "                              (may skip a match overlapping a failed one)",
   "  stop                        interrupt the running search",
   "  history                     show the search history",
   "  save <path>                 write the document (.json or text)",
   "  help | quit"].flatMap printedLine

/-- The name of a switch's position. -/
def onOff (on : Bool) : String := if on then "on" else "off"

/-- Shows where a match is. -/
def showMatch (m : Match) (excerpt : Text) : String :=
  s!"page {m.page + 1}: {String.ofList excerpt}"

/-- What the console prints about an event. -/
def Event.printed : Event → Text
  | .outcome (.found m) excerpt => printedLine (showMatch m (excerpt.getD []))
  | .outcome .notFound _ => printedLine "Not found"
  | .outcome .stopped _ => printedLine "Stopped"
  | .listed found =>
    (found.flatMap fun (m, excerpt) => printedLine (showMatch m excerpt)) ++
      printedLine s!"{found.length} occurrence(s)"
  | .selected m (i, n) excerpt => printedLine s!"{i}/{n} {showMatch m excerpt}"
  | .noResults => printedLine "no listed occurrence there, run `all <pattern>` first"
  | .page number text => printedLine s!"--- page {number + 1} ---" ++ text ++ ['\n']
  | .replaced count => printedLine s!"replaced {count} occurrence(s)"
  | .invalidPattern error => printedLine s!"invalid pattern: {error.message}"
  | .configured s =>
    printedLine (s!"case {onOff s.caseSensitive}, hyphen {onOff s.hyphenTolerant}, " ++
      s!"wildcard {onOff (s.mode == .wildcard)}")
  | .history lines => lines.flatMap fun l => l.text ++ ['\n']
  | .saved path => printedLine s!"saved {String.ofList path}"
  | .refused refusal => printedLine refusal.message

end PagedSearch
