/-
  PagedSearch.CommandLine.Search

  Searching a document and replacing in it from the command line. A search
  lists the first match or all of them; a backward search starts on the last
  page.
-/
import PagedSearch.CommandLine.Arguments
import PagedSearch.Config
import PagedSearch.Config.Place
import PagedSearch.Report
import PagedSearch.Session
import PagedSearch.Text.Quoted

namespace PagedSearch

/-! ## Searching -/

/-- A session with a pattern, unless the pattern cannot be read. -/
def Session.ofPattern? (settings : Settings) (pattern : Text) : Except PatternError Session :=
  let session := (Session.new settings).withQuery pattern
  match session.error with
  | some e => .error e
  | none => .ok session

/-- All matches of a session's pattern, or the one that a search from the start finds. -/
def Session.lookUp (s : Session) (d : Document) (all : Bool) : List Match :=
  if all then (s.findAll d .never).results.listed
  else match ((s.rewound d).find d .never).2 with
    | .found m => [m]
    | _ => []

/-- The matches that a search lists. -/
def searchDocument (d : Document) (pattern : Text) (settings : Settings) (all : Bool) :
    Except PatternError (List Match) :=
  (Session.ofPattern? settings pattern).map (·.lookUp d all)

/-- Tells where a match is. Pages count from one, fragments and offsets from zero. -/
def Match.description (m : Match) : String :=
  s!"page {m.page + 1}, fragment {m.first.fragment} offset {m.first.offset} to " ++
    s!"fragment {m.last.fragment} offset {m.last.offset} " ++
    (if m.spanned = 1 then "(1 fragment)" else s!"({m.spanned} fragments)")

/-- What a search prints. -/
def printedSearch (all : Bool) (found : List Match) : Text :=
  (found.flatMap fun m => printedLine m.description) ++
    (if all then printedLine s!"{found.length} occurrence(s)"
    else if found.isEmpty then printedLine "Not found"
    else [])

/-! ## Failures -/

/-- What fails on a pattern that cannot be read. -/
def invalidPattern (pattern : Text) : Text := "Invalid pattern ".toList ++ quoted pattern

/-- The failure of a pattern. -/
def Failure.ofPatternError (pattern : Text) (e : PatternError) : Failure :=
  ⟨invalidPattern pattern, [e.message.toList]⟩

/-- A document for the command line. -/
def loadDocument (json : JsonLibrary) (files : FileTree) (path : Path) :
    Except Failure Document :=
  (Document.load json files path).mapError (.ofDocumentError ("Failed to load ".toList ++ path))

/-- The settings of the config file; without one the settings are as if nothing were set. -/
def configuredSettings (e : Environment) (files : FileTree) : Settings :=
  match files.readText e.commandLineConfig with
  | .ok contents => readSettings contents
  | .error _ => {}

/-! ## Runs -/

/-- Runs a search; its status tells whether something was found. -/
def runSearch (json : JsonLibrary) (e : Environment) (files : FileTree) (document : Path)
    (pattern : Text) (all : Bool) (flags : SearchFlags) : Except Failure Run := do
  let d ← loadDocument json files document
  let settings := flags.appliedTo (configuredSettings e files)
  let found ← (searchDocument d pattern settings all).mapError (.ofPatternError pattern)
  return { status := if found.isEmpty then 1 else 0, printed := printedSearch all found, files }

/-- Runs a replacement; the document is written to `output`, or to where it was read. -/
def runReplace (json : JsonLibrary) (e : Environment) (files : FileTree) (document : Path)
    (pattern replacement : Text) (output : Option Path) (flags : SearchFlags) :
    Except Failure Run := do
  let d ← loadDocument json files document
  let settings := flags.appliedTo (configuredSettings e files)
  let session ← (Session.ofPattern? settings pattern).mapError (.ofPatternError pattern)
  let (_, d, count) := session.replaceAll d replacement
  let target := output.getD document
  let failed := "Failed to write ".toList ++ target
  let files ← (d.save json files target).mapError (.ofDocumentError failed)
  return {
    printed := printedLine s!"Replaced {count} occurrence(s) in {String.ofList target}"
    files }

end PagedSearch
