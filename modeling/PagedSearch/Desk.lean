/-
  PagedSearch.Desk

  Serving requests about one document, one after the other. A desk holds the
  document, the session that searches it and the files it is saved to; every
  request but `stop` is answered by one event.
-/
import PagedSearch.Document.Storage
import PagedSearch.Session
import PagedSearch.View.Excerpt
import PagedSearch.View.Highlight

namespace PagedSearch

/-- What a desk is asked for. Pages count from zero. -/
inductive Request where
  /-- Search on, for another pattern if one is given, and in a direction if one is given. -/
  | find (pattern : Option Text) (direction : Option Direction)
  /-- List all matches of a pattern. -/
  | findAll (pattern : Text)
  /-- Move through the listed matches. -/
  | select (step : Step)
  /-- Show a page with the listed matches marked. -/
  | showPage (page : Nat)
  /-- Replace all matches of a pattern. -/
  | replace (pattern replacement : Text)
  | configure (settings : Settings)
  | history
  | save (path : Path)
deriving DecidableEq, Repr

/-- Why a request cannot be granted. -/
inductive Refusal where
  /-- The document has `count` pages, and this is none of them. -/
  | noSuchPage (page count : Nat)
  | notSaved (path : Path) (error : DocumentError)
deriving DecidableEq, Repr

/-- The message that a user is shown. -/
def Refusal.message : Refusal → String
  | .noSuchPage page count => s!"page {page + 1} is out of range (1..={count})"
  | .notSaved path error => s!"failed to save {String.ofList path}: {error.message}"

/-- How a desk answers. -/
inductive Event where
  /-- A search is over; the excerpt shows what it found. -/
  | outcome (outcome : Outcome) (excerpt : Option Text)
  /-- All matches with their excerpts. -/
  | listed (found : List (Match × Text))
  /-- The cursor is on a match. -/
  | selected (m : Match) (position : Nat × Nat) (excerpt : Text)
  /-- There is no match where the cursor should go. -/
  | noResults
  | page (page : Nat) (text : Text)
  | replaced (count : Nat)
  | invalidPattern (error : PatternError)
  | configured (settings : Settings)
  | history (lines : List HistoryLine)
  | saved (path : Path)
  | refused (refusal : Refusal)
deriving DecidableEq, Repr

/-- A document on a desk. -/
structure Desk where
  session : Session
  document : Document
  files : FileTree := {}
  /-- How many characters an excerpt shows on either side of a match. -/
  context : Nat := 0

namespace Desk

/-- Puts a document on a desk; searches start on the first page in their direction. -/
def opened (document : Document) (files : FileTree) (settings : Settings)
    (historyLimit context : Nat) : Desk where
  session := ((Session.new settings).withHistoryLimit historyLimit).rewound document
  document := document
  files := files
  context := context

/-- The excerpt of a match. -/
def excerptOf (desk : Desk) (m : Match) : Text := excerpt desk.document m desk.context

/-- The excerpt of what a search found. -/
def excerptOf? (desk : Desk) : Outcome → Option Text
  | .found m => some (desk.excerptOf m)
  | _ => none

/-- Moves through the listed matches. -/
def select (desk : Desk) (step : Step) : Desk × Event :=
  match desk.session.select step with
  | (session, some m) =>
    ({ desk with session },
      .selected m (session.results.position?.getD (0, 0)) (desk.excerptOf m))
  | (session, none) => ({ desk with session }, .noResults)

/-- Searches on in a direction, or in the session's own. -/
def find (desk : Desk) (direction : Option Direction) : Desk × Event :=
  let (session, outcome) :=
    match direction with
    | some .forward => desk.session.findNext desk.document .never
    | some .backward => desk.session.findPrevious desk.document .never
    | none => desk.session.find desk.document .never
  ({ desk with session }, .outcome outcome (desk.excerptOf? outcome))

/-- Goes on with a pattern if it can be read. -/
def withPattern (desk : Desk) (pattern : Text) (go : Desk → Desk × Event) : Desk × Event :=
  let desk := { desk with session := desk.session.withQuery pattern }
  match desk.session.error with
  | some e => (desk, .invalidPattern e)
  | none => go desk

/-- Lists all matches of the session's pattern. -/
def findAll (desk : Desk) : Desk × Event :=
  let session := desk.session.findAll desk.document .never
  ({ desk with session }, .listed (session.results.listed.map fun m => (m, desk.excerptOf m)))

/-- Shows a page; the cursor goes to the nearest match. -/
def showPage (desk : Desk) (page : Nat) : Desk × Event :=
  if page < desk.document.pageCount then
    let session := (desk.session.select (.nearestPage page)).1
    ({ desk with session }, .page page (highlightPage desk.document session.results page))
  else (desk, .refused (.noSuchPage page desk.document.pageCount))

/-- Replaces all matches of the session's pattern. -/
def replaceAll (desk : Desk) (replacement : Text) : Desk × Event :=
  let (session, document, count) := desk.session.replaceAll desk.document replacement
  ({ desk with session, document }, .replaced count)

/-- Takes other settings. -/
def configure (desk : Desk) (settings : Settings) : Desk × Event :=
  let desk := { desk with session := desk.session.withSettings settings }
  match desk.session.error with
  | some e => (desk, .invalidPattern e)
  | none => (desk, .configured settings)

/-- Writes the document to a file. -/
def save (json : JsonLibrary) (desk : Desk) (path : Path) : Desk × Event :=
  match desk.document.save json desk.files path with
  | .ok files => ({ desk with files }, .saved path)
  | .error e => (desk, .refused (.notSaved path e))

/-- The step that a search without a pattern takes while matches are listed. -/
def stepOf : Direction → Step
  | .forward => .next
  | .backward => .previous

/-- Serves a request. -/
def answer (json : JsonLibrary) (desk : Desk) : Request → Desk × Event
  | .find none (some direction) =>
    if desk.session.results.isEmpty then desk.find (some direction)
    else desk.select (stepOf direction)
  | .find none none => desk.find none
  | .find (some pattern) direction => desk.withPattern pattern (·.find direction)
  | .findAll pattern => desk.withPattern pattern findAll
  | .select step => desk.select step
  | .showPage page => desk.showPage page
  | .replace pattern replacement => desk.withPattern pattern (·.replaceAll replacement)
  | .configure settings => desk.configure settings
  | .history => (desk, .history desk.session.history.lines)
  | .save path => desk.save json path

/-- Raises the stop flag. -/
def stop (desk : Desk) : Desk := { desk with session := desk.session.stop }

end Desk

end PagedSearch
