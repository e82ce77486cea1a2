/-
  PagedSearch.Document.Storage

  Documents in files. The extension of the path decides on the format: JSON
  for `json` in letters of either case, plain text for all others.
-/
import PagedSearch.Document.Json
import PagedSearch.Document.PlainText
import PagedSearch.Files

namespace PagedSearch

/-- Why a document cannot be read or written. -/
inductive DocumentError where
  | file (fault : FileFault)
  | json (fault : JsonFault)
deriving DecidableEq, Repr

/-- What is wrong with a JSON text. -/
def JsonFault.message : JsonFault → String
  | .malformed => "malformed value"
  | .truncated => "unexpected end of input"
  | .mismatched => "unexpected shape"

namespace DocumentError

/-- The message that a user is shown. -/
def message : DocumentError → String
  | .file fault => s!"failed to access document: {fault.message}"
  | .json fault => s!"invalid document JSON: {fault.message}"

/-- What lies behind the error. -/
def cause : DocumentError → String
  | .file fault => fault.message
  | .json fault => fault.message

end DocumentError

/-- True of the paths of JSON files. -/
def Path.isJson (path : Path) : Bool :=
  path.extension?.any fun extension => lowerAscii extension == "json".toList

namespace Document

/-- The text of a document in the format of a path. -/
def written (json : JsonLibrary) (d : Document) (path : Path) : Text :=
  if path.isJson then d.toJson json else d.toPlainText

/-- The document of a text in the format of a path. -/
def ofWritten (json : JsonLibrary) (path : Path) (t : Text) : Except DocumentError Document :=
  if path.isJson then (ofJson json t).mapError .json else .ok (ofPlainText t)

/-- Reads a document from a file. -/
def load (json : JsonLibrary) (tree : FileTree) (path : Path) : Except DocumentError Document :=
  match tree.readText path with
  | .error e => .error (.file e)
  | .ok t => ofWritten json path t

/-- Writes a document to a file. -/
def save (json : JsonLibrary) (d : Document) (tree : FileTree) (path : Path) :
    Except DocumentError FileTree :=
  (tree.writeText path (d.written json path)).mapError .file

end Document

end PagedSearch
