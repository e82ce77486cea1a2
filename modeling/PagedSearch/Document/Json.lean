/-
  PagedSearch.Document.Json

  Documents as JSON: a record with the field `pages`, a list of records with
  the field `fragments`, a list of strings. Both fields may be missing. A
  library writes and reads the JSON.
-/
import PagedSearch.Document
import PagedSearch.Json.Library

namespace PagedSearch.Document

/-- The shape of a page's fragments. -/
def pageShape : JsonShape (List Text) := .record "fragments".toList (.listOf .text) []

/-- The shape of the fragments of all pages. -/
def shape : JsonShape (List (List Text)) := .record "pages".toList (.listOf pageShape) []

/-- Reads a document from JSON. -/
def ofJson (json : JsonLibrary) (t : Text) : Except JsonFault Document :=
  (json.read shape t).map ofFragments

/-- Writes a document as JSON. -/
def toJson (json : JsonLibrary) (d : Document) : Text :=
  json.write shape (d.pages.map Page.fragments)

end PagedSearch.Document
