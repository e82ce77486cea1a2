/-
  PagedSearch.Json.Library

  What is asked of a library for JSON: it writes and reads values of a shape.
  Strings, lists and records with one field are all that documents are made
  of.
-/
import PagedSearch.Json.Fault

namespace PagedSearch

/-- How values are laid out in JSON. -/
inductive JsonShape : Type → Type 1 where
  | text : JsonShape Text
  | listOf {α : Type} (item : JsonShape α) : JsonShape (List α)
  /-- A record with one named field, which has its default where it is left out. -/
  | record {α : Type} (name : Text) (field : JsonShape α) (default : α) : JsonShape α

/-- Writes and reads JSON of any shape. -/
structure JsonLibrary where
  write : {α : Type} → JsonShape α → α → Text
  read : {α : Type} → JsonShape α → Text → Except JsonFault α

end PagedSearch
