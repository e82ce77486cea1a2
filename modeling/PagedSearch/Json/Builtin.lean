/-
  PagedSearch.Json.Builtin

  The library for JSON that the programs run with: printers and readers are put
  together as the shapes are.
-/
import PagedSearch.Json.Library
import PagedSearch.Json.Printer
import PagedSearch.Json.Reader

namespace PagedSearch

namespace JsonShape

/-- The printer of a shape. -/
def printer : {α : Type} → JsonShape α → JsonPrinter α
  | _, .text => .text
  | _, .listOf item => .listOf item.printer
  | _, .record name field _ => .record name field.printer

/-- The reader of a shape. -/
def reader : {α : Type} → JsonShape α → JsonReader α
  | _, .text => .text
  | _, .listOf item => .listOf item.reader
  | _, .record name field default => .record name field.reader default

end JsonShape

/-- Writes over several lines and reads whole texts. -/
def JsonLibrary.builtin : JsonLibrary where
  write shape a := shape.printer 0 a
  read shape t := shape.reader.readAll t

end PagedSearch
