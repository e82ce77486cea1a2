/-
  PagedSearch.Text.Basic

  Text is a list of characters: offsets, lengths and cuts count characters,
  never bytes. Bytes count only where a file system or a short input does.
-/

namespace PagedSearch

/-- A text, character by character. -/
abbrev Text := List Char

/-- How many bytes a text has in UTF-8. -/
def byteCount (t : Text) : Nat := t.foldr (fun c n => c.utf8Size + n) 0

end PagedSearch
