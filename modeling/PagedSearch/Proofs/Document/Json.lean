/-
  PagedSearch.Proofs.Document.Json

  Documents survive JSON. All that is asked of a library is that it writes a
  text of the value that documents have as JSON, and that it reads every text of
  a value that is taken for a document. So a document is read back from its
  JSON, and from a file that it was saved to by a path for JSON
  (`json_survives`).
-/
import PagedSearch.Document.Storage
import PagedSearch.Proofs.Files
import PagedSearch.Proofs.Json.Printer
import PagedSearch.Proofs.Json.Reader

namespace PagedSearch

namespace Document

theorem ofFragments_fragments (d : Document) : ofFragments (d.pages.map Page.fragments) = d := by
  rw [ofFragments, List.map_map]
  exact congrArg Document.mk (List.map_id d.pages)

section

variable {json : JsonLibrary} {d : Document} {tree : FileTree} {path : Path} {l : Location}

/-- A document that is saved as JSON where a file can be put is loaded again. -/
theorem exists_save_load (h_text : ofJson json (d.toJson json) = .ok d)
    (h_json : path.isJson = true) (h : tree.locateTarget path = .ok l) :
    ∃ tree', d.save json tree path = .ok tree' ∧ load json tree' path = .ok d := by
  have h_write : tree.writeText path (d.toJson json) =
      .ok (tree.put l (String.ofList (d.toJson json)).toUTF8) := by
    rw [FileTree.writeText, h]
  have h_read := (FileTree.writeText_stores h_write).1
  refine ⟨tree.put l (String.ofList (d.toJson json)).toUTF8, ?_, ?_⟩
  · rw [save, written, if_pos h_json, h_write]
    rfl
  · rw [load, h_read]
    show ofWritten json path (d.toJson json) = _
    rw [ofWritten, if_pos h_json, h_text]
    rfl

end

end Document

/-- With a library that writes a text of the value that a document has as JSON, and that reads the
    texts of what is taken for a document, every document is read back from its JSON. Saved by a
    path that ends in `json`, in letters of either case, it is the document that is loaded from
    there, wherever a file can be written. -/
theorem json_survives (json : JsonLibrary)
    (h_write : ∀ pages, JsonText (Document.shape.value pages) (json.write Document.shape pages))
    (h_read : ∀ v pages t, Document.shape.Takes v pages → JsonText v t →
      json.read Document.shape t = .ok pages)
    (d : Document) :
    Document.ofJson json (d.toJson json) = .ok d ∧
    ∀ (tree : FileTree) (path : Path) (extension : Text) (l : Location),
      path.extension? = some extension → lowerAscii extension = "json".toList →
      tree.locateTarget path = .ok l →
        ∃ tree', d.save json tree path = .ok tree' ∧ Document.load json tree' path = .ok d := by
  have h_text : Document.ofJson json (d.toJson json) = .ok d := by
    rw [Document.ofJson, Document.toJson,
      h_read _ _ _ (Document.shape.takes_value _) (h_write (d.pages.map Page.fragments))]
    exact congrArg Except.ok d.ofFragments_fragments
  refine ⟨h_text, ?_⟩
  intro tree path extension l h_extension h_json h_target
  have h_path : path.isJson = true := by
    rw [Path.isJson, h_extension, Option.any_some, h_json]
    rfl
  exact Document.exists_save_load h_text h_path h_target

/-- With the builtin library: a page without fragments, an empty fragment, and text with quotation
    marks, backslashes, control characters and a character beyond the basic plane, in a folder that
    is there. -/
theorem json_survives_escaped :
    let d : Document := .ofFragments [[], ["".toList, "a \"\\/\x01\n".toList], ["𝄞\x7f".toList]]
    ∃ tree', d.save .builtin { folders := [["docs".toList]] } "docs/saved.JsOn".toList =
        .ok tree' ∧
      Document.load .builtin tree' "docs/saved.JsOn".toList = .ok d :=
  (json_survives .builtin (jsonText_write Document.shape) (fun _ _ _ => read_jsonText) _).2 _ _
    "JsOn".toList _ (by decide) (by decide) (by rfl)

end PagedSearch
