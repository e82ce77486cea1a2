/-
  PagedSearch.Proofs.CommandLine.Replace

  Replacing in a plain text from the command line. The text is cut into pages
  and words, the matches are replaced from the last to the first, and the
  pieces are joined again: what is written is the text with the listed matches
  replaced, and nothing else is changed (`replace_edits`). A pattern that
  cannot be read writes nothing.
-/
import Mathlib
import PagedSearch.CommandLine
import PagedSearch.Json.Builtin
import PagedSearch.Proofs.CommandLine.Search
import PagedSearch.Proofs.Document.PlainText
import PagedSearch.Proofs.Files
import PagedSearch.Proofs.Session.Replacement

namespace PagedSearch

/-! ## Sessions -/

namespace Session

/-- The matches that a session replaces are those of its list. -/
theorem replaceAll_replaced (s : Session) (d : Document) (replacement : Text) :
    ∃ after d', s.replaceAll d replacement = (after, d', (s.query.listed d).length) ∧
      Replaced replacement d (s.query.listed d) d' := by
  obtain ⟨d', h_run, h_replaced⟩ := replaceMatches_replaced replacement
    (fun _ h_m => Query.within_of_mem_listed h_m) ((s.query.listed_pairwise d).imp And.right)
  refine ⟨{ s.findAll d .never with results := .empty, selection := none }, d', ?_, h_replaced⟩
  rw [replaceAll, findAll_listed, h_run]

theorem ofPattern?_ok {settings : Settings} {pattern : Text} {chain : Chain}
    (h : Chain.compile settings pattern = .ok chain) :
    Session.ofPattern? settings pattern = .ok ((Session.new settings).withQuery pattern) := by
  rw [Session.ofPattern?, Session.withQuery, Session.new, Query.compile, h]

theorem ofPattern?_error {settings : Settings} {pattern : Text} {e : PatternError}
    (h : Chain.compile settings pattern = .error e) :
    Session.ofPattern? settings pattern = .error e := by
  rw [Session.ofPattern?, Session.withQuery, Session.new, Query.compile, h]

end Session

/-! ## Documents -/

section

variable {json : JsonLibrary} {files : FileTree} {path : Path} {t : Text}

theorem loadDocument_plain (h_text : files.readText path = .ok t) (h_plain : path.isJson = false) :
    loadDocument json files path = .ok (.ofPlainText t) := by
  have h_load : Document.load json files path = .ok (.ofPlainText t) := by
    rw [Document.load, h_text]
    show Document.ofWritten json path t = _
    rw [Document.ofWritten, h_plain]
    rfl
  rw [loadDocument, h_load]
  rfl

theorem save_plain (d : Document) (files : FileTree) (h_plain : path.isJson = false) :
    d.save json files path = (files.writeText path d.toPlainText).mapError .file := by
  rw [Document.save, Document.written, h_plain]
  rfl

end

/-! ## Runs -/

section

variable {parse : List Text → Except UsageError Action} {json : JsonLibrary} {e : Environment}
  {files : FileTree} {arguments : List Text} {action : Action}

theorem CommandLine.run_of_ok {run : Run} (h : parse arguments = .ok action)
    (h_perform : perform json e files action = .ok run) :
    CommandLine.run parse json e files arguments = run := by
  simp only [CommandLine.run, h, h_perform]

theorem CommandLine.run_of_error {f : Failure} (h : parse arguments = .ok action)
    (h_perform : perform json e files action = .error f) :
    CommandLine.run parse json e files arguments = .failed files f := by
  simp only [CommandLine.run, h, h_perform]

end

section

variable {json : JsonLibrary} {e : Environment} {files : FileTree} {document : Path}
  {pattern replacement t : Text} {flags : SearchFlags}

theorem runReplace_error {d : Document} {error : PatternError} (output : Option Path)
    (h_load : loadDocument json files document = .ok d)
    (h : Chain.compile (flags.appliedTo (configuredSettings e files)) pattern = .error error) :
    runReplace json e files document pattern replacement output flags =
      .error (.ofPatternError pattern error) := by
  rw [runReplace, h_load]
  show Except.bind (Except.mapError _ _) _ = _
  rw [Session.ofPattern?_error h]
  rfl

theorem runReplace_ok {d d' : Document} {session after : Session} {count : Nat}
    (output : Option Path) (h_load : loadDocument json files document = .ok d)
    (h_session : Session.ofPattern? (flags.appliedTo (configuredSettings e files)) pattern =
      .ok session)
    (h_replace : session.replaceAll d replacement = (after, d', count)) :
    runReplace json e files document pattern replacement output flags =
      ((d'.save json files (output.getD document)).mapError
        (.ofDocumentError ("Failed to write ".toList ++ output.getD document))).map fun files' =>
          { printed := printedLine
              s!"Replaced {count} occurrence(s) in {String.ofList (output.getD document)}"
            files := files' } := by
  rw [runReplace, h_load]
  simp only [bind, Except.bind, h_session, Except.mapError, h_replace]
  cases d'.save json files (output.getD document) with
  | error failure => rfl
  | ok files' => rfl

end

/-- A replacement from the command line in a plain text, whatever parser reads the arguments and
    whatever library reads JSON. A pattern that cannot be read is reported, and no file is written.
    Otherwise the text with exactly the listed matches replaced is written to the target, where it
    is read again, and the count is that of the matches; if the target cannot be written, that is
    reported. -/
theorem replace_edits (parse : List Text → Except UsageError Action) (json : JsonLibrary)
    (e : Environment) (files : FileTree) (arguments : List Text) (document : Path)
    (pattern replacement t : Text) (output : Option Path) (flags : SearchFlags)
    (h_arguments : parse arguments = .ok (.replace document pattern replacement output flags))
    (h_text : files.readText document = .ok t) (h_plain : document.isJson = false)
    (h_output : ∀ path, output = some path → path.isJson = false) :
    let settings := flags.appliedTo (configuredSettings e files)
    let target := output.getD document
    let listed :=
      (((Session.new settings).withQuery pattern).findAll (.ofPlainText t) .never).results.listed
    let run := CommandLine.run parse json e files arguments
    (∀ error, Chain.compile settings pattern = .error error →
      run = .failed files (.ofPatternError pattern error)) ∧
    ∀ chain, Chain.compile settings pattern = .ok chain →
      ∃ t', (∀ text, Edited replacement listed t text ↔ text = t') ∧
        match files.writeText target t' with
        | .ok files' =>
          files'.readText target = .ok t' ∧ run = {
            printed := printedLine
              s!"Replaced {listed.length} occurrence(s) in {String.ofList target}"
            files := files' }
        | .error fault =>
          run = .failed files (.ofDocumentError ("Failed to write ".toList ++ target) (.file fault))
    := by
  intro settings target listed run
  have h_load := @loadDocument_plain json _ _ _ h_text h_plain
  have h_target : target.isJson = false := by
    cases output with
    | none => exact h_plain
    | some path => exact h_output path rfl
  constructor
  · intro error h_error
    exact CommandLine.run_of_error h_arguments (runReplace_error output h_load h_error)
  · intro chain h_chain
    -- the run as a replacement in the document of the text
    have h_listed : listed = ((Session.new settings).withQuery pattern).query.listed _ :=
      Session.findAll_listed _ _
    obtain ⟨after, d', h_replace, h_replaced⟩ :=
      ((Session.new settings).withQuery pattern).replaceAll_replaced (.ofPlainText t) replacement
    have h_edited := h_replaced.edited fun m h_m => Query.within_of_mem_listed h_m
    have h_perform := runReplace_ok output h_load (Session.ofPattern?_ok h_chain) h_replace
    rw [← h_listed] at h_edited h_perform
    rw [save_plain d' files h_target] at h_perform
    refine ⟨d'.toPlainText, fun text => ⟨fun h => h.unique h_edited, ?_⟩, ?_⟩
    · rintro rfl
      exact h_edited
    · change _ = (Except.mapError _ (Except.mapError _ (files.writeText target _))).map _ at h_perform
      cases h_write : files.writeText target d'.toPlainText with
      | error fault =>
        rw [h_write] at h_perform
        exact CommandLine.run_of_error h_arguments h_perform
      | ok files' =>
        rw [h_write] at h_perform
        exact ⟨(FileTree.writeText_stores h_write).1, CommandLine.run_of_ok h_arguments h_perform⟩

/-- A folder with one text file in it. -/
def FileTree.single (name t : Text) : FileTree :=
  { files := [([name], (String.ofList t).toUTF8)] }

/-- A text of three pages, of which the second is empty, with a match that holds a hyphen and blanks
    in several places: the text that is written is the edited one. -/
theorem replace_edits_pages :
    Edited "Z".toList [⟨0, ⟨0, 0⟩, ⟨0, 1⟩⟩, ⟨0, ⟨1, 1⟩, ⟨1, 2⟩⟩, ⟨2, ⟨1, 0⟩, ⟨1, 2⟩⟩]
        "ab  cab\x0c\x0cx a-b \n".toList "Z  cZ\x0c\x0cx Z \n".toList ∧
      CommandLine.run Action.ofArguments .builtin {}
        (.single "a.txt".toList "ab  cab\x0c\x0cx a-b \n".toList)
        ["-replace".toList, "a.txt".toList, "ab".toList, "Z".toList, "--hyphen-tolerant".toList] = {
          printed := "Replaced 3 occurrence(s) in a.txt\n".toList
          files := .single "a.txt".toList "Z  cZ\x0c\x0cx Z \n".toList } := by
  have h_arguments : Action.ofArguments ["-replace".toList, "a.txt".toList, "ab".toList,
      "Z".toList, "--hyphen-tolerant".toList] =
      .ok (.replace "a.txt".toList "ab".toList "Z".toList none { hyphenTolerant := true }) := rfl
  have h_text : (FileTree.single "a.txt".toList "ab  cab\x0c\x0cx a-b \n".toList).readText
      "a.txt".toList = .ok "ab  cab\x0c\x0cx a-b \n".toList := by cbv
  have h_written : (FileTree.single "a.txt".toList "Z  cZ\x0c\x0cx Z \n".toList).readText
      "a.txt".toList = .ok "Z  cZ\x0c\x0cx Z \n".toList := by cbv
  have h_settings : SearchFlags.appliedTo { hyphenTolerant := true } (configuredSettings {}
      (.single "a.txt".toList "ab  cab\x0c\x0cx a-b \n".toList)) =
        { hyphenTolerant := true } := by cbv
  have h_compile : Chain.compile { hyphenTolerant := true } "ab".toList =
      .ok ⟨[.char 'a', .char 'b'], [0, 0], rfl, rfl, by cbv⟩ := by cbv
  have h_listed : (((Session.new { hyphenTolerant := true }).withQuery "ab".toList).findAll
      (.ofPlainText "ab  cab\x0c\x0cx a-b \n".toList) .never).results.listed =
        [⟨0, ⟨0, 0⟩, ⟨0, 1⟩⟩, ⟨0, ⟨1, 1⟩, ⟨1, 2⟩⟩, ⟨2, ⟨1, 0⟩, ⟨1, 2⟩⟩] := by cbv
  have h_run : CommandLine.run Action.ofArguments .builtin {}
      (.single "a.txt".toList "ab  cab\x0c\x0cx a-b \n".toList)
      ["-replace".toList, "a.txt".toList, "ab".toList, "Z".toList, "--hyphen-tolerant".toList] = {
        printed := "Replaced 3 occurrence(s) in a.txt\n".toList
        files := .single "a.txt".toList "Z  cZ\x0c\x0cx Z \n".toList } := by
    exact CommandLine.run_of_ok h_arguments (by cbv)
  obtain ⟨text, h_edited, h_target⟩ := (replace_edits Action.ofArguments .builtin {} _ _
    "a.txt".toList "ab".toList "Z".toList _ none { hyphenTolerant := true } h_arguments h_text
    (by decide) (by simp)).2 _
    (h_settings ▸ h_compile)
  rw [h_settings, h_listed] at h_edited
  rw [h_run] at h_target
  refine ⟨(h_edited _).2 ?_, h_run⟩
  cases h_write : FileTree.writeText _ _ text with
  | error fault =>
    rw [h_write] at h_target
    exact absurd (congrArg Run.status h_target) Nat.zero_ne_one
  | ok files' =>
    -- the file that is written holds the edited text
    rw [h_write] at h_target
    obtain ⟨h_read, h_files⟩ := h_target
    obtain rfl := congrArg Run.files h_files
    exact Except.ok.inj (h_written.symm.trans h_read)

end PagedSearch
