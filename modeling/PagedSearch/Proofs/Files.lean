/-
  PagedSearch.Proofs.Files

  Writing a file. The tree stores what is written: read by the same path, the
  file gives the text back, and no other file changes (`writeText_stores`).
  The path leads to the place that was written, for a file is never put where
  a folder is, so all folders on the way stay (`follow_put`).
-/
import PagedSearch.Files
import PagedSearch.Proofs.Text.Line

namespace PagedSearch

/-! ## Paths -/

theorem refusal?_eq_none {path : Path} (h : FileTree.refusal? path = none) : path ≠ [] := by
  rintro rfl
  exact absurd h (by decide)

/-- A path that does not end in a slash has no empty part at its end. -/
theorem Path.parts_eq_concat {path : Path} {name : Text} {before : List Text} (h_path : path ≠ [])
    (h_slash : path.getLast? ≠ some '/')
    (h : path.parts.reverse.dropWhile List.isEmpty = name :: before) :
    path.parts = before.reverse ++ [name] := by
  rw [← List.reverse_inj, List.reverse_append, List.reverse_reverse, List.reverse_singleton,
    List.singleton_append, ← h]
  cases h_parts : path.parts.reverse with
  | nil => rfl
  | cons last rest =>
    have h_last : (splitAtAll (· == '/') path).getLast? = some last := by
      show path.parts.getLast? = _
      rw [← List.head?_reverse, h_parts]
      rfl
    rw [List.dropWhile_cons_of_neg]
    intro h_empty
    rw [List.isEmpty_iff] at h_empty
    subst h_empty
    rcases eq_nil_or_of_getLast?_splitAtAll h_last with h_nil | ⟨c, h_c, h_eq⟩
    · exact h_path h_nil
    · rw [eq_of_beq h_eq] at h_c
      exact h_slash h_c

theorem enter_name {l : Location} {name : Text} (h_nil : name ≠ []) (h_here : name ≠ Path.hereMark)
    (h_above : name ≠ Path.aboveMark) : enter l name = l ++ [name] := by
  rw [enter, if_neg, if_neg]
  · rw [beq_iff_eq]
    exact h_above
  · rw [Bool.or_eq_true, List.isEmpty_iff, beq_iff_eq, not_or]
    exact ⟨h_nil, h_here⟩

namespace FileTree

section

variable {tree : FileTree} {l place start mid dest : Location} {content : ByteArray}

/-! ## What a tree holds -/

/-- A file with other content, if it stands at `l`. -/
def refilled (l : Location) (content : ByteArray) (file : Location × ByteArray) :
    Location × ByteArray :=
  (file.1, if file.1 == l then content else file.2)

theorem put_of_held (h : (tree.file? l).isSome = true) (content : ByteArray) :
    tree.put l content = { tree with files := tree.files.map (refilled l content) } := by
  rw [put, if_pos h]
  congr 2
  funext ⟨place, old⟩
  show (if place == l then (place, content) else (place, old)) =
    (place, if place == l then content else old)
  split
  · rfl
  · rfl

theorem put_of_not_held (h : ¬ (tree.file? l).isSome = true) (content : ByteArray) :
    tree.put l content = { tree with files := tree.files ++ [(l, content)] } := by
  rw [put, if_neg h]

@[simp] theorem put_here (tree : FileTree) (l : Location) (content : ByteArray) :
    (tree.put l content).here = tree.here := by
  rw [put]
  split
  · rfl
  · rfl

/-- After a file is put somewhere, the tree holds it there, and elsewhere what it held. -/
theorem file?_put (tree : FileTree) (l : Location) (content : ByteArray) (place : Location) :
    (tree.put l content).file? place = if place = l then some content else tree.file? place := by
  by_cases h_held : (tree.file? l).isSome = true
  · have h_file : (tree.put l content).file? place =
        (tree.files.find? (·.1 == place)).map fun x => if x.1 == l then content else x.2 := by
      rw [put_of_held h_held, file?, List.find?_map, Option.map_map]
      rfl
    rw [h_file]
    cases h_find : tree.files.find? (·.1 == place) with
    | none =>
      rw [file?, h_find, Option.map_none, Option.map_none, if_neg]
      rintro rfl
      rw [file?, h_find] at h_held
      exact absurd h_held (by decide)
    | some x =>
      have h_place := List.find?_some h_find
      obtain rfl : x.1 = place := beq_iff_eq.1 h_place
      rw [file?, h_find, Option.map_some, Option.map_some]
      by_cases h_l : x.1 = l
      · rw [if_pos h_l, if_pos (beq_iff_eq.2 h_l)]
      · rw [if_neg h_l, if_neg (mt beq_iff_eq.1 h_l)]
  · have h_file : (tree.put l content).file? place =
        (tree.file? place).or (([(l, content)].find? (·.1 == place)).map Prod.snd) := by
      rw [put_of_not_held h_held, file?, List.find?_append, Option.map_or]
      rfl
    rw [h_file]
    by_cases h_l : place = l
    · subst h_l
      rw [Option.not_isSome_iff_eq_none] at h_held
      rw [h_held, if_pos rfl, Option.none_or, List.find?_cons_of_pos]
      · rfl
      · exact beq_self_eq_true place
    · rw [if_neg h_l, List.find?_cons_of_neg]
      · exact Option.or_none
      · exact mt beq_iff_eq.1 (Ne.symm h_l)

/-- A folder stays a folder. -/
theorem isFolder_put (h : tree.isFolder place = true) (l : Location) (content : ByteArray) :
    (tree.put l content).isFolder place = true := by
  rw [isFolder, Bool.or_eq_true] at h
  -- the places of the files are those of before, and one more if need be
  by_cases h_held : (tree.file? l).isSome = true
  · rw [put_of_held h_held, isFolder, Bool.or_eq_true, List.any_map]
    exact h
  · rw [put_of_not_held h_held, isFolder, List.any_append, Bool.or_eq_true]
    exact h.imp_right fun h_any => by rw [h_any, Bool.true_or]

/-! ## The way to a file -/

/-- Following one part more. -/
theorem follow_cons {part : Text} {rest : List Text} :
    tree.follow start (part :: rest) = .ok dest ↔
      tree.file? start = none ∧ tree.isFolder start = true ∧ byteCount part ≤ maxNameBytes ∧
        tree.follow (enter start part) rest = .ok dest := by
  rw [follow]
  by_cases h_file : (tree.file? start).isSome = true
  · rw [if_pos h_file]
    refine iff_of_false (by simp) fun h => ?_
    rw [h.1] at h_file
    exact absurd h_file (by decide)
  · rw [if_neg h_file]
    rw [Option.not_isSome_iff_eq_none] at h_file
    by_cases h_folder : tree.isFolder start = true
    · rw [if_neg (by rw [h_folder]; decide)]
      by_cases h_part : maxNameBytes < byteCount part
      · rw [if_pos h_part]
        exact iff_of_false (by simp) fun h => absurd h_part (Nat.not_lt.2 h.2.2.1)
      · rw [if_neg h_part]
        exact ⟨fun h => ⟨h_file, h_folder, Nat.not_lt.1 h_part, h⟩, fun h => h.2.2.2⟩
    · rw [if_pos (by simpa using h_folder)]
      exact iff_of_false (by simp) fun h => h_folder h.2.1

theorem follow_append {parts parts' : List Text} :
    tree.follow start (parts ++ parts') = .ok dest ↔
      ∃ mid, tree.follow start parts = .ok mid ∧ tree.follow mid parts' = .ok dest := by
  induction parts generalizing start with
  | nil =>
    constructor
    · intro h
      exact ⟨start, rfl, h⟩
    · rintro ⟨mid, h_mid, h⟩
      obtain rfl := Except.ok.inj h_mid
      exact h
  | cons part parts ih =>
    rw [List.cons_append, follow_cons, ih]
    constructor
    · rintro ⟨h_file, h_folder, h_part, mid, h_mid, h⟩
      exact ⟨mid, follow_cons.2 ⟨h_file, h_folder, h_part, h_mid⟩, h⟩
    · rintro ⟨mid, h_mid, h⟩
      obtain ⟨h_file, h_folder, h_part, h_mid⟩ := follow_cons.1 h_mid
      exact ⟨h_file, h_folder, h_part, mid, h_mid, h⟩

/-- A file that is put where no folder is does not stand in the way. -/
theorem follow_put (h_folder : tree.isFolder l = false) {parts : List Text}
    (h : tree.follow start parts = .ok dest) :
    (tree.put l content).follow start parts = .ok dest := by
  induction parts generalizing start with
  | nil => exact h
  | cons part parts ih =>
    rw [follow_cons] at h ⊢
    obtain ⟨h_file, h_start, h_part, h_rest⟩ := h
    have h_ne : start ≠ l := by
      rintro rfl
      rw [h_start] at h_folder
      exact absurd h_folder (by decide)
    exact ⟨by rw [file?_put, if_neg h_ne, h_file], isFolder_put h_start l content, h_part,
      ih h_rest⟩

/-- A path names a file to be written: a folder that exists and, in it, a name that is no
    folder's. -/
structure Targets (tree : FileTree) (path : Path) (folder : Location) (name : Text) : Prop where
  refusal_eq : refusal? path = none
  parts_eq : ∃ before, path.parts = before ++ [name] ∧
    tree.follow (tree.startOf path) before = .ok folder
  noFile : tree.file? folder = none
  isFolder : tree.isFolder folder = true
  enter_eq : enter folder name = folder ++ [name]
  bytes_le : byteCount name ≤ maxNameBytes
  free : tree.isFolder (folder ++ [name]) = false

theorem exists_targets {path : Path} (h : tree.locateTarget path = .ok l) :
    ∃ folder name, l = folder ++ [name] ∧ tree.Targets path folder name := by
  rw [locateTarget] at h
  cases h_refusal : refusal? path with
  | some e =>
    rw [h_refusal] at h
    exact absurd h (by simp)
  | none =>
    rw [h_refusal] at h
    simp only at h
    split at h
    · exact absurd h (by simp)
    rename_i name before h_name
    split at h
    · -- the last name is one of the marks, and a folder is meant
      split at h
      · exact absurd h (by simp)
      · exact absurd h (by simp)
    rename_i h_marks
    split at h
    · exact absurd h (by simp)
    rename_i folder h_follow
    split at h
    · exact absurd h (by simp)
    rename_i h_slash
    split at h
    · exact absurd h (by simp)
    rename_i h_bytes
    split at h
    · exact absurd h (by simp)
    rename_i h_free
    rw [Bool.or_eq_true, beq_iff_eq, beq_iff_eq, not_or] at h_marks
    have h_nil : name ≠ [] := by
      have h_head := List.head?_dropWhile_not List.isEmpty path.parts.reverse
      rw [h_name] at h_head
      exact List.isEmpty_eq_false_iff.1 h_head
    obtain ⟨mid, h_before, h_last⟩ := follow_append.1 h_follow
    obtain ⟨h_file, h_folder, -, h_enter⟩ := follow_cons.1 h_last
    obtain rfl : mid = folder := Except.ok.inj h_enter
    exact ⟨mid, name, (Except.ok.inj h).symm, h_refusal, ⟨before.reverse,
      Path.parts_eq_concat (refusal?_eq_none h_refusal) h_slash h_name, h_before⟩, h_file, h_folder,
      enter_name h_nil h_marks.1 h_marks.2, Nat.not_lt.1 h_bytes, by simpa using h_free⟩

/-- The location of a file that is written is where its path leads afterwards. -/
theorem locate_put {path : Path} (h : tree.locateTarget path = .ok l) (content : ByteArray) :
    (tree.put l content).locate path = .ok l := by
  obtain ⟨folder, name, rfl, h_targets⟩ := exists_targets h
  obtain ⟨before, h_parts, h_before⟩ := h_targets.parts_eq
  have h_start : (tree.put (folder ++ [name]) content).startOf path = tree.startOf path := by
    rw [startOf, startOf, put_here]
  rw [locate, h_targets.refusal_eq, h_start, h_parts]
  apply follow_put h_targets.free
  rw [follow_append]
  refine ⟨folder, h_before, follow_cons.2 ⟨h_targets.noFile, h_targets.isFolder,
    h_targets.bytes_le, ?_⟩⟩
  rw [h_targets.enter_eq]
  rfl

/-! ## Writing and reading -/

/-- What is written to a file is read from it, and all other files stay as they are. -/
theorem writeText_stores {tree' : FileTree} {path : Path} {t : Text}
    (h : tree.writeText path t = .ok tree') :
    tree'.readText path = .ok t ∧ ∃ l, tree.locateTarget path = .ok l ∧
      ∀ place, place ≠ l → tree'.file? place = tree.file? place := by
  rw [writeText] at h
  cases h_target : tree.locateTarget path with
  | error e =>
    rw [h_target] at h
    exact absurd h (by simp)
  | ok l =>
    rw [h_target] at h
    obtain rfl := Except.ok.inj h
    have h_text : String.fromUTF8? (String.ofList t).toUTF8 = some (String.ofList t) :=
      dif_pos (String.ofList t).isValidUTF8
    refine ⟨?_, l, rfl, ?_⟩
    · rw [readText, read, locate_put h_target]
      simp only [file?_put, if_true, h_text, String.toList_ofList]
    · intro place h_place
      rw [file?_put, if_neg h_place]

end

end FileTree

end PagedSearch
