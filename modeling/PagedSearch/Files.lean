/-
  PagedSearch.Files

  A tree of files, as the programs see it: names, folders, bytes. A location
  is the list of names that leads from the outermost folder to a file or
  folder; the folder around the outermost one is that folder itself. A path
  starts there if a slash stands in front, else in the folder the programs
  work in.
-/
import PagedSearch.Files.Path

namespace PagedSearch

/-- The names that lead from the outermost folder to a file or folder. -/
abbrev Location := List Text

/-- Where a part of a path leads from a folder. -/
def enter (l : Location) (part : Text) : Location :=
  if part.isEmpty || part == Path.hereMark then l
  else if part == Path.aboveMark then l.dropLast
  else l ++ [part]

/-- Files with their content, and folders; a folder with something in it exists without being
    listed. -/
structure FileTree where
  files : List (Location × ByteArray) := []
  folders : List Location := []
  /-- The folder that the programs work in. -/
  here : Location := []
deriving Inhabited

/-- Why a file cannot be read or written. -/
inductive FileFault where
  /-- There is no such file, or no folder to put it into. -/
  | missing
  /-- A folder where a file is asked for. -/
  | isFolder
  /-- A file where a folder is asked for. -/
  | notFolder
  /-- A name of more than 255 bytes. -/
  | nameTooLong
  /-- A path with a null character. -/
  | nullInPath
  /-- Bytes that are no text in UTF-8. -/
  | notText
deriving DecidableEq, Repr

/-- The message that a user is shown. -/
def FileFault.message : FileFault → String
  | .missing => "No such file or directory (os error 2)"
  | .isFolder => "Is a directory (os error 21)"
  | .notFolder => "Not a directory (os error 20)"
  | .nameTooLong => "File name too long (os error 36)"
  | .nullInPath => "file name contained an unexpected NUL byte"
  | .notText => "stream did not contain valid UTF-8"

namespace FileTree

/-! ## Looking up -/

/-- The content of the file at a location. -/
def file? (tree : FileTree) (l : Location) : Option ByteArray :=
  (tree.files.find? (·.1 == l)).map Prod.snd

/-- True of the locations of folders. -/
def isFolder (tree : FileTree) (l : Location) : Bool :=
  l.isPrefixOf tree.here || tree.folders.any (l.isPrefixOf ·) ||
    tree.files.any fun (place, _) => l.isPrefixOf place && l != place

/-- The longest name in bytes. -/
def maxNameBytes : Nat := 255

/-- The longest path in bytes. -/
def maxPathBytes : Nat := 4095

/-- Follows the parts of a path. The location that is reached need not exist, all before it are
    folders. -/
def follow (tree : FileTree) (start : Location) : List Text → Except FileFault Location
  | [] => .ok start
  | part :: rest =>
    if (tree.file? start).isSome then .error .notFolder
    else if !tree.isFolder start then .error .missing
    else if maxNameBytes < byteCount part then .error .nameTooLong
    else tree.follow (enter start part) rest

/-- What is wrong with a path before it is followed. -/
def refusal? (path : Path) : Option FileFault :=
  if path.contains '\x00' then some .nullInPath
  else if path.isEmpty then some .missing
  else if maxPathBytes < byteCount path then some .nameTooLong
  else none

/-- The folder that a path starts from. -/
def startOf (tree : FileTree) (path : Path) : Location :=
  if path.head? = some '/' then [] else tree.here

/-- The location that a path leads to. -/
def locate (tree : FileTree) (path : Path) : Except FileFault Location :=
  match refusal? path with
  | some e => .error e
  | none => tree.follow (tree.startOf path) path.parts

/-- Reads the bytes of a file. -/
def read (tree : FileTree) (path : Path) : Except FileFault ByteArray :=
  match tree.locate path with
  | .error e => .error e
  | .ok l =>
    match tree.file? l with
    | some content => .ok content
    | none => if tree.isFolder l then .error .isFolder else .error .missing

/-- Reads the text of a file. -/
def readText (tree : FileTree) (path : Path) : Except FileFault Text :=
  match tree.read path with
  | .error e => .error e
  | .ok content =>
    match String.fromUTF8? content with
    | some s => .ok s.toList
    | none => .error .notText

/-- True when a path leads to a file or folder. -/
def holds (tree : FileTree) (path : Path) : Bool :=
  match tree.locate path with
  | .error _ => false
  | .ok l => (tree.file? l).isSome || tree.isFolder l

/-! ## Changing -/

/-- Puts a file at a location. -/
def put (tree : FileTree) (l : Location) (content : ByteArray) : FileTree :=
  if (tree.file? l).isSome then
    { tree with files := tree.files.map fun (place, old) =>
        if place == l then (place, content) else (place, old) }
  else { tree with files := tree.files ++ [(l, content)] }

/-- The location of the file that a path asks to be written. -/
def locateTarget (tree : FileTree) (path : Path) : Except FileFault Location :=
  match refusal? path with
  | some e => .error e
  | none =>
    match path.parts.reverse.dropWhile List.isEmpty with
    | [] => .error .isFolder
    | name :: before =>
      if name == Path.hereMark || name == Path.aboveMark then
        match tree.follow (tree.startOf path) (path.parts ++ [[]]) with
        | .error e => .error e
        | .ok _ => .error .isFolder
      else
        match tree.follow (tree.startOf path) (before.reverse ++ [[]]) with
        | .error e => .error e
        | .ok folder =>
          if path.getLast? = some '/' then .error .isFolder
          else if maxNameBytes < byteCount name then .error .nameTooLong
          else if tree.isFolder (folder ++ [name]) then .error .isFolder
          else .ok (folder ++ [name])

/-- Writes a text to a file, which need not exist before. -/
def writeText (tree : FileTree) (path : Path) (t : Text) : Except FileFault FileTree :=
  match tree.locateTarget path with
  | .error e => .error e
  | .ok l => .ok (tree.put l (String.ofList t).toUTF8)

/-- Makes the folders of a path that do not exist, as far as no file is in the way. -/
def makeFolders (tree : FileTree) (path : Path) : FileTree :=
  let rec go (start : Location) : List Text → Location
    | [] => start
    | part :: rest =>
      if (tree.file? start).isSome then start.dropLast
      else go (enter start part) rest
  match refusal? path with
  | some _ => tree
  | none =>
    let l := go (tree.startOf path) path.parts
    if (tree.file? l).isSome then tree else { tree with folders := tree.folders ++ [l] }

/-- The files of a tree that another one does not hold, or holds with another content. -/
def changedSince (tree before : FileTree) : List (Location × ByteArray) :=
  tree.files.filter fun (l, content) => before.file? l != some content

end FileTree

end PagedSearch
