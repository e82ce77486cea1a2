/-
  PagedSearch.Main

  The two programs, the console and the command line. They share one
  executable and are told apart by its name. The programs see of the disk
  what lies on the way to the paths that they are given; files that they
  change are written back.
-/
import PagedSearch.CommandLine
import PagedSearch.Console.Program
import PagedSearch.Json.Builtin

namespace PagedSearch.Main

/-! ## The disk -/

/-- The name of a location on the disk. -/
def diskName (l : Location) : String := "/" ++ String.ofList (joinWith ['/'] l)

/-- Adds to a tree what the disk holds on the way along the parts of a path. -/
def look (tree : FileTree) (l : Location) : List Text → IO FileTree
  | [] => return tree
  | part :: rest => do
    let l := enter l part
    match ← (IO.FS.readBinFile (diskName l)).toBaseIO with
    | .ok content => return tree.put l content
    | .error (.inappropriateType ..) => look { tree with folders := l :: tree.folders } l rest
    | .error _ => return tree

/-- Adds to a tree what the disk holds on the way to some paths. -/
def lookAt (tree : FileTree) (paths : List Path) : IO FileTree :=
  paths.foldlM (fun tree path => look tree (tree.startOf path) path.parts) tree

/-- Writes the files that were changed. -/
def writeBack (before after : FileTree) : IO Unit := do
  for (l, content) in after.changedSince before do
    IO.FS.createDirAll (diskName l.dropLast)
    IO.FS.writeBinFile (diskName l) content

/-- The tree that holds nothing but the working folder. -/
def workingTree : IO FileTree := do
  let folder := (← IO.currentDir).toString
  return { here := (Path.parts folder.toList).filter (!·.isEmpty) }

/-- What the process is told about its surroundings. -/
def surroundings : IO Environment := do
  return {
    configHome := (← IO.getEnv "XDG_CONFIG_HOME").map String.toList
    home := (← IO.getEnv "HOME").map String.toList }

/-! ## The programs -/

/-- Shows what a program leaves behind and writes its files. -/
def finish (before : FileTree) (run : Run) : IO UInt32 := do
  writeBack before run.files
  IO.print (String.ofList run.printed)
  IO.eprint (String.ofList run.complaint)
  return run.status.toUInt32

/-- Runs the command line. -/
def commandLine (arguments : List Text) : IO UInt32 := do
  let e ← surroundings
  let files ← lookAt (← workingTree) (e.commandLineConfig :: arguments)
  finish files (CommandLine.run Action.ofArguments .builtin e files arguments)

/-- The paths that a line makes the console write to. -/
def pathsOf (line : Text) : List Path :=
  match Command.ofLine line with
  | .ok (.save path) => [path]
  | _ => []

/-- Reads lines until one ends the console or the input does. -/
partial def converse (input : IO.FS.Stream) (c : Console) : IO Unit := do
  let line := ((← input.getLine.toBaseIO).toOption.getD "").toList
  if line.isEmpty then return
  let files ← lookAt c.desk.files (pathsOf line)
  let turn := { c with desk := { c.desk with files } }.read .builtin line
  writeBack files turn.console.desk.files
  IO.print (String.ofList turn.printed)
  if turn.goesOn then converse input turn.console

/-- Runs the console. -/
def console (arguments : List Text) : IO UInt32 := do
  let e ← surroundings
  let files ← lookAt (← workingTree) (e.consoleConfig :: arguments.take 1)
  match Start.ofArguments arguments with
  | .ok (.document path) =>
    match Console.openedAt .builtin e files path with
    | .ok (c, greeting) =>
      writeBack files c.desk.files
      IO.print (String.ofList greeting)
      converse (← IO.getStdin) c
      return 0
    | .error f => finish files (.failed files f)
  | _ => finish files (Console.run .builtin e files arguments [])

end PagedSearch.Main

/-- Runs the command line if the executable is named for it, else the console. -/
def main (arguments : List String) : IO UInt32 := do
  let arguments := arguments.map String.toList
  if (← IO.appPath).fileName == some "pagescan-cli" then PagedSearch.Main.commandLine arguments
  else PagedSearch.Main.console arguments
