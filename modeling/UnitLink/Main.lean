import UnitLink.Program
/-! The command line program. The files that the arguments name are read into a tree, the
linker runs on it, and the files that it changed are written back. -/
namespace UnitLink.Main

/-- The path that leads to a place. -/
def pathOf : Place → String
  | [] => "."
  | "/" :: names => "/" ++ "/".intercalate names
  | names => "/".intercalate names

/-- The places on the way to a path, the last of them its own. -/
def placesOf (path : String) : List Place :=
  let p := Path.ofString path
  let start := FileTree.origin p
  (p.names.foldl (fun places name =>
    FileTree.follow (places.head?.getD start) name :: places) []).reverse

abbrev Nodes := List (Place × FileNode)

/-- What is found at a place, if anything. -/
def readNode (place : Place) : IO Nodes := do
  let path := (← IO.currentDir) / pathOf place
  if ← path.isDir then return [(place, .directory)]
  else if ← path.pathExists then return [(place, .file (← IO.FS.readBinFile path))]
  else return []

def readPath (path : String) : IO Nodes := do
  return (← (placesOf path).mapM readNode).flatten

/-- The class files below a directory. -/
partial def readClasses (place : Place) : IO Nodes := do
  let path := (← IO.currentDir) / pathOf place
  if ← path.isDir then
    let below ← (← path.readDir).toList.mapM fun entry => readClasses (place ++ [entry.fileName])
    return (place, .directory) :: below.flatten
  else if path.extension == some "class" then readNode place
  else return []

def readTree (a : LinkArguments) : IO FileTree := do
  let named := a.inputs.flatMap fun (input, output) => input :: output.toList
  let files ← named.mapM readPath
  let classes ← a.classPath.mapM fun directory => do
    return (← readPath directory) ++ (← readClasses ((placesOf directory).getLast?.getD []))
  return ⟨(← IO.currentDir).toString, files.flatten ++ classes.flatten⟩

def writeChanges (after before : FileTree) : IO Unit :=
  (after.changes before).forM fun (place, bytes) => IO.FS.writeBinFile (pathOf place) bytes

end UnitLink.Main

open UnitLink in
def main (arguments : List String) : IO UInt32 := do
  let tree ← match Arguments.parse arguments with
    | .ok (.link a) => Main.readTree a
    | _ => pure ⟨"", []⟩
  let outcome := Program.run arguments tree fun _ => ""
  Main.writeChanges outcome.tree tree
  outcome.stdout.forM IO.println
  IO.eprint outcome.stderr
  return UInt32.ofNat outcome.status
