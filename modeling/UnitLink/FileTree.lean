import UnitLink.Failure
/-! Trees of files, and paths into them.

A place is the list of names that leads to it from the working directory. Places above
the working directory begin with `..`, places below the root of all with `/`; of these
only the directories on the way are known. -/
namespace UnitLink

abbrev Place := List String

inductive FileNode where
  | file (bytes : ByteArray)
  | directory

structure FileTree where
  /-- The path of the working directory. -/
  location : String
  nodes : List (Place × FileNode)

/-- A path in names. `.` and empty names are left out, but a path that ends in one of
them leads to a directory only. -/
structure Path where
  isAbsolute : Bool
  names : List String
  /-- The last piece that is not empty, if there is one. -/
  last : Option String
  /-- Nothing stands after the last separator. -/
  endsInSeparator : Bool
  deriving DecidableEq, Repr

namespace Path

def ofString (path : String) : Path :=
  let pieces := (Text.pieces (· == '/') path.toList).map String.ofList
  { isAbsolute := path.toList.head? == some '/'
    names := pieces.filter fun name => name ≠ "" ∧ name ≠ "."
    last := (pieces.filter fun name => name ≠ "").getLast?
    endsInSeparator := pieces.getLast? == some "" }

/-- A path that ends in a separator or `.` can only be a directory's. -/
def endsInDirectory (p : Path) : Bool := p.endsInSeparator || p.last == some "."

/-- A path whose last piece is no name of its own: the root, or one that ends in `.` or
`..`. -/
def endsUnnamed (p : Path) : Bool :=
  match p.last with
  | none => true
  | some name => name == "." || name == ".."

/-- Drops separators and `.` names at the end, but not a whole path. -/
def trimPieces : List (List Char) → List (List Char)
  | [] => []
  | first :: rest =>
    first :: (rest.reverse.dropWhile fun piece => piece == [] || piece == ['.']).reverse

/-- The text of a path's directory; the working directory is `.`. -/
def directory (path : String) : String :=
  match trimPieces (Text.pieces (· == '/') path.toList) with
  | [] | [_] => "."
  | pieces =>
    match trimPieces pieces.dropLast with
    | [[]] => "/"
    | kept => String.ofList (['/'].intercalate kept)

/-- A relative path under a directory; an absolute one stands for itself. -/
def join (directory path : String) : String :=
  if path.toList.head? = some '/' ∨ directory = "" then path
  else if directory.toList.getLast? = some '/' then directory ++ path
  else directory ++ "/" ++ path

end Path

namespace FileTree

/-- Directories that are there whatever the tree holds. -/
def isOuter (place : Place) : Bool := place == ["/"] || place.all (· == "..")

def node? (t : FileTree) (place : Place) : Option FileNode :=
  if isOuter place then some .directory else t.nodes.lookup place

/-- The place that one name leads to. -/
def follow (place : Place) (name : String) : Place :=
  if name = ".." then
    if place = ["/"] then place
    else if isOuter place then place ++ [".."]
    else place.dropLast
  else place ++ [name]

/-- Only a directory can be gone into. -/
def enter (t : FileTree) (place : Place) : Except SystemFault Unit :=
  match t.node? place with
  | none => .error .notFound
  | some (.file _) => .error .notDirectory
  | some .directory => .ok ()

/-- Goes along names, each but the last of which has to lead to a directory. -/
def walk (t : FileTree) (place : Place) : List String → Except SystemFault Place
  | [] => .ok place
  | name :: names => do
    t.enter place
    if 255 < name.utf8ByteSize then throw .nameTooLong
    t.walk (follow place name) names

def origin (p : Path) : Place := if p.isAbsolute then ["/"] else []

/-- Checks that come before a path is looked at in the tree, and the fault of a path with a
NUL in it. -/
def checkPath (nulFault : SystemFault) (path : String) : Except SystemFault Unit :=
  if '\x00' ∈ path.toList then .error nulFault
  else if path = "" then .error .notFound
  else if 4096 ≤ path.utf8ByteSize then .error .nameTooLong
  else .ok ()

/-- What a path leads to. -/
def find (t : FileTree) (path : String) : Except SystemFault FileNode := do
  checkPath .nulInName path
  let p := Path.ofString path
  let place ← t.walk (origin p) p.names
  match t.node? place with
  | none => throw .notFound
  | some (.file bytes) => if p.endsInDirectory then throw .notDirectory else return .file bytes
  | some .directory => return .directory

def readFile? (t : FileTree) (path : String) : Option ByteArray :=
  match t.find path with
  | .ok (.file bytes) => some bytes
  | _ => none

/-- A name that a temporary file can have. All have as many bytes; which one it is, nobody
else knows. -/
def temporaryName : String := ".tmp000000"

/-- Whether a temporary file can be created in a directory. It goes by its whole path, from
the root of all on. -/
def checkTemporary (t : FileTree) (directory : String) : Except SystemFault Unit := do
  checkPath .nulInName (Path.join (Path.join t.location directory) temporaryName)
  match ← t.find directory with
  | .directory => return ()
  | .file _ => throw .notDirectory

/-- The place at which a file can be put under a path. A file takes the place of another,
but not of a directory; one that the path reaches without a name of its own is busy. -/
def destination (t : FileTree) (path : String) : Except SystemFault Place := do
  checkPath .invalidArgument path
  let p := Path.ofString path
  let place ← t.walk (origin p) p.names
  if p.endsUnnamed then
    t.enter place
    throw .busy
  if p.endsInSeparator then throw .notDirectory
  match t.node? place with
  | some .directory => throw .isDirectory
  | _ => return place

/-- Puts a file at a place, over the one that may be there. -/
def put (t : FileTree) (place : Place) (bytes : ByteArray) : FileTree :=
  if (t.nodes.lookup place).isSome then
    { t with
      nodes := t.nodes.map fun (p, node) => if p = place then (p, .file bytes) else (p, node) }
  else { t with nodes := t.nodes ++ [(place, .file bytes)] }

/-- A tree of files and empty directories, with the directories that they lie in. -/
def ofFiles (location : String) (files : List (String × ByteArray))
    (directories : List String) : FileTree :=
  let place path := (Path.ofString path).names
  let above (p : Place) := (List.range p.length).map fun n => (p.take n, FileNode.directory)
  ⟨location, files.map (fun (path, bytes) => (place path, FileNode.file bytes)) ++
    directories.map (fun path => (place path, FileNode.directory)) ++
    files.flatMap (fun (path, _) => above (place path)) ++
    directories.flatMap fun path => above (place path)⟩

/-- The files that are new or differ from an earlier tree's. -/
def changes (t earlier : FileTree) : List (Place × ByteArray) :=
  t.nodes.filterMap fun (place, node) =>
    match node, earlier.nodes.lookup place with
    | .directory, _ => none
    | .file bytes, some (.file old) => if old.data = bytes.data then none else some (place, bytes)
    | .file bytes, _ => some (place, bytes)

/-- The changes at and below the working directory, under their paths. -/
def changedSince (t earlier : FileTree) : List (String × ByteArray) :=
  (t.changes earlier).filterMap fun (place, bytes) =>
    if place.head? = some ".." ∨ place.head? = some "/" then none
    else some ("/".intercalate place, bytes)

end FileTree
end UnitLink
