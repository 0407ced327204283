import UnitLink.FileTree
import UnitLink.Source.Common
/-! Sources in files. Output goes to a temporary file in the destination's directory, which
is renamed to the destination when the source is finalized with output. The tree of files
is common to all sources of a job, so a file that one has put in place is read by those
that come after it. -/
namespace UnitLink

structure FileStore where
  tree : FileTree
  input : String
  output : String
  /-- What the temporary file holds. -/
  staged : Option ByteArray := none

namespace FileStore

/-- A directory can be opened, but not read. -/
def openInput (f : FileStore) : Except Failure Stream :=
  match f.tree.find f.input with
  | .ok (.file bytes) => .ok (.ofBytes bytes.toList)
  | .ok .directory => .ok ⟨[], some .isDirectory⟩
  | .error fault => .error ((Failure.system fault).within (.openingFile f.input))

def createOutput (f : FileStore) : Except Failure Unit × FileStore :=
  let directory := Path.directory f.output
  match f.tree.checkTemporary directory with
  | .ok () => (.ok (), { f with staged := some .empty })
  | .error fault =>
    (.error ((Failure.ofCause (.temporaryFile fault)).within (.creatingFileIn directory)), f)

/-- Without a temporary file there is nothing to rename. -/
def finalize (produced : Bool) (f : FileStore) : Except Failure Unit × FileStore :=
  match produced, f.staged with
  | true, some bytes =>
    let f := { f with staged := none }
    match f.tree.destination f.output with
    | .ok place => (.ok (), { f with tree := f.tree.put place bytes })
    | .error fault => (.error ((Failure.system fault).within (.writingFile f.output)), f)
  | _, _ => (.ok (), f)

def backend : Backend FileStore where
  openInput f := (f.openInput, f)
  createOutput := createOutput
  write bytes f := (.ok (), { f with staged := f.staged.map (· ++ bytes) })
  flush f := (.ok (), f)
  finalize := finalize
  cleanup f := { f with staged := none }

instance : CommonStore FileStore FileTree := ⟨FileStore.tree, fun tree f => { f with tree }⟩

end FileStore

/-- A source that reads a file and writes to another, or over the first. -/
def Source.ofFile (tree : FileTree) (input : String) (output : Option String) :
    Source FileStore :=
  { name := input
    backend := FileStore.backend
    store := { tree, input, output := output.getD input } }

end UnitLink
