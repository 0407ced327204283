import UnitLink.FileTree
import UnitLink.Loader
/-! The class path: a loader that finds class files under directories. The first directory
that has a file for a class is the one; whether the file is any good is seen after that. -/
namespace UnitLink

structure ClassPath where
  directories : List String

namespace ClassPath

/-- The first file for a class. -/
def file? (p : ClassPath) (name : ClassName) (tree : FileTree) : Option (String × ByteArray) :=
  p.directories.findSome? fun directory =>
    let path := Path.join directory (name.text ++ ".class")
    (tree.readFile? path).map fun bytes => (path, bytes)

def load (p : ClassPath) (name : ClassName) (tree : FileTree) : LoadAnswer :=
  match p.file? name tree with
  | none => .refused (.notFound name)
  | some (path, bytes) =>
    match ClassFile.parseNamed name bytes.toList with
    | .ok c => .found c
    | .error fault =>
      .refused (.unloadable (s!"Failed to load `{name}` from `{path}`" :: fault.chain))

/-- Loads from the tree as it is. A loaded class has the name asked for, and what is
written to the tree is text and no class file, so there are no more classes than files in
the tree at first. -/
def loader (p : ClassPath) (tree : FileTree) : Loader FileTree :=
  ⟨fun name tree => (p.load name tree, tree), tree.nodes.length⟩

end ClassPath
end UnitLink
