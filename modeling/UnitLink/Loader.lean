import UnitLink.ClassUnit
import UnitLink.Failure
/-! Metadata loaders, which supply the classes that no source declares. -/
namespace UnitLink

inductive LoadAnswer where
  | found (c : ClassUnit)
  | refused (fault : LookupFault)
  /-- The loader ends abnormally and takes the asking task with it. -/
  | crashed (message : String)
  deriving DecidableEq, Repr

/-- A loader works on a store that it has in common with the sources of a job; it may look
at the store and change it. -/
structure Loader (τ : Type) where
  load : ClassName → τ → LoadAnswer × τ
  /-- How many classes there are to load at most; a search of supertypes goes no deeper. -/
  size : Nat

/-- A loader whose answer to a name never changes. -/
def Loader.fixed {τ : Type} (load : ClassName → LoadAnswer) (size : Nat) : Loader τ :=
  ⟨fun name common => (load name, common), size⟩

/-- Classes held in memory under their names, in the order in which the names came. -/
structure ClassLibrary where
  classes : List ClassUnit
  deriving DecidableEq, Repr

namespace ClassLibrary

def empty : ClassLibrary := ⟨[]⟩

def find? (l : ClassLibrary) (name : ClassName) : Option ClassUnit :=
  l.classes.find? fun c => c.name == name

/-- Adds a class. One of the same name is replaced where it stands, and is the first
part of the answer. -/
def insert (l : ClassLibrary) (c : ClassUnit) : Option ClassUnit × ClassLibrary :=
  match l.find? c.name with
  | some old => (some old, ⟨l.classes.map fun d => if d.name = c.name then c else d⟩)
  | none => (none, ⟨l.classes ++ [c]⟩)

def load (l : ClassLibrary) (name : ClassName) : LoadAnswer :=
  match l.find? name with
  | some c => .found c
  | none => .refused (.notFound name)

def loader {τ : Type} (l : ClassLibrary) : Loader τ := .fixed l.load l.classes.length

end ClassLibrary
end UnitLink
