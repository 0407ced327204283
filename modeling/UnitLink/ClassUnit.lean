import UnitLink.Member
/-! Class-like units: a header and the declared methods and fields. A member is found by
its unqualified signature, and the first one declared under a signature is the one. -/
namespace UnitLink

structure ClassHeader where
  name : ClassName
  modifiers : Modifiers
  superclass : Option ClassName
  interfaces : List ClassName
  deriving DecidableEq, Repr

structure ClassUnit extends ClassHeader where
  methods : List (Member .method)
  fields : List (Member .field)
  deriving DecidableEq, Repr

namespace ClassUnit

def isInterface (c : ClassUnit) : Bool := c.modifiers.has .isInterface

/-- Where members are inherited from: the superclass, then the interfaces. -/
def supertypes (c : ClassUnit) : List ClassName := c.superclass.toList ++ c.interfaces

def members (c : ClassUnit) : (kind : MemberKind) → List (Member kind)
  | .method => c.methods
  | .field => c.fields

def find? (c : ClassUnit) (kind : MemberKind) (signature : String) : Option (Member kind) :=
  (c.members kind).find? fun m => m.signature == signature

/-- A later public declaration does not stand in for an earlier one that is not. -/
def findPublic? (c : ClassUnit) (kind : MemberKind) (signature : String) :
    Option (Member kind) :=
  (c.find? kind signature).filter Member.isPublic

end ClassUnit
end UnitLink
