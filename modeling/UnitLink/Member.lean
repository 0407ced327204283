import UnitLink.ClassName
import UnitLink.Modifiers
import UnitLink.Signature
/-! Methods and fields as some class declares them. -/
namespace UnitLink

structure Member (kind : MemberKind) where
  owner : ClassName
  name : String
  descriptor : String
  modifiers : Modifiers
  deriving DecidableEq, Repr

inductive MemberFault where
  | badSignature (fault : SignatureFault)
  | otherOwner (signature : String) (owner : ClassName)
  deriving DecidableEq, Repr

def MemberFault.chain : MemberFault → List String
  | badSignature fault => fault.chain
  | otherOwner signature owner =>
    [s!"signature `{signature}` names a different owner than `{owner}`"]

namespace Member

variable {kind : MemberKind}

/-- A qualified signature has to name the owner, in either spelling. -/
def parse (owner : ClassName) (signature : String) (modifiers : Modifiers) :
    Except MemberFault (Member kind) :=
  match Signature.parse kind signature with
  | .error fault => .error (.badSignature fault)
  | .ok parsed =>
    if parsed.owner.all fun written => ClassName.ofString written == owner then
      .ok ⟨owner, parsed.name, parsed.descriptor, modifiers⟩
    else .error (.otherOwner signature owner)

/-- The unqualified signature. -/
def signature (m : Member kind) : String := kind.signature m.name m.descriptor

/-- The qualified signature. -/
def text (m : Member kind) : String := m.owner.text ++ "/" ++ m.signature

def isPublic (m : Member kind) : Bool := m.modifiers.has .isPublic

def isStatic (m : Member kind) : Bool := m.modifiers.has .isStatic

end Member
end UnitLink
