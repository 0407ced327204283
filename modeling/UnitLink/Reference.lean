import UnitLink.ClassUnit
/-! Resolved references and the instructions that use them. -/
namespace UnitLink

/-- Instructions on members: four that invoke a method, two that read a field. -/
inductive Opcode : MemberKind → Type where
  | invokestatic : Opcode .method
  | invokevirtual : Opcode .method
  | invokespecial : Opcode .method
  | invokeinterface : Opcode .method
  | getstatic : Opcode .field
  | getfield : Opcode .field
  deriving DecidableEq, Repr

namespace Opcode

variable {kind : MemberKind}

def mnemonic : Opcode kind → String
  | invokestatic => "invokestatic"
  | invokevirtual => "invokevirtual"
  | invokespecial => "invokespecial"
  | invokeinterface => "invokeinterface"
  | getstatic => "getstatic"
  | getfield => "getfield"

def isStatic : Opcode kind → Bool
  | invokestatic | getstatic => true
  | _ => false

/-- The instruction for a static member. -/
def ofStatic : (kind : MemberKind) → Opcode kind
  | .method => invokestatic
  | .field => getstatic

/-- The instruction for a member that is reached through its owner. -/
def external (kind : MemberKind) (isStatic ownerIsInterface : Bool) : Opcode kind :=
  if isStatic then ofStatic kind
  else match kind with
    | .method => if ownerIsInterface then invokeinterface else invokevirtual
    | .field => getfield

/-- The instruction for a member of the referring class itself. A private instance method
is invoked directly. -/
def ownMember (kind : MemberKind) (modifiers : Modifiers) : Opcode kind :=
  if modifiers.has .isStatic then ofStatic kind
  else match kind with
    | .method => if modifiers.has .isPrivate then invokespecial else invokevirtual
    | .field => getfield

end Opcode

structure Reference (kind : MemberKind) where
  owner : ClassName
  name : String
  descriptor : String
  opcode : Opcode kind
  /-- Resolved among the referring class's own declarations. -/
  isLocal : Bool
  deriving DecidableEq, Repr

namespace Reference

variable {kind : MemberKind}

/-- The unqualified signature. -/
def member (r : Reference kind) : String := kind.signature r.name r.descriptor

/-- The qualified signature. -/
def text (r : Reference kind) : String := r.owner.text ++ "/" ++ r.member

def needsReceiver (r : Reference kind) : Bool := !r.opcode.isStatic

/-- A method's descriptor as its text has it: from the first parenthesis on. -/
def descriptorText (r : Reference .method) : String :=
  String.ofList (r.member.toList.dropWhile (· != '('))

/-- The argument count of an interface call: the parameters' slots, of which sixteen bits allow
65534 here, and one for the receiver. -/
def argumentCount (r : Reference .method) : Except DescriptorFault Nat := do
  let types ← Descriptor.parameterTypes r.descriptor.toList
  return Descriptor.slots types + 1

end Reference
end UnitLink
