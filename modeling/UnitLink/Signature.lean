import UnitLink.Descriptor
import UnitLink.Text.Blank
/-! Textual signatures of members.

A method signature is a name and a method descriptor, as in `f(IJ)V`; a field signature
is a name, white space and a field type, as in `count I`. Either may be qualified by an
owner and `/` or `.`. -/
namespace UnitLink

inductive MemberKind where
  | method
  | field
  deriving DecidableEq, Repr

def MemberKind.text : MemberKind → String
  | method => "method"
  | field => "field"

/-- The unqualified signature of a member: a method's descriptor follows the name
directly, a field's type after a space. -/
def MemberKind.signature : MemberKind → (name descriptor : String) → String
  | method, name, descriptor => name ++ descriptor
  | field, name, descriptor => name ++ " " ++ descriptor

inductive SignatureFault where
  | noParameterList (text : String)
  | noType (text : String)
  | emptyOwner (text : String)
  | emptyName (text : String)
  | badNameChar (c : Char) (text : String)
  | badDescriptor (kind : MemberKind) (text : String) (fault : DescriptorFault)
  | afterType (text rest : String)
  deriving DecidableEq, Repr

/-- The messages of a fault, outermost first. -/
def SignatureFault.chain : SignatureFault → List String
  | noParameterList text => [s!"malformed method signature `{text}`: missing parameter list"]
  | noType text => [s!"malformed field signature `{text}`: missing type"]
  | emptyOwner text => [s!"malformed signature `{text}`: empty owner"]
  | emptyName text => [s!"malformed signature `{text}`: empty member name"]
  | badNameChar c text => [s!"malformed signature `{text}`: `{c}` in member name"]
  | badDescriptor kind text fault =>
    ["malformed " ++ kind.text ++ s!" signature `{text}`", fault.message]
  | afterType text rest => [s!"malformed field signature `{text}`: trailing `{rest}`"]

/-- A signature in parts. The owner is present if the signature was qualified, and is
spelled as it was written. -/
structure Signature where
  owner : Option String
  name : String
  descriptor : String
  deriving DecidableEq, Repr

namespace Signature

/-- Characters that a member name cannot hold. -/
def isReserved (c : Char) : Bool :=
  match c with
  | ';' | '[' | '(' | ')' | '/' | '.' | ' ' | '\t' => true
  | _ => false

/-- The owner ends at the last `/` or `.`. -/
def splitOwner (text : String) (qualified : List Char) :
    Except SignatureFault (Option String × List Char) :=
  match Text.cutLast (fun c => c == '/' || c == '.') qualified with
  | none => .ok (none, qualified)
  | some ([], _) => .error (.emptyOwner text)
  | some (owner, name) => .ok (some (String.ofList owner), name)

def checkName (text : String) (name : List Char) : Except SignatureFault Unit :=
  if name = [] then .error (.emptyName text)
  else match name.find? isReserved with
    | some c => .error (.badNameChar c text)
    | none => .ok ()

/-- Checks a descriptor of the kind, giving the fault of a signature `text`. -/
def checkDescriptor (kind : MemberKind) (text : String) (descriptor : List Char) :
    Except SignatureFault Unit :=
  match kind with
  | .method =>
    match Descriptor.parameterTypes descriptor with
    | .error fault => .error (.badDescriptor .method text fault)
    | .ok _ => .ok ()
  | .field =>
    match Descriptor.takeType descriptor with
    | .error fault => .error (.badDescriptor .field text fault)
    | .ok (_, []) => .ok ()
    | .ok (_, rest) => .error (.afterType text (String.ofList rest))

/-- Splits a trimmed signature into the qualified name and the descriptor. -/
def splitDescriptor (kind : MemberKind) (cs : List Char) :
    Except SignatureFault (List Char × List Char) :=
  match kind with
  | .method =>
    match cs.dropWhile (· != '(') with
    | [] => .error (.noParameterList (String.ofList cs))
    | descriptor => .ok (cs.takeWhile (· != '('), descriptor)
  | .field =>
    match Text.cutFirst Text.isBlank cs with
    | none => .error (.noType (String.ofList cs))
    | some (qualified, type) => .ok (qualified, Text.trim type)

def parse (kind : MemberKind) (signature : String) : Except SignatureFault Signature := do
  let cs := Text.trim signature.toList
  let text := String.ofList cs
  let (qualified, descriptor) ← splitDescriptor kind cs
  let (owner, name) ← splitOwner text qualified
  checkName text name
  checkDescriptor kind text descriptor
  return ⟨owner, String.ofList name, String.ofList descriptor⟩

/-- The signature without its owner, by which members are looked up. -/
def unqualified (kind : MemberKind) (s : Signature) : String :=
  kind.signature s.name s.descriptor

end Signature
end UnitLink
