import UnitLink.Pass
/-! Discovery: the pass that reads which class a source declares, and with which members.
What is read of a `class`, `field` or `method` directive is read in the same way when the
directive is rewritten. -/
namespace UnitLink

/-- The superclass of a class that names none. -/
def defaultSuperclass : ClassName := ClassName.ofString "java/lang/Object"

namespace Directive

/-- The value of a required attribute, as a declaration's. -/
def declared (d : Directive) (key : String) : Except Failure String :=
  (d.required key).mapError fun fault => .declaration (.badDirective fault)

def modifiers (d : Directive) : Except Failure Modifiers :=
  (Modifiers.parse ((d.value? "flags").getD "").toList).mapError fun word =>
    .declaration (.unknownModifier word)

def superclass (d : Directive) (name : ClassName) : Except Failure ClassName :=
  match d.value? "super" with
  | none => .ok defaultSuperclass
  | some "" => .error (.declaration (.emptySuperclass name))
  | some text => .ok (ClassName.ofString text)

/-- The names between commas, without empty ones. -/
def interfaces (d : Directive) : List ClassName :=
  (((Text.pieces (· == ',') ((d.value? "implements").getD "").toList).map Text.trim).filter
    fun name => !name.isEmpty).map ClassName.ofChars

def classHeader (d : Directive) : Except Failure ClassHeader := do
  let name := ClassName.ofString (← d.declared "name")
  let modifiers ← d.modifiers
  let superclass ← d.superclass name
  return ⟨name, modifiers, some superclass, d.interfaces⟩

end Directive

/-- A field signature such as `count I = 5` in its two parts, split at the first `=`. -/
def splitInitialValue (signature : String) : String × Option String :=
  match Text.cutFirst (· == '=') signature.toList with
  | some (signature, value) =>
    (String.ofList (Text.trim signature), some (String.ofList (Text.trim value)))
  | none => (String.ofList (Text.trim signature.toList), none)

/-- The declarations read so far. -/
structure Declarations where
  header : Option ClassHeader := none
  methods : List (Member .method) := []
  fields : List (Member .field) := []
  deriving DecidableEq, Repr

namespace Declarations

def owner (d : Declarations) : Except Failure ClassName :=
  match d.header with
  | some header => .ok header.name
  | none => .error (.declaration .memberBeforeClass)

/-- Reads a member of the class declared so far. -/
def member (d : Declarations) (kind : MemberKind) (directive : Directive) :
    Except Failure (Member kind) := do
  let owner ← d.owner
  let written ← directive.declared "sig"
  let signature := match kind with
    | .method => written
    | .field => (splitInitialValue written).1
  let modifiers ← directive.modifiers
  (Member.parse owner signature modifiers).mapError fun fault => .declaration (.badMember fault)

def add (d : Declarations) (directive : Directive) : Except Failure Declarations :=
  match directive.kind with
  | .classHeader =>
    match d.header with
    | some existing => .error (.declaration (.repeatedClass existing.name))
    | none => do return { d with header := some (← directive.classHeader) }
  | .field => do return { d with fields := d.fields ++ [← d.member .field directive] }
  | .method => do return { d with methods := d.methods ++ [← d.member .method directive] }
  | _ => .ok d

def visit (line : Line) (d : Declarations) : Except Failure Unit × Declarations :=
  match line.directive with
  | none => (.ok (), d)
  | some directive =>
    match d.add directive with
    | .ok d => (.ok (), d)
    | .error failure => (.error failure, d)

def classUnit (d : Declarations) (source : String) : Except Failure ClassUnit :=
  match d.header with
  | none => .error (.declaration (.missingClass source))
  | some header => .ok { header with methods := d.methods, fields := d.fields }

end Declarations

variable {σ : Type}

/-- The class that a source declares. -/
def Source.discover (s : Source σ) : Except Failure ClassUnit × Source σ :=
  match s.visitLines (m := Id) Declarations.visit {} with
  | (.error failure, s, _) => (.error failure, s)
  | (.ok (), s, declarations) => (declarations.classUnit s.name, s)

end UnitLink
