import UnitLink.Assembly
import UnitLink.Resolution
/-! Rewriting: the pass that copies a source to its output and puts assembly in the place
of its directives. -/
namespace UnitLink

namespace Resolution

/-- Loads the instance through which a member is reached: the current one for the class's
own members, else the one in the owner's glue field. -/
def loadReceiver {kind : MemberKind} (r : Resolution) (reference : Reference kind) :
    Except Failure (List Assembly) :=
  if reference.isLocal || reference.owner == r.declared.name then .ok [.loadSelf]
  else match r.glue.find? reference.owner with
    | some name => .ok [.loadSelf, .getGlue r.declared.name name reference.owner]
    | none => .error (Failure.ofCause (.noGlueField reference.owner))

def invokeBegin (r : Resolution) (d : Directive) (reference : Reference .method) :
    Except Failure (List Assembly) :=
  if reference.needsReceiver then do
    let receiver ← r.loadReceiver reference
    let pending ← d.pending.mapError fun fault => Failure.declaration (.badDirective fault)
    return receiver ++ if pending then [.swap] else []
  else .ok []

def invokeEnd (reference : Reference .method) : Except Failure (List Assembly) :=
  match reference.opcode with
  | .invokeinterface => do
    let count ← reference.argumentCount.mapError fun fault =>
      Failure.declaration (.badDescriptor fault)
    return [.invokeInterface reference count]
  | _ => .ok [.invoke reference]

def readField (r : Resolution) (reference : Reference .field) : Except Failure (List Assembly) :=
  if reference.needsReceiver then do
    return (← r.loadReceiver reference) ++ [.readField reference]
  else .ok [.readField reference]

def glueFields (r : Resolution) : List Assembly :=
  r.glue.fields.map fun (owner, name) => .glueField name owner

/-- Fills one glue field from the execution context, which is in a local variable; the
context itself is not asked for. -/
def initField (r : Resolution) (slot : Nat) (owner : ClassName) (name : String) :
    List Assembly :=
  [.loadSelf, .loadArgument slot] ++
    (if owner = r.glue.context then []
      else [.loadName owner, .getModule r.glue.context, .checkCast owner]) ++
    [.putGlue r.declared.name name owner]

def glueInit (r : Resolution) (d : Directive) : Except Failure (List Assembly) := do
  let slot ← (d.number "context" 1).mapError fun fault =>
    Failure.declaration (.badDirective fault)
  return r.glue.fields.flatMap fun (owner, name) => r.initField slot owner name

def classHeader (d : Directive) : Except Failure (List Assembly) := do
  let header ← d.classHeader
  return .classUnit header.modifiers header.name ::
    (header.superclass.toList.map .superclass ++ header.interfaces.map .implements)

def fieldLine (d : Directive) : Except Failure (List Assembly) := do
  let (signature, value) := splitInitialValue (← d.declared "sig")
  return [.field (← d.modifiers) signature value]

def methodLine (d : Directive) : Except Failure (List Assembly) := do
  let modifiers ← d.modifiers
  return [.method modifiers (← d.declared "sig")]

/-- What a directive stands for, given what its line resolved to. -/
def expand (r : Resolution) (d : Directive) (resolved : Option Resolved) :
    Except Failure (List Assembly) :=
  match d.kind, resolved with
  | .classHeader, _ => classHeader d
  | .field, _ => fieldLine d
  | .method, _ => methodLine d
  | .invokeBegin, some (.invocation reference) => r.invokeBegin d reference
  | .invokeEnd, some (.invocation reference) => invokeEnd reference
  | .readField, some (.fieldRead reference) => r.readField reference
  | .classOf, some (.classOf owner) => .ok [.loadName owner]
  | .glueFields, _ => .ok r.glueFields
  | .glueInit, _ => r.glueInit d
  | kind, _ => .error (Failure.ofCause (.unexpectedResolution kind))

end Resolution

/-- What ends a line that is written, everywhere but on Windows. -/
def lineSeparator : String := "\n"

variable {σ : Type}

namespace Source

/-- Writes lines until one fails. -/
def writeLines (s : Source σ) : List String → Except Failure Unit × Source σ
  | [] => (.ok (), s)
  | line :: lines =>
    match s.write (line ++ lineSeparator).toUTF8 with
    | (.ok (), s) => s.writeLines lines
    | (.error failure, s) => (.error failure, s)

/-- Copies a line or writes what its directive stands for, with the directive's
indentation. The cursor is asked about directive lines only. -/
def rewriteLine (r : Resolution) (line : Line) :
    Source σ × LineCursor → Except Failure Unit × Source σ × LineCursor
  | (s, cursor) =>
    match line.directive with
    | none =>
      let (outcome, s) := s.writeLines [line.text]
      (outcome, s, cursor)
    | some d =>
      let (resolved, cursor) := cursor.get? r.lines line.number
      match r.expand d resolved with
      | .error failure => (.error failure, s, cursor)
      | .ok lines =>
        let (outcome, s) := s.writeLines (lines.map fun line => d.indent ++ line.text)
        (outcome, s, cursor)

/-- Writes the output of a source. Whatever happens, the writer is given up. -/
def rewrite (s : Source σ) (r : Resolution) : Except Failure Unit × Source σ :=
  match s.startOutput with
  | (.error failure, s) => (.error failure, s)
  | (.ok (), s) =>
    match s.visitOwnLines (m := Id) (rewriteLine r) LineCursor.start with
    | (.error failure, s, _) => (.error failure, s.releaseOutput)
    | (.ok (), s, _) => s.finishOutput

end Source
end UnitLink
