import UnitLink.Discovery
import UnitLink.Glue
import UnitLink.LineTable
import UnitLink.Resolver
import UnitLink.Source.Common
/-! Resolution: the pass that binds every reference of a source, pairs the two ends of its
invocations, and records which classes it depends on. -/
namespace UnitLink

/-- What a directive line resolved to. -/
inductive Resolved where
  /-- The begin of an invocation whose end is still to come. -/
  | unpaired
  | invocation (reference : Reference .method)
  | fieldRead (reference : Reference .field)
  | classOf (owner : ClassName)
  deriving DecidableEq, Repr

structure Resolution where
  declared : ClassUnit
  lines : LineTable Resolved
  glue : GlueFields

/-- What a directive binds to by itself, before the pass puts it together with the others. -/
inductive Binding where
  | opening
  | closing (reference : Reference .method)
  | fieldRead (reference : Reference .field)
  | classOf (owner : ClassName)
  deriving DecidableEq, Repr

/-- The state of a resolution pass. -/
structure Bindings where
  lines : LineTable Resolved
  glue : GlueFields
  /-- The lines of the begins without an end so far, the innermost first. -/
  begun : List Nat

namespace Bindings

open Resolver (Resolving)

variable {τ : Type}

def start (context : ClassName) : Bindings := ⟨.empty, .start context, []⟩

/-- Declared and public members are two ways to resolve a reference; the `local` attribute
says which. -/
def resolve (r : Resolver) (c : ClassUnit) (kind : MemberKind) (d : Directive) :
    Resolving τ (Reference kind) := do
  let signature ← declaration (d.required "sig")
  if ← declaration (d.flag "local") then
    match Resolver.resolveLocal kind signature c with
    | .ok reference => return reference
    | .error failure => Resolver.fail failure
  else r.resolve kind signature c
where
  declaration {α : Type} : Except DirectiveFault α → Resolving τ α
    | .ok value => return value
    | .error fault => Resolver.fail (.declaration (.badDirective fault))

/-- Records the owner of a reference that is neither local nor to the class itself. -/
def recordOwner {kind : MemberKind} (b : Bindings) (c : ClassUnit) (r : Reference kind) :
    Bindings :=
  if r.isLocal || r.owner == c.name then b else { b with glue := b.glue.record r.owner }

def add (b : Bindings) (line : Nat) (resolved : Resolved) : Except Failure Bindings :=
  match b.lines.add line resolved with
  | .ok lines => .ok { b with lines }
  | .error fault => .error (Failure.ofCause (.lineTable fault))

def replace (b : Bindings) (line : Nat) (resolved : Resolved) : Except Failure Bindings :=
  match b.lines.replace line resolved with
  | .ok (_, lines) => .ok { b with lines }
  | .error fault => .error (Failure.ofCause (.lineTable fault))

/-- The begin of an invocation waits for its end. -/
def begin (b : Bindings) (line : Nat) : Except Failure Bindings := do
  let b ← b.add line .unpaired
  return { b with begun := line :: b.begun }

/-- An end closes the innermost begin; both lines then have the reference. -/
def close (b : Bindings) (line : Nat) (reference : Reference .method) :
    Except Failure Bindings := do
  match b.begun with
  | [] => throw (.declaration .unmatchedEnd)
  | opening :: begun => do
    let b ← b.replace opening (.invocation reference)
    let b ← b.add line (.invocation reference)
    return { b with begun }

/-- Enters what the directive of a line binds to. -/
def enter (b : Bindings) (c : ClassUnit) (line : Nat) : Binding → Except Failure Bindings
  | .opening => b.begin line
  | .closing reference => (b.recordOwner c reference).close line reference
  | .fieldRead reference => (b.recordOwner c reference).add line (.fieldRead reference)
  | .classOf owner => b.add line (.classOf owner)

/-- Checks a directive and resolves what it refers to. Directives of the other kinds take
no part in resolution. -/
def bindDirective (r : Resolver) (c : ClassUnit) (d : Directive) :
    Resolving τ (Option Binding) :=
  match d.kind with
  | .invokeBegin => do
    let _ ← resolve.declaration d.pending
    return some .opening
  | .invokeEnd => return some (.closing (← resolve r c .method d))
  | .readField => return some (.fieldRead (← resolve r c .field d))
  | .classOf => do
    let signature ← resolve.declaration (d.required "sig")
    let reference ← r.resolve .method signature c
    return some (.classOf reference.owner)
  | _ => return none

def visitDirective (r : Resolver) (c : ClassUnit) (line : Nat) (d : Directive) (b : Bindings) :
    Resolving τ Bindings := do
  match ← bindDirective r c d with
  | none => return b
  | some binding =>
    match b.enter c line binding with
    | .ok b => return b
    | .error failure => Resolver.fail failure

def visit (r : Resolver) (c : ClassUnit) (line : Line) (b : Bindings) :
    Session τ (Except Stop Unit × Bindings) :=
  match line.directive with
  | none => return (.ok (), b)
  | some d => do
    match ← (visitDirective r c line.number d b).run with
    | .ok b => return (.ok (), b)
    | .error stop => return (.error stop, b)

/-- A resolution, unless a begin is left without an end. The first of those is to blame. -/
def finish (b : Bindings) (source : String) (c : ClassUnit) : Except Failure Resolution :=
  match b.begun.getLast? with
  | some line => .error ((Failure.declaration .unmatchedBegin).locate ⟨source, line⟩)
  | none => .ok ⟨c, b.lines, b.glue⟩

end Bindings

/-- Resolves the references of a source that declares the class. -/
def Source.resolve {σ τ : Type} [CommonStore σ τ] (s : Source σ) (c : ClassUnit) (r : Resolver)
    (context : ClassName) : Session τ (Except Stop Resolution × Source σ) := do
  let started ← s.inTurn Source.startInput
  match ← visitStarted (reading (Bindings.visit r c)) (Bindings.start context) started with
  | (.error stop, s, _) => return (.error stop, s)
  | (.ok (), s, b) => return ((b.finish s.name c).mapError .failed, s)

end UnitLink
