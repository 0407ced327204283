import UnitLink.Session
/-! Binding signatures to the classes that declare them.

A qualified signature is looked for in the class it names and in that class's supertypes.
An unqualified one is looked for in the job's classes and then its libraries, and what it
resolves to is remembered. A local one is looked for among the referring class's own
declarations. -/
namespace UnitLink

/-- A class declared by one of the job's sources. -/
structure Discovered where
  source : String
  declared : ClassUnit
  deriving DecidableEq, Repr

structure Resolver where
  /-- The classes that the job's sources declare, in the order of the sources. -/
  jobClasses : List ClassUnit
  /-- The libraries that no source's class shadows, in order. -/
  libraries : List ClassUnit
  /-- Where references that resolve nowhere are sent. -/
  unresolved : Option ClassName
  /-- How many classes a search of supertypes can come to at most. -/
  reach : Nat
  deriving DecidableEq, Repr

/-- A library class that is left out because a source declares a class of its name. -/
structure ShadowedLibrary where
  name : ClassName
  source : String
  deriving DecidableEq, Repr

def ShadowedLibrary.message (s : ShadowedLibrary) : String :=
  s!"library class `{s.name}` is shadowed by the declaration in `{s.source}`"

namespace Resolver

variable {τ : Type}

/-- The source that declares a class of the name. -/
def declaredBy (discovered : List Discovered) (name : ClassName) : Option String :=
  (discovered.find? fun d => d.declared.name == name).map Discovered.source

/-- The first class in order that repeats an earlier one's name. -/
def duplicate? : (earlier : List Discovered) → List Discovered → Option Cause
  | _, [] => none
  | earlier, d :: rest =>
    match declaredBy earlier d.declared.name with
    | some first => some (.duplicateClass d.declared.name first d.source)
    | none => duplicate? (earlier ++ [d]) rest

def shadowed (discovered : List Discovered) (libraries : List ClassUnit) :
    List ShadowedLibrary :=
  libraries.filterMap fun c => (declaredBy discovered c.name).map fun source => ⟨c.name, source⟩

/-- A resolver for the job's classes and its loaded libraries; two sources cannot declare
one class. -/
def build (discovered : List Discovered) (libraries : List ClassUnit)
    (unresolved : Option ClassName) (loader : Loader τ) : Except Failure Resolver :=
  match duplicate? [] discovered with
  | some cause => .error cause
  | none => .ok {
      jobClasses := discovered.map Discovered.declared
      libraries := libraries.filter fun c => (declaredBy discovered c.name).isNone
      unresolved
      reach := discovered.length + libraries.length + loader.size }

/-- The caches of a fresh resolver hold its libraries. -/
def caches (r : Resolver) : Caches := Caches.ofClasses r.libraries

/-- Where unqualified signatures are looked for. -/
def searchOrder (r : Resolver) : List ClassUnit := r.jobClasses ++ r.libraries

def jobClass? (r : Resolver) (name : ClassName) : Option ClassUnit :=
  r.jobClasses.find? fun c => c.name == name

/-- A session that may stop. -/
abbrev Resolving (τ : Type) := ExceptT Stop (Session τ)

def access (op : SharedOp τ) : Resolving τ op.Answer := ExceptT.lift (Session.access op)

def fail {α : Type} (failure : Failure) : Resolving τ α := throw (.failed failure)

/-- Looks a class up by name: among the job's classes, the classes already loaded, and
then with the metadata loader. -/
def lookup (r : Resolver) (name : ClassName) : Resolving τ (Except LookupFault ClassUnit) := do
  match r.jobClass? name with
  | some c => return .ok c
  | none =>
    match ← access (.loaded name) with
    | some c => return .ok c
    | none =>
      match ← access (.load name) with
      | .found c => return .ok (← access (.keep name c))
      | .refused fault => return .error fault
      | .crashed message => throw (.crashed message)

/-- The classes of the names that can be looked up, in the order of the names. The last
name is looked up first. -/
def lookupAll (r : Resolver) : List ClassName → Resolving τ (List ClassUnit)
  | [] => return []
  | name :: names => do
    let others ← r.lookupAll names
    match ← r.lookup name with
    | .ok c => return c :: others
    | .error _ => return others

/-- Goes through the pending classes, the first of them first, and puts a class's
supertypes before the classes that were pending after it. A class is gone into once. -/
def search {α : Type} (r : Resolver) (find : ClassUnit → Option α) :
    (steps : Nat) → (visited : List ClassName) → (pending : List ClassUnit) →
      Resolving τ (Option α)
  | _, _, [] => return none
  | steps, visited, c :: pending =>
    if c.name ∈ visited then r.search find steps visited pending
    else match find c with
      | some found => return some found
      | none =>
        match steps with
        | 0 => return none
        | steps + 1 => do
          let supertypes ← r.lookupAll c.supertypes
          r.search find steps (c.name :: visited) (supertypes ++ pending)
termination_by steps _ pending => (steps, pending.length)

/-- What the first of the class and its supertypes, depth first, has. Supertypes that
cannot be looked up are left out. -/
def findInherited {α : Type} (r : Resolver) (c : ClassUnit) (find : ClassUnit → Option α) :
    Resolving τ (Option α) :=
  r.search find (r.reach + 1) [] [c]

/-- The class that a qualified signature names; a class that refers to itself is not
looked up. -/
def namedClass (r : Resolver) (owner : ClassName) (referrer : ClassUnit) (signature : String) :
    Resolving τ ClassUnit := do
  if owner = referrer.name then return referrer
  else match ← r.lookup owner with
    | .ok c => return c
    | .error fault => fail (.resolution (.unknownOwner signature fault))

variable {kind : MemberKind}

def parse (kind : MemberKind) (signature : String) : Resolving τ Signature :=
  match Signature.parse kind signature with
  | .ok parsed => return parsed
  | .error fault => fail (.declaration (.badSignature fault))

def resolveQualified (r : Resolver) (signature : String) (parsed : Signature) (owner : ClassName)
    (referrer : ClassUnit) : Resolving τ (Reference kind) := do
  let c ← r.namedClass owner referrer signature
  match ← r.findInherited c fun c => c.findPublic? kind (parsed.unqualified kind) with
  | none => fail (.resolution (.noPublicMember signature))
  | some found => return {
      owner
      name := parsed.name
      descriptor := parsed.descriptor
      opcode := .external kind found.isStatic c.isInterface
      isLocal := false }

/-- The reference to the first public declaration in a list of classes. -/
def firstPublic? (kind : MemberKind) (parsed : Signature) (classes : List ClassUnit) :
    Option (Reference kind) :=
  classes.findSome? fun c =>
    (c.findPublic? kind (parsed.unqualified kind)).map fun found => {
      owner := c.name
      name := parsed.name
      descriptor := parsed.descriptor
      opcode := .external kind found.isStatic c.isInterface
      isLocal := false }

/-- The reference that an unqualified signature stands for; one that nobody declares is
sent to the catch-all target, if there is one, as static. -/
def unqualified? (r : Resolver) (kind : MemberKind) (parsed : Signature) :
    Option (Reference kind) :=
  firstPublic? kind parsed r.searchOrder <|> r.unresolved.map fun target => {
    owner := target
    name := parsed.name
    descriptor := parsed.descriptor
    opcode := .ofStatic kind
    isLocal := false }

def resolveUnqualified (r : Resolver) (signature : String) (parsed : Signature) :
    Resolving τ (Reference kind) := do
  match ← access (.known kind signature) with
  | some reference => return reference
  | none =>
    match r.unqualified? kind parsed with
    | none => fail (.resolution (.noPublicMember signature))
    | some reference =>
      access (.remember kind signature reference)
      return reference

/-- Resolves a signature to a public member. -/
def resolve (r : Resolver) (kind : MemberKind) (signature : String) (referrer : ClassUnit) :
    Resolving τ (Reference kind) := do
  let parsed ← parse kind signature
  match parsed.owner with
  | some owner => r.resolveQualified signature parsed (ClassName.ofString owner) referrer
  | none => r.resolveUnqualified signature parsed

/-- Resolves a signature among the referrer's own declarations, whatever their
visibility. -/
def resolveLocal (kind : MemberKind) (signature : String) (referrer : ClassUnit) :
    Except Failure (Reference kind) :=
  match Signature.parse kind signature with
  | .error fault => .error (.declaration (.badSignature fault))
  | .ok parsed =>
    if referrer.isInterface then
      .error (.resolution (.localInInterface signature referrer.name))
    else if parsed.owner.any fun written => ClassName.ofString written != referrer.name then
      .error (.resolution (.localElsewhere signature referrer.name))
    else match referrer.find? kind (parsed.unqualified kind) with
      | none => .error (.resolution (.noLocalMember signature referrer.name))
      | some found => .ok {
          owner := referrer.name
          name := parsed.name
          descriptor := parsed.descriptor
          opcode := .ownMember kind found.modifiers
          isLocal := true }

end Resolver
end UnitLink
