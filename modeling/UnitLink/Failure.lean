import UnitLink.ClassFile
import UnitLink.Directive
import UnitLink.LineTable
/-! What can go wrong in a link. A failure has one cause and layers of context around it:
what was being done, and on which line of which source. All wording stands here and beside
the causes that have a module of their own. -/
namespace UnitLink

/-- A missing, repeated or malformed declaration, signature or directive. -/
inductive DeclarationFault where
  | unknownModifier (word : String)
  | badDescriptor (fault : DescriptorFault)
  | badSignature (fault : SignatureFault)
  | badMember (fault : MemberFault)
  | badDirective (fault : DirectiveFault)
  | repeatedClass (existing : ClassName)
  | emptySuperclass (name : ClassName)
  | memberBeforeClass
  | missingClass (source : String)
  | unmatchedBegin
  | unmatchedEnd
  deriving DecidableEq, Repr

def DeclarationFault.chain : DeclarationFault → List String
  | unknownModifier word => [s!"unknown modifier `{word}`"]
  | badDescriptor fault => [fault.message]
  | badSignature fault => fault.chain
  | badMember fault => fault.chain
  | badDirective fault => [fault.message]
  | repeatedClass existing =>
    [s!"duplicate class declaration, `{existing}` was already declared"]
  | emptySuperclass name => [s!"`super` attribute of class `{name}` is empty"]
  | memberBeforeClass => ["missing class declaration before member declaration"]
  | missingClass source => [s!"missing class declaration in `{source}`"]
  | unmatchedBegin => ["`;@invoke-begin` without a matching `;@invoke-end`"]
  | unmatchedEnd => ["`;@invoke-end` without a matching `;@invoke-begin`"]

/-- Why a class cannot be had by its name. -/
inductive LookupFault where
  | notFound (name : ClassName)
  /-- The class is there but cannot be loaded; the messages, outermost first. -/
  | unloadable (chain : List String)
  deriving DecidableEq, Repr

def LookupFault.message : LookupFault → String
  | notFound name => s!"class `{name}` was not found"
  | unloadable chain => ": ".intercalate chain

/-- A reference that cannot be bound to a declared member. -/
inductive ResolutionFault where
  | missingLibrary (name : ClassName)
  | unloadableLibrary (name : ClassName) (chain : List String)
  | unknownOwner (signature : String) (fault : LookupFault)
  | noPublicMember (signature : String)
  | localInInterface (signature : String) (name : ClassName)
  | localElsewhere (signature : String) (name : ClassName)
  | noLocalMember (signature : String) (name : ClassName)
  deriving DecidableEq, Repr

def ResolutionFault.message : ResolutionFault → String
  | missingLibrary name => s!"library class `{name}` was not found"
  | unloadableLibrary name chain =>
    s!"unable to load library class `{name}`: " ++ ": ".intercalate chain
  | unknownOwner signature fault =>
    s!"unable to resolve public member `{signature}`: " ++ fault.message
  | noPublicMember signature => s!"unable to resolve public member `{signature}`"
  | localInInterface signature name =>
    s!"cannot resolve local member `{signature}` in interface `{name}`"
  | localElsewhere signature name => s!"local member `{signature}` must belong to `{name}`"
  | noLocalMember signature name =>
    s!"unable to resolve local member `{signature}` in `{name}`"

/-- A use of a source's streams that its state does not allow. -/
inductive StreamFault where
  | closed | inputActive | outputSpent | outputStillActive | inputStillActive
  deriving DecidableEq, Repr

def StreamFault.message : StreamFault → String
  | closed => "is closed"
  | inputActive => "already has an active input"
  | outputSpent => "already had its output created"
  | outputStillActive => "output still active"
  | inputStillActive => "input still active"

/-- What the system answers when a file operation fails. -/
inductive SystemFault where
  | notFound | busy | notDirectory | isDirectory | invalidArgument | nameTooLong
  | nulInName | notUtf8
  | reported (text : String)
  deriving DecidableEq, Repr

def SystemFault.message : SystemFault → String
  | notFound => "No such file or directory (os error 2)"
  | busy => "Device or resource busy (os error 16)"
  | notDirectory => "Not a directory (os error 20)"
  | isDirectory => "Is a directory (os error 21)"
  | invalidArgument => "Invalid argument (os error 22)"
  | nameTooLong => "File name too long (os error 36)"
  | nulInName => "file name contained an unexpected NUL byte"
  | notUtf8 => "stream did not contain valid UTF-8"
  | reported text => text

inductive Cause where
  | declaration (fault : DeclarationFault)
  | resolution (fault : ResolutionFault)
  | duplicateClass (name : ClassName) (first second : String)
  | streamState (source : String) (fault : StreamFault)
  /-- The task of this label ended without a result. -/
  | worker (label : String)
  /-- The workers could not be started; the messages, outermost first. -/
  | noWorkers (chain : List String)
  | lineTable (fault : LineTableFault)
  | classFile (fault : ClassFileFault)
  | system (fault : SystemFault)
  /-- A temporary file could not be created; its name is not told. -/
  | temporaryFile (fault : SystemFault)
  | outputText (fault : Text.Utf8Fault)
  | unexpectedResolution (kind : DirectiveKind)
  | noGlueField (owner : ClassName)
  deriving DecidableEq, Repr

def Cause.chain : Cause → List String
  | declaration fault => fault.chain
  | resolution fault => [fault.message]
  | duplicateClass name first second =>
    [s!"class `{name}` is declared by both `{first}` and `{second}`"]
  | streamState source fault => [s!"source `{source}`: " ++ fault.message]
  | worker label => [s!"worker fault: task `{label}` ended without producing a result"]
  | noWorkers chain => chain
  | lineTable fault => [fault.message]
  | classFile fault => fault.chain
  | system fault => [fault.message]
  | temporaryFile fault => [fault.message ++ " at path \"?\""]
  | outputText fault => ["Output isn't valid UTF-8", fault.message]
  | unexpectedResolution kind =>
    ["Directive `" ++ kind.text ++ "` has unexpected resolution"]
  | noGlueField owner => [s!"No glue field was recorded for `{owner}`"]

structure SourceLocation where
  source : String
  /-- Below 2 ^ 32, as lines are numbered. -/
  line : Nat
  deriving DecidableEq, Repr

inductive Context where
  | on (location : SourceLocation)
  | openingInput (source : String)
  | creatingOutput (source : String)
  | writingOutput (source : String)
  | finalizingOutput (source : String)
  | openingFile (path : String)
  | creatingFileIn (directory : String)
  | writingFile (path : String)
  deriving DecidableEq, Repr

def Context.message : Context → String
  | on location => s!"{location.source}:{location.line}"
  | openingInput source => s!"Failed to open input of `{source}`"
  | creatingOutput source => s!"Failed to create output of `{source}`"
  | writingOutput source => s!"Failed to write output of `{source}`"
  | finalizingOutput source => s!"Failed to finalize output of `{source}`"
  | openingFile path => s!"Failed to open `{path}`"
  | creatingFileIn directory => s!"Failed to create temporary file in `{directory}`"
  | writingFile path => s!"Failed to write `{path}`"

def Context.location? : Context → Option SourceLocation
  | on location => some location
  | _ => none

/-- The kinds of failure that a caller can tell apart. -/
inductive FailureKind where
  | declaration | resolution | duplicateClass | streamState | workerFault | other
  deriving DecidableEq, Repr

structure Failure where
  /-- Outermost first. -/
  context : List Context
  cause : Cause
  deriving DecidableEq, Repr

namespace Failure

def ofCause (cause : Cause) : Failure := ⟨[], cause⟩

instance : Coe Cause Failure := ⟨ofCause⟩

def declaration (fault : DeclarationFault) : Failure := ofCause (.declaration fault)

def resolution (fault : ResolutionFault) : Failure := ofCause (.resolution fault)

def system (fault : SystemFault) : Failure := ofCause (.system fault)

def within (failure : Failure) (context : Context) : Failure :=
  { failure with context := context :: failure.context }

def location? (failure : Failure) : Option SourceLocation :=
  failure.context.findSome? Context.location?

/-- Says where the failure arose, unless that is already said. -/
def locate (location : SourceLocation) (failure : Failure) : Failure :=
  if failure.location?.isSome then failure else failure.within (.on location)

/-- All messages, outermost first. -/
def chain (failure : Failure) : List String :=
  failure.context.map Context.message ++ failure.cause.chain

def message (failure : Failure) : String := ": ".intercalate failure.chain

def kind (failure : Failure) : FailureKind :=
  match failure.cause with
  | .declaration _ => .declaration
  | .resolution _ => .resolution
  | .duplicateClass .. => .duplicateClass
  | .streamState .. => .streamState
  | .worker _ => .workerFault
  | .classFile (.badMember ..) => .declaration
  | _ => .other

@[simp] theorem kind_locate (a : SourceLocation) (f : Failure) : (f.locate a).kind = f.kind := by
  unfold locate
  split <;> rfl

end Failure

/-- How a step that may stop a pass stops it: it fails, or the metadata loader ends
abnormally and takes the task with it. -/
inductive Stop where
  | failed (failure : Failure)
  | crashed (message : String)
  deriving DecidableEq, Repr

/-- Errors that can carry a failure and be told the line on which they arose. -/
class Located (ε : Type) where
  ofFailure : Failure → ε
  locate : SourceLocation → ε → ε

instance : Located Failure := ⟨id, Failure.locate⟩

instance : Located Stop where
  ofFailure := .failed
  locate
    | location, .failed failure => .failed (failure.locate location)
    | _, .crashed message => .crashed message

end UnitLink
