import UnitLink.Arguments
import UnitLink.ClassPath
import UnitLink.Link
import UnitLink.Source.File
/-! The linker as a program: from arguments and a file tree to an exit status, printed
lines and a file tree. -/
namespace UnitLink

namespace Phase

def text : Phase → String
  | link => "Link"
  | discover => "Discover"
  | loadLibraries => "Load libraries"
  | resolve => "Resolve"
  | rewrite => "Rewrite"
  | shutDown => "Shut down workers"

/-- The phases in the order in which they are over for the first time. -/
def all : List Phase := [discover, loadLibraries, resolve, rewrite, shutDown, link]

/-- All phases lie within the link. -/
def depth : Phase → Nat
  | link => 0
  | _ => 1

/-- A line of the time summary, for a phase that ran a number of times; `duration` comes
before the name. -/
def line (phase : Phase) (count : Nat) (duration : String) : String :=
  let bars := String.join (List.replicate phase.depth "│ ")
  bars ++ duration ++ phase.text ++ if 1 < count then s!" (x{count})" else ""

/-- A line for every phase that ran. -/
def summary (phases : List Phase) (duration : Phase → String) : List String :=
  all.filterMap fun phase =>
    let count := phases.count phase
    if count = 0 then none else some (phase.line count (duration phase))

end Phase

namespace Failure

/-- Further lines of a message are indented under its first. -/
def indented (first rest message : String) : String :=
  let lines := (Text.pieces (· == '\n') message.toList).map String.ofList
  first ++ ("\n" ++ rest).intercalate lines

/-- A cause under its number, unless it is the only one. -/
def causeLines : List String → List String
  | [cause] => [indented "    " "    " cause]
  | causes => causes.mapIdx fun i cause =>
    let number := toString i
    let padding := String.ofList (List.replicate (5 - number.length) ' ')
    indented (padding ++ number ++ ": ") "       " cause

/-- A chain of messages as it is reported: the outermost, and its causes below. -/
def report : List String → String
  | [] => ""
  | [message] => message
  | message :: causes =>
    message ++ "\n\nCaused by:\n" ++ "\n".intercalate (causeLines causes)

end Failure

/-- The job of linking files. -/
def LinkArguments.job (a : LinkArguments) (tree : FileTree) : Job FileTree FileStore where
  sources := a.inputs.map fun (input, output) => Source.ofFile tree input output
  common := tree
  libraries := a.libraries.map ClassName.ofString
  unresolved := a.unresolved.map ClassName.ofString
  context := ClassName.ofString a.context
  workers := { threads := a.threads }

/-- Links files, one after the other. -/
def LinkArguments.link (a : LinkArguments) (tree : FileTree) : LinkReport FileTree FileStore :=
  (a.job tree).link [] (ClassPath.loader ⟨a.classPath⟩ tree)

structure ProgramOutcome where
  status : Nat
  stdout : List String
  stderr : String
  tree : FileTree

namespace Program

def versionLine : String := "knit version 0.1.0"

def warningLine (message : String) : String := s!"WARNING: knit: {message}\n"

def errorText (chain : List String) : String := "knit: error: " ++ Failure.report chain ++ "\n"

def warnings (log : List LogEvent) : List String :=
  log.filterMap fun event =>
    match event with
    | .warning message => some (warningLine message)
    | .error _ => none

/-- The end of a program whose files stay as they are. -/
def untouched (status : Nat) (stdout : List String) (stderr : String) (tree : FileTree) :
    ProgramOutcome := ⟨status, stdout, stderr, tree⟩

def linkOutcome (a : LinkArguments) (tree : FileTree) (duration : Phase → String) :
    ProgramOutcome :=
  let report := a.link tree
  let stdout := if a.time then Phase.summary report.phases duration else []
  let warned := String.join (warnings report.log)
  match report.result with
  | .ok () => ⟨0, stdout, warned, report.common⟩
  | .error (.failed failure) => ⟨1, stdout, warned ++ errorText failure.chain, report.common⟩
  | .error (.crashed message) => ⟨101, stdout, warned ++ message ++ "\n", report.common⟩

/-- Runs the program on its arguments. -/
def run (arguments : List String) (tree : FileTree) (duration : Phase → String) :
    ProgramOutcome :=
  match Arguments.parse arguments with
  | .error fault => untouched 1 [] (errorText fault.chain) tree
  | .ok .version => untouched 0 [versionLine] "" tree
  | .ok (.link a) => linkOutcome a tree duration

end Program
end UnitLink
