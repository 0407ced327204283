import UnitLink.Text.Blank
import UnitLink.Text.Decimal
/-! Command line arguments. Long options take one dash or two. Some options take the next
argument as their value, whatever it looks like, so arguments are read in groups. -/
namespace UnitLink

inductive ArgumentFault where
  | missingClass
  | missingDirectories (option : String)
  | badThreads (text : String) (fault : Text.NumeralFault)
  | zeroThreads
  | badTimeout (text : String) (fault : Text.NumeralFault)
  | helpWanted
  | unrecognised (arguments : List String)
  | noInputs
  deriving DecidableEq, Repr

/-- The messages of a fault, outermost first. -/
def ArgumentFault.chain : ArgumentFault → List String
  | missingClass => ["Missing class name after -l"]
  | missingDirectories option => [s!"Missing directories after {option}"]
  | badThreads text fault => [s!"Invalid thread count `{text}`", fault.message]
  | zeroThreads => ["number would be zero for non-zero type"]
  | badTimeout text fault => [s!"Invalid shutdown timeout `{text}`", fault.message]
  | helpWanted => ["Usage: knit [options] <input>[=<output>]..."]
  | unrecognised arguments =>
    ["Unrecognised argument(s): " ++ " ".intercalate (arguments.map fun a => s!"`{a}`")]
  | noInputs => ["No input sources were given"]

structure LinkArguments where
  /-- Inputs and where their output goes, if not over the input. -/
  inputs : List (String × Option String) := []
  libraries : List String := []
  classPath : List String := []
  unresolved : Option String := none
  context : String := "runtime/ExecutionContext"
  /-- As many as the machine has processors, unless given. -/
  threads : Option Nat := none
  shutdownMilliseconds : Nat := 5000
  time : Bool := false
  deriving DecidableEq, Repr

inductive Action where
  | version
  | link (arguments : LinkArguments)
  deriving DecidableEq, Repr

/-- What one group of arguments sets. -/
inductive Setting where
  | input (path : String) (output : Option String)
  | library (name : String)
  | directories (list : List String)
  | unresolved (name : String)
  | context (name : String)
  | threads (count : Nat)
  | shutdownMilliseconds (count : Nat)
  | time
  | unrecognised (argument : String)
  deriving DecidableEq, Repr

/-- What ends the reading of arguments at once. -/
inductive Halt where
  | version
  | fault (fault : ArgumentFault)
  deriving DecidableEq, Repr

namespace Arguments

/-- The largest number of 64 bits. -/
def largest : Nat := 0xFFFFFFFFFFFFFFFF

/-- An option's text without its dashes. -/
def optionText? (argument : List Char) : Option (List Char) :=
  match argument with
  | '-' :: '-' :: text => some text
  | '-' :: text => some text
  | _ => none

/-- The value of an option that is written `option=value`. -/
def optionValue? (option : String) (argument : List Char) : Option (List Char) :=
  (optionText? argument).bind (Text.dropBeginning? (option.toList ++ ['=']))

def isOption (option : String) (argument : List Char) : Bool :=
  optionText? argument == some option.toList

def directoryList (cs : List Char) : List String :=
  (Text.pieces (· == ':') cs).map String.ofList

def threads (cs : List Char) : Except Halt Setting :=
  match Text.numeral largest cs with
  | .error fault => .error (.fault (.badThreads (String.ofList cs) fault))
  | .ok 0 => .error (.fault .zeroThreads)
  | .ok n => .ok (.threads n)

def timeout (cs : List Char) : Except Halt Setting :=
  match Text.numeral largest cs with
  | .error fault => .error (.fault (.badTimeout (String.ofList cs) fault))
  | .ok n => .ok (.shutdownMilliseconds n)

def input (cs : List Char) : Setting :=
  match Text.cutFirst (· == '=') cs with
  | some (path, output) => .input (String.ofList path) (some (String.ofList output))
  | none => .input (String.ofList cs) none

/-- An argument that is a group of its own. -/
def single (cs : List Char) : Except Halt Setting :=
  if let some name := optionValue? "lib" cs then .ok (.library (String.ofList name))
  else if let some list := optionValue? "classpath" cs then .ok (.directories (directoryList list))
  else if let some name := optionValue? "unresolved" cs then .ok (.unresolved (String.ofList name))
  else if let some name := optionValue? "context" cs then .ok (.context (String.ofList name))
  else if let some count := optionValue? "threads" cs then threads count
  else if let some count := optionValue? "shutdown-timeout-ms" cs then timeout count
  else if isOption "time" cs then .ok .time
  else if isOption "version" cs || cs == ['-', 'v'] then .error .version
  else if isOption "help" cs then .error (.fault .helpWanted)
  else if cs.head? = some '-' then .ok (.unrecognised (String.ofList cs))
  else .ok (input cs)

def takesDirectories (argument : String) : Bool :=
  argument == "-cp" || isOption "classpath" argument.toList

/-- Reads the arguments in groups: an option with the argument it takes, or a single
argument. -/
def groups : List String → List (Except Halt Setting)
  | [] => []
  | [argument] =>
    if argument = "-l" then [.error (.fault .missingClass)]
    else if takesDirectories argument then [.error (.fault (.missingDirectories argument))]
    else [single argument.toList]
  | argument :: next :: rest =>
    if argument = "-l" then .ok (.library next) :: groups rest
    else if takesDirectories argument then
      .ok (.directories (directoryList next.toList)) :: groups rest
    else single argument.toList :: groups (next :: rest)

/-- What has been set so far, and the arguments that were not recognised. -/
structure Collected where
  settings : LinkArguments := {}
  unrecognised : List String := []
  deriving DecidableEq, Repr

/-- Lists grow at their ends; of single values the last one given counts. -/
def Collected.add (c : Collected) : Setting → Collected
  | .input path output =>
    { c with settings.inputs := c.settings.inputs ++ [(path, output)] }
  | .library name => { c with settings.libraries := c.settings.libraries ++ [name] }
  | .directories list => { c with settings.classPath := c.settings.classPath ++ list }
  | .unresolved name => { c with settings.unresolved := some name }
  | .context name => { c with settings.context := name }
  | .threads count => { c with settings.threads := some count }
  | .shutdownMilliseconds count => { c with settings.shutdownMilliseconds := count }
  | .time => { c with settings.time := true }
  | .unrecognised argument => { c with unrecognised := c.unrecognised ++ [argument] }

/-- Unrecognised arguments are told of together, when all have been read. -/
def Collected.finish (c : Collected) : Except ArgumentFault Action :=
  if c.unrecognised ≠ [] then .error (.unrecognised c.unrecognised)
  else if c.settings.inputs = [] then .error .noInputs
  else .ok (.link c.settings)

def parse (arguments : List String) : Except ArgumentFault Action :=
  match (groups arguments).foldlM (fun c group => group.map c.add) ({} : Collected) with
  | .error .version => .ok .version
  | .error (.fault fault) => .error fault
  | .ok collected => collected.finish

end Arguments
end UnitLink
