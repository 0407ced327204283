import UnitLink.Source.Stream
/-! Sources: units of assembly text that are read by several passes and written once.

A source hands out any number of readers, one at a time, and one writer. When it is closed
its backend is told whether output was created, and then cleans up; a source that is
abandoned is only cleaned up. A backend keeps its own store, and any of its calls but the
cleanup may fail. -/
namespace UnitLink

/-- Where the text of a source comes from and where its output goes. -/
structure Backend (σ : Type) where
  openInput : σ → Except Failure Stream × σ
  createOutput : σ → Except Failure Unit × σ
  write : ByteArray → σ → Except Failure Unit × σ
  flush : σ → Except Failure Unit × σ
  finalize : (produced : Bool) → σ → Except Failure Unit × σ
  cleanup : σ → σ

inductive BackendCall where
  | openInput
  | createOutput
  | write (bytes : ByteArray)
  | flush
  | finalize (produced : Bool)
  | cleanup

inductive OutputState where
  | notCreated
  | active
  | finished
  deriving DecidableEq, Repr

structure Source (σ : Type) where
  name : String
  backend : Backend σ
  store : σ
  /-- What the live reader has still to read. -/
  reader : Option Stream := none
  /-- A writer is live while the output is active. -/
  output : OutputState := .notCreated
  closed : Bool := false
  /-- The backend calls so far, the latest first. -/
  calls : List BackendCall := []

namespace Source

variable {σ : Type}

def refuse (s : Source σ) (fault : StreamFault) : Failure :=
  Failure.ofCause (.streamState s.name fault)

/-- Notes a backend call and the store it left. -/
def called (s : Source σ) (call : BackendCall) (store : σ) : Source σ :=
  { s with store, calls := call :: s.calls }

def startInput (s : Source σ) : Except Failure Unit × Source σ :=
  if s.closed then (.error (s.refuse .closed), s)
  else if s.reader.isSome then (.error (s.refuse .inputActive), s)
  else match s.backend.openInput s.store with
    | (.ok stream, store) => (.ok (), { s.called .openInput store with reader := some stream })
    | (.error failure, store) =>
      (.error (failure.within (.openingInput s.name)), s.called .openInput store)

def releaseInput (s : Source σ) : Source σ := { s with reader := none }

/-- An attempt that fails uses up the one output, too. -/
def startOutput (s : Source σ) : Except Failure Unit × Source σ :=
  if s.closed then (.error (s.refuse .closed), s)
  else if s.output ≠ .notCreated then (.error (s.refuse .outputSpent), s)
  else match s.backend.createOutput s.store with
    | (.ok (), store) => (.ok (), { s.called .createOutput store with output := .active })
    | (.error failure, store) =>
      (.error (failure.within (.creatingOutput s.name)),
        { s.called .createOutput store with output := .finished })

/-- Writes through the live writer. There is nothing to do for no bytes. -/
def write (s : Source σ) (bytes : ByteArray) : Except Failure Unit × Source σ :=
  if bytes.isEmpty then (.ok (), s)
  else
    let (outcome, store) := s.backend.write bytes s.store
    (outcome, s.called (.write bytes) store)

def flush (s : Source σ) : Except Failure Unit × Source σ :=
  let (outcome, store) := s.backend.flush s.store
  (outcome, s.called .flush store)

def releaseOutput (s : Source σ) : Source σ := { s with output := .finished }

/-- Flushes the output and gives up the writer, whether flushing succeeds or not. -/
def finishOutput (s : Source σ) : Except Failure Unit × Source σ :=
  match s.flush with
  | (.ok (), s) => (.ok (), s.releaseOutput)
  | (.error failure, s) => (.error (failure.within (.writingOutput s.name)), s.releaseOutput)

def cleanUp (s : Source σ) : Source σ := s.called .cleanup (s.backend.cleanup s.store)

/-- Finalizes and cleans up. Closing a closed source does nothing. -/
def close (s : Source σ) : Except Failure Unit × Source σ :=
  if s.closed then (.ok (), s)
  else if s.output = .active then (.error (s.refuse .outputStillActive), s)
  else if s.reader.isSome then (.error (s.refuse .inputStillActive), s)
  else
    let produced := s.output = .finished
    let (outcome, store) := s.backend.finalize produced s.store
    let s := ({ s.called (.finalize produced) store with closed := true }).cleanUp
    match outcome with
    | .ok () => (.ok (), s)
    | .error failure => (.error (failure.within (.finalizingOutput s.name)), s)

/-- Closes without finalizing, so that what was written is discarded. -/
def abandon (s : Source σ) : Source σ :=
  if s.closed then s else ({ s with closed := true }).cleanUp

end Source

/-- What can be done with one source from outside. -/
inductive SourceOp where
  | startInput | readLine | readAll | dropInput
  | startOutput | write (bytes : ByteArray) | flush | finish | dropOutput
  | close | abandon

inductive SourceAnswer where
  | done
  | failed (failure : Failure)
  /-- The operation needs a reader or a writer and none is live. -/
  | noStream
  | text (text : String)
  deriving DecidableEq, Repr

namespace Source

variable {σ : Type}

def answer : Except Failure Unit → SourceAnswer
  | .ok () => .done
  | .error failure => .failed failure

def readWith (s : Source σ) (read : Stream → Except SystemFault (String × Stream)) :
    SourceAnswer × Source σ :=
  match s.reader with
  | none => (.noStream, s)
  | some stream =>
    match read stream with
    | .ok (text, stream) => (.text text, { s with reader := some stream })
    | .error fault => (.failed (.system fault), s)

/-- Does something with the live writer. -/
def whileWriting (s : Source σ) (act : Source σ → Except Failure Unit × Source σ) :
    SourceAnswer × Source σ :=
  if s.output = .active then
    let (outcome, s) := act s
    (answer outcome, s)
  else (.noStream, s)

def apply (s : Source σ) : SourceOp → SourceAnswer × Source σ
  | .startInput => let (outcome, s) := s.startInput; (answer outcome, s)
  | .readLine => s.readWith Stream.readLine
  | .readAll => s.readWith Stream.readAll
  | .dropInput => if s.reader.isSome then (.done, s.releaseInput) else (.noStream, s)
  | .startOutput => let (outcome, s) := s.startOutput; (answer outcome, s)
  | .write bytes => s.whileWriting fun s => s.write bytes
  | .flush => s.whileWriting Source.flush
  | .finish => s.whileWriting Source.finishOutput
  | .dropOutput => s.whileWriting fun s => (.ok (), s.releaseOutput)
  | .close => let (outcome, s) := s.close; (answer outcome, s)
  | .abandon => (.done, s.abandon)

/-- Answers to a sequence of operations. -/
def run (s : Source σ) : List SourceOp → List SourceAnswer × Source σ
  | [] => ([], s)
  | op :: ops =>
    let (first, s) := s.apply op
    let (others, s) := s.run ops
    (first :: others, s)

end Source
end UnitLink
