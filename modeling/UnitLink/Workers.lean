/-! A pool of workers. Tasks run on workers and hand their results back through handles.
A task that crashes leaves its handle without a result and queues a fault; faults are
collected when the pool is shut down.

The moves of workers, of those who join tasks and of the one who shuts the pool down come
in any order that their conditions allow; a move whose condition does not hold does
nothing. -/
namespace UnitLink

inductive Ending (α : Type) where
  | returned (value : α)
  | crashed (message : String)
  deriving DecidableEq, Repr

/-- What joining a task gives when it has ended. -/
def Ending.joined {α ε : Type} (noResult : ε) : Ending α → Except ε α
  | returned value => .ok value
  | crashed _ => .error noResult

/-- The fault that a task leaves behind. -/
def Ending.fault? {α : Type} (label : String) : Ending α → Option String
  | returned _ => none
  | crashed message => some s!"task `{label}` panicked: {message}"

/-- What is asked of the system before there is a pool. -/
structure WorkerRequest where
  /-- As many workers as the machine has processors, unless given. -/
  threads : Option Nat := none
  /-- Starts so many workers; the messages of a refusal, outermost first. -/
  start : Option Nat → Except (List String) Unit := fun _ => .ok ()

/-- The pool can be built. -/
def WorkerRequest.Granted (w : WorkerRequest) : Prop := w.start w.threads = .ok ()

/-- How far a worker has come with a task. -/
inductive TaskStage where
  | running
  /-- The result is sent or the fault is queued. -/
  | ended
  /-- The task no longer counts as in flight. -/
  | landed
  /-- The handle's other side is gone. -/
  | gone
  deriving DecidableEq, Repr

structure WorkerTask (α : Type) where
  label : String
  /-- How the task ends, if it ever does. -/
  ending : Option (Ending α)
  stage : TaskStage := .running
  deriving DecidableEq, Repr

inductive ShutdownStage where
  | notBegun
  | waiting
  | draining
  | over
  deriving DecidableEq, Repr

structure WorkerPool (α : Type) where
  tasks : List (WorkerTask α)
  /-- Queued faults, the oldest first. -/
  queued : List String := []
  shutdown : ShutdownStage := .notBegun
  timedOut : Bool := false
  /-- The faults that shutting down has collected. -/
  collected : List String := []
  deriving DecidableEq, Repr

inductive PoolMove where
  | endTask (i : Nat)
  | land (i : Nat)
  | hangUp (i : Nat)
  | beginShutdown
  /-- Nothing is in flight any more. -/
  | allLanded
  /-- The time to wait for tasks is over. -/
  | expire
  | collect
  | endShutdown
  deriving DecidableEq, Repr

namespace WorkerPool

variable {α : Type}

/-- A pool with tasks under labels. -/
def submit (tasks : List (String × Option (Ending α))) : WorkerPool α :=
  { tasks := tasks.map fun (label, ending) => { label, ending } }

def inFlight (t : WorkerTask α) : Bool := t.stage = .running || t.stage = .ended

/-- Moves a task on from one stage to the next. -/
def advance (p : WorkerPool α) (i : Nat) (old new : TaskStage) : WorkerPool α :=
  { p with tasks := p.tasks.modify i fun t => if t.stage = old then { t with stage := new } else t }

def endTask (p : WorkerPool α) (i : Nat) : WorkerPool α :=
  match p.tasks[i]? with
  | some { label, ending := some ending, stage := .running } =>
    { p.advance i .running .ended with queued := p.queued ++ (ending.fault? label).toList }
  | _ => p

def step (p : WorkerPool α) : PoolMove → WorkerPool α
  | .endTask i => p.endTask i
  | .land i => p.advance i .ended .landed
  | .hangUp i => p.advance i .landed .gone
  | .beginShutdown => if p.shutdown = .notBegun then { p with shutdown := .waiting } else p
  | .allLanded =>
    if p.shutdown = .waiting ∧ ¬p.tasks.any inFlight then { p with shutdown := .draining } else p
  | .expire =>
    if p.shutdown = .waiting ∧ p.tasks.any inFlight then
      { p with shutdown := .draining, timedOut := true }
    else p
  | .collect =>
    match p.shutdown, p.queued with
    | .draining, fault :: rest =>
      { p with queued := rest, collected := p.collected ++ [fault] }
    | _, _ => p
  | .endShutdown =>
    if p.shutdown = .draining ∧ p.queued = [] then { p with shutdown := .over } else p

def run (p : WorkerPool α) (moves : List PoolMove) : WorkerPool α := moves.foldl step p

/-- What joining a task gives, once it gives anything. -/
def join? {ε : Type} (p : WorkerPool α) (noResult : String → ε) (i : Nat) :
    Option (Except ε α) :=
  match p.tasks[i]? with
  | some { label, ending := some ending, stage } =>
    match ending, stage with
    | _, .running => none
    | .returned value, _ => some (.ok value)
    | .crashed _, .gone => some (.error (noResult label))
    | .crashed _, _ => none
  | _ => none

/-- One order of moves: the tasks that end do so one after the other, and then the pool is
shut down. -/
def inOrder (p : WorkerPool α) : List PoolMove :=
  (List.range p.tasks.length).flatMap (fun i => [.endTask i, .land i, .hangUp i]) ++
    [.beginShutdown, .allLanded, .expire] ++ List.replicate p.tasks.length .collect ++
    [.endShutdown]

end WorkerPool

/-- The warning of a shutdown that did not wait for all tasks. -/
def shutdownWarning (milliseconds : Nat) : String :=
  s!"worker tasks still running after {milliseconds}ms, shutting down anyway"

end UnitLink
