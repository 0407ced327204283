import UnitLink.Source.Basic
/-! Passes over a source: its lines are visited in order, each with its number and its
directive. The first line that cannot be read, holds a malformed directive or is refused
by the visitor ends the pass, and the error tells the line. The reader is given up however
the pass ends. -/
namespace UnitLink

structure Line where
  /-- Lines are numbered from 1; thirty-two bits hold the numbers of fewer than 2 ^ 32 lines. -/
  number : Nat
  text : String
  directive : Option Directive
  deriving DecidableEq, Repr

/-- A read line with its directive. -/
def Line.read (number : Nat) : Except SystemFault String → Except Failure Line
  | .error fault => .error (.system fault)
  | .ok text =>
    match Directive.parse text with
    | .error fault => .error (.declaration (.badDirective fault))
    | .ok directive => .ok ⟨number, text, directive⟩

variable {m : Type → Type} [Monad m] {ε : Type} [Located ε] {α σ : Type}

/-- Visits numbered lines until one stops the pass; the visitor's state is kept in
either case. -/
def visitLines (source : String) (visit : Line → α → m (Except ε Unit × α)) :
    Nat → List (Except SystemFault String) → α → m (Except ε Unit × α)
  | _, [], state => pure (.ok (), state)
  | number, line :: lines, state =>
    match Line.read number line with
    | .error failure =>
      pure (.error (Located.locate ⟨source, number⟩ (Located.ofFailure failure)), state)
    | .ok line => do
      match ← visit line state with
      | (.error e, state) => pure (.error (Located.locate ⟨source, number⟩ e), state)
      | (.ok (), state) => visitLines source visit (number + 1) lines state

namespace Source

/-- The pass that follows an attempt to start the input. Its visitor works on the source
itself, whose reader is live. -/
def visitStarted (visit : Line → Source σ × α → m (Except ε Unit × Source σ × α)) (state : α) :
    Except Failure Unit × Source σ → m (Except ε Unit × Source σ × α)
  | (.error failure, s) => pure (.error (Located.ofFailure failure), s, state)
  | (.ok (), s) => do
    let lines := (s.reader.map Stream.lines).getD []
    let (outcome, s, state) ← UnitLink.visitLines s.name visit 1 lines (s, state)
    pure (outcome, s.releaseInput, state)

/-- A visitor that only reads leaves the source as it is. -/
def reading (visit : Line → α → m (Except ε Unit × α)) (line : Line) :
    Source σ × α → m (Except ε Unit × Source σ × α)
  | (s, state) => do
    let (outcome, state) ← visit line state
    pure (outcome, s, state)

/-- A pass whose visitor works on the source itself. -/
def visitOwnLines (s : Source σ)
    (visit : Line → Source σ × α → m (Except ε Unit × Source σ × α)) (state : α) :
    m (Except ε Unit × Source σ × α) :=
  visitStarted visit state s.startInput

/-- A pass that only reads. -/
def visitLines (s : Source σ) (visit : Line → α → m (Except ε Unit × α)) (state : α) :
    m (Except ε Unit × Source σ × α) :=
  s.visitOwnLines (reading visit) state

end Source
end UnitLink
