import UnitLink.Loader
import UnitLink.Reference
/-! Conversations with what the tasks of a job share.

The tasks share the classes loaded so far, the references that unqualified signatures
resolved to, and the store that the sources and the metadata loader have in common, such
as the tree of files that they read and write. A session is what one task does with these:
a tree of accesses, each of which waits for its answer. Sessions run one after the other
or interleaved, step by step, in any order. -/
namespace UnitLink

/-- One access to what the tasks share. -/
inductive SharedOp (τ : Type) where
  /-- Reads the loaded class of a name. -/
  | loaded (name : ClassName)
  /-- Asks the metadata loader. -/
  | load (name : ClassName)
  /-- Enters a loaded class unless the name has one by now; answers with the entry. -/
  | keep (name : ClassName) (c : ClassUnit)
  /-- Reads what an unqualified signature resolved to. -/
  | known (kind : MemberKind) (signature : String)
  | remember (kind : MemberKind) (signature : String) (reference : Reference kind)
  /-- Changes the common store; answers with what it was. -/
  | exchange (update : τ → τ)

variable {τ : Type}

def SharedOp.Answer : SharedOp τ → Type
  | loaded _ => Option ClassUnit
  | load _ => LoadAnswer
  | keep .. => ClassUnit
  | known kind _ => Option (Reference kind)
  | remember .. => Unit
  | exchange _ => τ

structure Caches where
  classes : List (ClassName × ClassUnit)
  methods : List (String × Reference .method)
  fields : List (String × Reference .field)
  deriving DecidableEq, Repr

namespace Caches

/-- Classes are entered under their own names, a later one in place of an earlier. -/
def ofClasses (classes : List ClassUnit) : Caches :=
  ⟨classes.reverse.map fun c => (c.name, c), [], []⟩

/-- Enters a class unless its name has one, and gives the entry. -/
def keep (caches : Caches) (name : ClassName) (c : ClassUnit) : ClassUnit × Caches :=
  match caches.classes.lookup name with
  | some entered => (entered, caches)
  | none => (c, { caches with classes := (name, c) :: caches.classes })

def references (caches : Caches) : (kind : MemberKind) → List (String × Reference kind)
  | .method => caches.methods
  | .field => caches.fields

def remember (caches : Caches) (kind : MemberKind) (signature : String)
    (reference : Reference kind) : Caches :=
  match kind with
  | .method => { caches with methods := (signature, reference) :: caches.methods }
  | .field => { caches with fields := (signature, reference) :: caches.fields }

end Caches

structure Shared (τ : Type) where
  caches : Caches
  common : τ

/-- One access, the loader answering from the common store. -/
def Shared.access (loader : Loader τ) (shared : Shared τ) :
    (op : SharedOp τ) → op.Answer × Shared τ
  | .loaded name => (shared.caches.classes.lookup name, shared)
  | .load name =>
    let (answer, common) := loader.load name shared.common
    (answer, { shared with common })
  | .keep name c =>
    let (entry, caches) := shared.caches.keep name c
    (entry, { shared with caches })
  | .known kind signature => ((shared.caches.references kind).lookup signature, shared)
  | .remember kind signature reference =>
    ((), { shared with caches := shared.caches.remember kind signature reference })
  | .exchange update => (shared.common, { shared with common := update shared.common })

inductive Session (τ α : Type) where
  | done (value : α)
  | ask (op : SharedOp τ) (next : op.Answer → Session τ α)

namespace Session

variable {α β : Type}

def bind : Session τ α → (α → Session τ β) → Session τ β
  | done value, f => f value
  | ask op next, f => ask op fun answer => (next answer).bind f

instance : Monad (Session τ) where
  pure := done
  bind := bind

def access (op : SharedOp τ) : Session τ op.Answer := ask op done

/-- Does something with the common store, in one access. -/
def exchange (act : τ → α × τ) : Session τ α :=
  ask (.exchange fun common => (act common).2) fun common => done (act common).1

/-- Runs a session to its end with nobody else at what it shares. -/
def run (loader : Loader τ) : Session τ α → Shared τ → α × Shared τ
  | done value, shared => (value, shared)
  | ask op next, shared =>
    let (answer, shared) := shared.access loader op
    (next answer).run loader shared

/-- One access of a session; a session that is done stays so. -/
def step (loader : Loader τ) : Session τ α → Shared τ → Session τ α × Shared τ
  | done value, shared => (done value, shared)
  | ask op next, shared =>
    let (answer, shared) := shared.access loader op
    (next answer, shared)

/-- Runs all sessions to their ends, one after the other. -/
def runEach (loader : Loader τ) : List (Session τ α) → Shared τ → List α × Shared τ
  | [], shared => ([], shared)
  | first :: others, shared =>
    let (value, shared) := first.run loader shared
    let (values, shared) := runEach loader others shared
    (value :: values, shared)

/-- Interleaves sessions: the schedule names the session that makes each next access. When
the schedule is over the sessions are run to their ends in order, so every schedule is
complete, and every interleaving of accesses is that of some schedule. -/
def interleave (loader : Loader τ) :
    (schedule : List Nat) → List (Session τ α) → Shared τ → List α × Shared τ
  | [], sessions, shared => runEach loader sessions shared
  | turn :: schedule, sessions, shared =>
    match sessions[turn]? with
    | none => interleave loader schedule sessions shared
    | some session =>
      let (session, shared) := session.step loader shared
      interleave loader schedule (sessions.set turn session) shared

theorem bind_done (s : Session τ α) : s.bind done = s := by
  induction s with
  | done => rfl
  | ask op next ih => simp only [bind]; congr; funext answer; exact ih answer

theorem bind_assoc {γ : Type} (s : Session τ α) (f : α → Session τ β) (g : β → Session τ γ) :
    (s.bind f).bind g = s.bind fun a => (f a).bind g := by
  induction s with
  | done => rfl
  | ask op next ih => simp only [bind]; congr; funext answer; exact ih answer

instance : LawfulMonad (Session τ) :=
  LawfulMonad.mk' (Session τ) bind_done (fun _ _ => rfl) bind_assoc

@[simp] theorem run_bind (loader : Loader τ) (s : Session τ α) (f : α → Session τ β)
    (shared : Shared τ) :
    (s >>= f).run loader shared =
      let (a, shared) := s.run loader shared
      (f a).run loader shared := by
  show (s.bind f).run loader shared = _
  induction s generalizing shared with
  | done => rfl
  | ask op next ih => exact ih _ _

@[simp] theorem run_exchange (loader : Loader τ) (act : τ → α × τ) (shared : Shared τ) :
    (exchange act).run loader shared =
      ((act shared.common).1, { shared with common := (act shared.common).2 }) := rfl

@[simp] theorem interleave_nil (loader : Loader τ) (sessions : List (Session τ α))
    (shared : Shared τ) :
    interleave loader [] sessions shared = runEach loader sessions shared := rfl

end Session
end UnitLink
