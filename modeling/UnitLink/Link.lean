import UnitLink.Rewriting
import UnitLink.Source.Memory
import UnitLink.Workers
/-! Linking a job: all sources are discovered and the libraries loaded, then every source is
resolved, rewritten and closed. No source has output unless its own link succeeds, and
none has if a declaration or a library is at fault.

The tasks of the second phase share the class caches and what the sources have in common;
in which order their accesses come is the schedule's choice. -/
namespace UnitLink

structure Job (τ σ : Type) where
  /-- The order of the sources is the order in which unqualified signatures search their
  classes. -/
  sources : List (Source σ)
  /-- What the sources and the loader have in common. -/
  common : τ
  libraries : List ClassName
  unresolved : Option ClassName
  context : ClassName
  workers : WorkerRequest := {}

/-- What a link spends its time on. -/
inductive Phase where
  | link | discover | loadLibraries | resolve | rewrite | shutDown
  deriving DecidableEq, Repr

inductive LogEvent where
  | warning (message : String)
  | error (message : String)
  deriving DecidableEq, Repr

structure LinkReport (τ σ : Type) where
  result : Except Stop Unit
  /-- The job's sources as the link leaves them. -/
  sources : List (Source σ)
  common : τ
  log : List LogEvent
  /-- Every run of a phase. -/
  phases : List Phase

/-- What is left of the task that links one source. -/
structure LinkedSource (σ : Type) where
  ending : Ending (Except Failure Unit)
  source : Source σ
  phases : List Phase

variable {τ σ : Type}

/-- Resolves, rewrites and closes one source, or abandons it. A crash leaves no time for
that. -/
def Source.link [CommonStore σ τ] (s : Source σ) (c : ClassUnit) (r : Resolver)
    (context : ClassName) : Session τ (LinkedSource σ) := do
  match ← s.resolve c r context with
  | (.error (.crashed message), s) => return ⟨.crashed message, s, [.resolve]⟩
  | (.error (.failed failure), s) =>
    return ⟨.returned (.error failure), s.abandon, [.resolve]⟩
  | (.ok resolution, s) =>
    match ← s.inTurn fun s => s.rewrite resolution with
    | (.error failure, s) =>
      return ⟨.returned (.error failure), s.abandon, [.resolve, .rewrite]⟩
    | (.ok (), s) =>
      match ← s.inTurn Source.close with
      | (.error failure, s) =>
        return ⟨.returned (.error failure), s.abandon, [.resolve, .rewrite]⟩
      | (.ok (), s) => return ⟨.returned (.ok ()), s, [.resolve, .rewrite]⟩

namespace LinkedSource

def label (l : LinkedSource σ) : String := s!"link {l.source.name}"

/-- The failure that joining the task gives. -/
def failure? (l : LinkedSource σ) : Option Failure :=
  match l.ending with
  | .returned (.ok ()) => none
  | .returned (.error failure) => some failure
  | .crashed _ => some (Failure.ofCause (.worker l.label))

end LinkedSource

namespace Job

/-- Loads libraries in order, up to the first that cannot be loaded. -/
def loadLibraries (loader : Loader τ) :
    List ClassName → τ → Except Stop (List ClassUnit) × τ
  | [], common => (.ok [], common)
  | name :: names, common =>
    match loader.load name common with
    | (.found c, common) =>
      let (others, common) := loadLibraries loader names common
      (others.map (c :: ·), common)
    | (.refused (.notFound _), common) =>
      (.error (.failed (.resolution (.missingLibrary name))), common)
    | (.refused (.unloadable chain), common) =>
      (.error (.failed (.resolution (.unloadableLibrary name chain))), common)
    | (.crashed message, common) => (.error (.crashed message), common)

/-- Gives back the first failure and logs the others. -/
def firstFailure : List Failure → Except Stop Unit × List LogEvent
  | [] => (.ok (), [])
  | first :: others => (.error (.failed first), others.map fun f => .error f.message)

/-- Nothing has been written yet, and nothing will be. -/
def giveUp (sources : List (Source σ)) (common : τ) (failures : List Failure) :
    LinkReport τ σ :=
  let (result, log) := firstFailure failures
  ⟨result, sources.map Source.abandon, common, log, []⟩

/-- The second phase. If any source fails, those whose tasks crashed are abandoned, too. -/
def linkSources [CommonStore σ τ] (schedule : List Nat) (loader : Loader τ) (r : Resolver)
    (context : ClassName) (discovered : List (Source σ × ClassUnit)) (common : τ) :
    LinkReport τ σ :=
  let tasks := discovered.map fun (s, c) => s.link c r context
  let (linked, shared) := Session.interleave loader schedule tasks ⟨r.caches, common⟩
  let failures := linked.filterMap LinkedSource.failure?
  let (result, log) := firstFailure failures
  let sources := linked.map LinkedSource.source
  let faults := linked.filterMap fun l => l.ending.fault? l.label
  ⟨result, if failures.isEmpty then sources else sources.map Source.abandon, shared.common,
    log ++ faults.map .error, linked.flatMap LinkedSource.phases⟩

/-- Everything after discovery and the loading of libraries. -/
def linkDiscovered [CommonStore σ τ] (schedule : List Nat) (loader : Loader τ) (job : Job τ σ)
    (discovered : List (Source σ × ClassUnit)) (libraries : List ClassUnit) (common : τ) :
    LinkReport τ σ :=
  let classes := discovered.map fun (s, c) => Discovered.mk s.name c
  match Resolver.build classes libraries job.unresolved loader with
  | .error failure => giveUp (discovered.map Prod.fst) common [failure]
  | .ok r =>
    let report := linkSources schedule loader r job.context discovered common
    let warnings := (Resolver.shadowed classes libraries).map fun s => LogEvent.warning s.message
    { report with log := warnings ++ report.log }

/-- The first phase, and the second if it comes to that. -/
def linkPhases [CommonStore σ τ] (schedule : List Nat) (loader : Loader τ) (job : Job τ σ) :
    LinkReport τ σ :=
  let discoveries := job.sources.map Source.discover
  let sources := discoveries.map Prod.snd
  let failures := discoveries.filterMap fun (outcome, _) => failure? outcome
  match loadLibraries loader job.libraries.eraseDups job.common with
  | (.error (.crashed message), common) => ⟨.error (.crashed message), sources, common, [], []⟩
  | (.error (.failed failure), common) => giveUp sources common (failures ++ [failure])
  | (.ok libraries, common) =>
    if failures.isEmpty then
      let discovered := discoveries.filterMap fun (outcome, s) =>
        outcome.toOption.map fun c => (s, c)
      linkDiscovered schedule loader job discovered libraries common
    else giveUp sources common failures
where
  failure? : Except Failure ClassUnit → Option Failure
    | .ok _ => none
    | .error failure => some failure

/-- Links the job under a schedule. The number of workers bounds how many tasks run at a time
and thereby which schedules there are; without workers nothing is touched. -/
def link [CommonStore σ τ] (schedule : List Nat) (loader : Loader τ) (job : Job τ σ) :
    LinkReport τ σ :=
  match job.workers.start job.workers.threads with
  | .error chain =>
    ⟨.error (.failed (.ofCause (.noWorkers chain))), job.sources, job.common, [], [.link]⟩
  | .ok () =>
    let report := job.linkPhases schedule loader
    let first := Phase.link :: job.sources.map fun _ => Phase.discover
    { report with phases := first ++ [.loadLibraries] ++ report.phases ++ [.shutDown] }

end Job

/-- The texts of the outputs that a link of sources in memory leaves. -/
def LinkReport.outputs (report : LinkReport τ MemoryStore) : List (Option String) :=
  report.sources.map Source.outputText?

end UnitLink
