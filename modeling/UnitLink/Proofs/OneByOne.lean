import UnitLink.Proofs.Jobs
import UnitLink.Proofs.LifeCycle
import UnitLink.Proofs.Settling
/-! Links of sources in memory are deterministic. Whatever the schedule, a link gives back what
it would if everything were done one by one: the sources discovered and the libraries loaded
in order, and then each source resolved, rewritten and closed as if there were no others. -/
namespace UnitLink

namespace Source

/-- Resolves, rewrites and closes one source with nobody else at the caches. -/
def linkAlone (s : Source MemoryStore) (c : ClassUnit) (r : Resolver) (context : ClassName)
    (loader : Loader Unit) : Except Failure String :=
  match ((s.resolve c r context).run loader ⟨r.caches, ()⟩).1 with
  | (.error (.crashed _), s) => .error (Failure.ofCause (.worker s!"link {s.name}"))
  | (.error (.failed failure), _) => .error failure
  | (.ok resolution, s) =>
    match s.rewrite resolution with
    | (.error failure, _) => .error failure
    | (.ok (), s) =>
      match s.close with
      | (.error failure, _) => .error failure
      | (.ok (), s) => .ok (s.outputText?.getD "")

end Source

namespace Job

def discoverAll (job : Job Unit MemoryStore) :
    Except Stop (List (Source MemoryStore × ClassUnit)) :=
  job.sources.mapM fun s =>
    match s.discover with
    | (.ok c, s) => .ok (s, c)
    | (.error failure, _) => .error (.failed failure)

/-- Everything that comes before the first source is resolved. -/
def beginOneByOne (loader : Loader Unit) (job : Job Unit MemoryStore) :
    Except Stop (List (Source MemoryStore × ClassUnit) × Resolver) := do
  let discovered ← job.discoverAll
  let libraries ← (loadLibraries loader job.libraries.eraseDups job.common).1
  let classes := discovered.map fun x => Discovered.mk x.1.name x.2
  let r ← (Resolver.build classes libraries job.unresolved loader).mapError .failed
  return (discovered, r)

def firstError : List (Except Failure String) → Except Stop Unit
  | [] => .ok ()
  | .ok _ :: others => firstError others
  | .error failure :: _ => .error (.failed failure)

/-- Links a job one thing after the other: the result, and the text of each source that has
one. -/
def linkOneByOne (loader : Loader Unit) (job : Job Unit MemoryStore) :
    Except Stop Unit × List (Option String) :=
  match job.beginOneByOne loader with
  | .error stop => (.error stop, job.sources.map fun _ => none)
  | .ok (discovered, r) =>
    let linked := discovered.map fun x => x.1.linkAlone x.2 r job.context loader
    (firstError linked, linked.map Except.toOption)

end Job

/-! ### Texts -/

namespace Source

/-- A source in memory without an output text. -/
structure Unfinished (s : Source MemoryStore) : Prop where
  backend_eq : s.backend = MemoryStore.backend
  no_text : s.outputText? = none

variable {s : Source MemoryStore}

theorem unfinished_inMemory (name text : String) : (inMemory name text).Unfinished := ⟨rfl, rfl⟩

theorem withCommon_self (s : Source MemoryStore) (common : Unit) :
    ({ s with store := CommonStore.withCommon common s.store } : Source MemoryStore) = s := rfl

theorem Unfinished.startInput (h : s.Unfinished) : s.startInput.2.Unfinished := by
  unfold Source.startInput
  split
  · exact h
  · split
    · exact h
    · rw [h.backend_eq]
      exact ⟨h.backend_eq, h.no_text⟩

theorem Unfinished.releaseInput (h : s.Unfinished) : s.releaseInput.Unfinished :=
  ⟨h.backend_eq, h.no_text⟩

theorem Unfinished.write (h : s.Unfinished) (bytes : ByteArray) :
    (s.write bytes).2.Unfinished := by
  unfold Source.write
  split
  · exact h
  · rw [h.backend_eq]
    exact ⟨h.backend_eq, h.no_text⟩

theorem Unfinished.discover (h : s.Unfinished) : s.discover.2.Unfinished :=
  discover_keeps h.startInput.releaseInput fun _ _ => h.startInput

theorem Unfinished.resolve (h : s.Unfinished) (c : ClassUnit) (r : Resolver)
    (context : ClassName) :
    (s.resolve c r context).Meets Protocol.any fun result => result.2.Unfinished :=
  resolve_keeps (fun _ => h.startInput.releaseInput) (fun _ _ _ => h.startInput) c r context

theorem Unfinished.startOutput (h : s.Unfinished) : s.startOutput.2.Unfinished := by
  unfold Source.startOutput
  split
  · exact h
  · split
    · exact h
    · rw [h.backend_eq]
      exact ⟨h.backend_eq, h.no_text⟩

theorem Unfinished.finishOutput (h : s.Unfinished) : s.finishOutput.2.Unfinished := by
  unfold Source.finishOutput Source.flush
  rw [h.backend_eq]
  exact ⟨h.backend_eq, h.no_text⟩

theorem Unfinished.rewrite (h : s.Unfinished) (resolution : Resolution) :
    (s.rewrite resolution).2.Unfinished := by
  have hstarted := h.startOutput
  unfold Source.rewrite
  generalize s.startOutput = started at hstarted
  obtain ⟨failure | done, opened⟩ := started
  · exact hstarted
  · have hpass := rewritePass_keeps Unfinished (fun _ bytes h => h.write bytes)
      (fun _ h => h.releaseInput) hstarted.startInput resolution
    unfold Source.rewritePass at hpass
    simp only
    generalize visitOwnLines (m := Id) opened (rewriteLine resolution) LineCursor.start = pass
      at hpass
    obtain ⟨failure | done, rewritten, cursor⟩ := pass
    · exact ⟨hpass.backend_eq, hpass.no_text⟩
    · exact hpass.finishOutput

theorem Unfinished.close (h : s.Unfinished) (hclosed : s.closed = false)
    (houtput : s.output = .finished) (hreader : s.reader = none) :
    s.close.2.backend = MemoryStore.backend ∧
      match s.close.1 with
      | .ok () => ∃ text, s.close.2.outputText? = some text
      | .error _ => s.close.2.outputText? = none := by
  have houtcome : (s.backend.finalize true s.store).1 = (MemoryStore.finalize true s.store).1 := by
    rw [h.backend_eq]
    rfl
  have hstore : (s.backend.cleanup (s.backend.finalize true s.store).2).finished =
      (MemoryStore.finalize true s.store).2.finished := by
    rw [h.backend_eq]
    rfl
  unfold Source.close
  rw [hclosed, houtput, hreader]
  simp only [Bool.false_eq_true, if_false, reduceCtorEq, Option.isSome_none, decide_true]
  rw [houtcome]
  unfold MemoryStore.finalize at hstore ⊢
  rw [if_pos rfl] at hstore ⊢
  cases htext : String.fromUTF8? s.store.staged with
  | none =>
    rw [htext] at hstore
    exact ⟨h.backend_eq, hstore.trans h.no_text⟩
  | some text =>
    rw [htext] at hstore
    exact ⟨h.backend_eq, text, hstore⟩

theorem outputText?_abandon (h : s.backend = MemoryStore.backend) :
    s.abandon.outputText? = s.outputText? := by
  unfold abandon
  split
  · rfl
  · show (s.backend.cleanup s.store).finished = s.store.finished
    rw [h]
    rfl

theorem backend_abandon : s.abandon.backend = s.backend := by
  unfold abandon
  split
  · rfl
  · rfl

end Source

/-! ### Single sources -/

/-- A task leaves what the source comes to alone. -/
structure LinkedSource.Matches (l : LinkedSource MemoryStore) (alone : Except Failure String) :
    Prop where
  failure_eq : l.failure? = match alone with
    | .ok _ => none
    | .error failure => some failure
  text_eq : l.source.outputText? = alone.toOption
  backend_eq : l.source.backend = MemoryStore.backend

theorem Source.link_matches {s : Source MemoryStore} (h : s.Unwritten) (hunfinished : s.Unfinished)
    (c : ClassUnit) (r : Resolver) (context : ClassName) (loader : Loader Unit) :
    ((s.link c r context).run loader ⟨r.caches, ()⟩).1.Matches
      (s.linkAlone c r context loader) := by
  have hkept : ((s.resolve c r context).run loader ⟨r.caches, ()⟩).1.2.Unwritten ∧
      ((s.resolve c r context).run loader ⟨r.caches, ()⟩).1.2.Unfinished :=
    (((h.resolve c r context).and (hunfinished.resolve c r context)).run
      (Session.any_keeps loader) trivial).1
  unfold Source.link linkAlone
  rw [Session.run_bind]
  generalize (s.resolve c r context).run loader ⟨r.caches, ()⟩ = run at hkept ⊢
  obtain ⟨⟨(failure | message) | resolution, resolved⟩, shared⟩ := run
  · obtain ⟨-, hresolved⟩ := hkept
    exact ⟨rfl, (outputText?_abandon hresolved.backend_eq).trans hresolved.no_text,
      backend_abandon.trans hresolved.backend_eq⟩
  · obtain ⟨-, hresolved⟩ := hkept
    exact ⟨rfl, hresolved.no_text, hresolved.backend_eq⟩
  · obtain ⟨hunwritten, hresolved⟩ := hkept
    have hrewritten := hresolved.rewrite resolution
    obtain ⟨hpending, hready⟩ := hunwritten.rewrite resolution
    simp only [Session.run_bind, run_inTurn]
    rw [withCommon_self resolved]
    generalize resolved.rewrite resolution = rewriting at hrewritten hpending hready ⊢
    obtain ⟨failure | done, rewritten⟩ := rewriting
    · exact ⟨rfl, (outputText?_abandon hrewritten.backend_eq).trans hrewritten.no_text,
        backend_abandon.trans hrewritten.backend_eq⟩
    · obtain ⟨houtput, hreader⟩ := hready rfl
      obtain ⟨hbackend, htext⟩ := hrewritten.close hpending.not_closed houtput hreader
      simp only [Session.run_bind, run_inTurn]
      rw [withCommon_self rewritten]
      generalize rewritten.close = closing at hbackend htext ⊢
      obtain ⟨failure | done, closed⟩ := closing
      · exact ⟨rfl, (outputText?_abandon hbackend).trans htext, backend_abandon.trans hbackend⟩
      · obtain ⟨text, htext⟩ := htext
        refine ⟨rfl, ?_, hbackend⟩
        show closed.outputText? = some (closed.outputText?.getD "")
        rw [htext]
        rfl

/-! ### Jobs -/

namespace Job

theorem firstError_eq {linked : List (LinkedSource MemoryStore)}
    {alone : List (Except Failure String)} (h : List.Forall₂ LinkedSource.Matches linked alone) :
    firstError alone = (firstFailure (linked.filterMap LinkedSource.failure?)).1 := by
  induction h with
  | nil => rfl
  | @cons l outcome linked alone hfirst _ ih =>
    rw [List.filterMap_cons, hfirst.failure_eq]
    cases outcome with
    | error failure => rfl
    | ok text => exact ih

/-- In every interleaving, a second phase ends as if each source were alone. -/
theorem linkSources_eq_alone (schedule : List Nat) (load : ClassName → LoadAnswer) (size : Nat)
    (r : Resolver) (context : ClassName) {discovered : List (Source MemoryStore × ClassUnit)}
    (common : Unit) (h : ∀ x ∈ discovered, x.1.Unwritten ∧ x.1.Unfinished) :
    (linkSources schedule (.fixed load size) r context discovered common).result =
        firstError (discovered.map fun x => x.1.linkAlone x.2 r context (.fixed load size)) ∧
      (linkSources schedule (.fixed load size) r context discovered common).outputs =
        (discovered.map fun x => x.1.linkAlone x.2 r context (.fixed load size)).map
          Except.toOption := by
  have hvalues := Session.settled_interleave_map (r.protocol_keeps (.fixed load size)) schedule
    (fun x (_ : x ∈ discovered) => x.1.link_settled x.2 r context) ⟨r.caches, common⟩
    (r.faithful_start _ common)
  have hmatches : List.Forall₂ LinkedSource.Matches
      (Session.interleave (.fixed load size) schedule
        (discovered.map fun x => x.1.link x.2 r context) ⟨r.caches, common⟩).1
      (discovered.map fun x => x.1.linkAlone x.2 r context (.fixed load size)) := by
    rw [hvalues, List.forall₂_map_left_iff, List.forall₂_map_right_iff, List.forall₂_same]
    intro x hx
    obtain ⟨hunwritten, hunfinished⟩ := h x hx
    exact x.1.link_matches hunwritten hunfinished x.2 r context _
  unfold linkSources LinkReport.outputs
  simp only
  generalize (Session.interleave _ schedule _ _).1 = linked at hmatches ⊢
  refine ⟨(firstError_eq hmatches).symm, ?_⟩
  have htexts : linked.map (fun l => l.source.outputText?) = (discovered.map fun x =>
      x.1.linkAlone x.2 r context (.fixed load size)).map Except.toOption := by
    rw [← List.forall₂_eq_eq_eq, List.forall₂_map_left_iff, List.forall₂_map_right_iff]
    exact hmatches.imp fun _ _ hl => hl.text_eq
  rw [← htexts]
  split
  · rw [List.map_map]
    rfl
  · rw [List.map_map, List.map_map]
    refine List.map_congr_left fun l hl => ?_
    obtain ⟨i, hi, rfl⟩ := List.getElem_of_mem hl
    exact Source.outputText?_abandon (hmatches.get hi (hmatches.length_eq ▸ hi)).backend_eq

variable {job : Job Unit MemoryStore}

theorem discoverAll_eq (job : Job Unit MemoryStore) :
    job.discoverAll = match job.discoveryFailures with
      | [] => .ok job.discovered
      | first :: _ => .error (.failed first) := by
  unfold discoverAll discoveryFailures Job.discovered
  generalize job.sources = sources
  induction sources with
  | nil => rfl
  | cons s sources ih =>
    rw [List.mapM_cons, ih, List.map_cons]
    obtain ⟨failure | c, after⟩ := s.discover
    · rfl
    · simp only [List.filterMap_cons, linkPhases.failure?, Except.toOption, Option.map_some]
      generalize (sources.map Source.discover).filterMap _ = failures
      cases failures with
      | nil => rfl
      | cons first others => rfl

theorem Begins.beginOneByOne {loader : Loader Unit}
    {discovered : List (Source MemoryStore × ClassUnit)} {r : Resolver} {common : Unit}
    (h : job.Begins loader discovered r common) :
    job.beginOneByOne loader = .ok (discovered, r) := by
  obtain ⟨hfailures, hdiscovered⟩ := discoveryFailures_eq_nil h.discovered_eq
  obtain ⟨libraries, hloaded, hbuild⟩ := h.built
  unfold Job.beginOneByOne
  rw [discoverAll_eq, hfailures, hdiscovered, hloaded]
  show ((Resolver.build (discovered.map fun x => ⟨x.1.name, x.2⟩) libraries job.unresolved
    loader).mapError Stop.failed >>= fun r => pure (discovered, r)) = _
  rw [hbuild]
  rfl

theorem GivesUp.beginOneByOne {loader : Loader Unit} {failures : List Failure}
    (h : job.GivesUp loader failures) :
    ∃ first others, failures = first :: others ∧
      job.beginOneByOne loader = .error (.failed first) := by
  have hdiscovery : ∀ first others, job.discoveryFailures = first :: others →
      job.beginOneByOne loader = .error (.failed first) := by
    intro first others hfailures
    unfold Job.beginOneByOne
    rw [discoverAll_eq, hfailures]
    rfl
  cases h with
  | @library failure common hloaded =>
    cases hfailures : job.discoveryFailures with
    | nil =>
      refine ⟨failure, [], rfl, ?_⟩
      unfold Job.beginOneByOne
      rw [discoverAll_eq, hfailures, hloaded]
      rfl
    | cons first others =>
      exact ⟨first, others ++ [failure], rfl, hdiscovery first others hfailures⟩
  | discovery _ hfailed =>
    obtain ⟨first, others, hfailures⟩ := List.exists_cons_of_ne_nil hfailed
    exact ⟨first, others, hfailures, hdiscovery first others hfailures⟩
  | @build libraries common failure hloaded hfailures hbuild =>
    refine ⟨failure, [], rfl, ?_⟩
    unfold Job.beginOneByOne
    rw [discoverAll_eq, hfailures, hloaded]
    show ((Resolver.build (job.discovered.map fun x => ⟨x.1.name, x.2⟩) libraries job.unresolved
      loader).mapError Stop.failed >>= fun r => pure (job.discovered, r)) = _
    rw [hbuild]
    rfl

/-- A link of sources in memory, with as many workers as it asks for and a loader whose answers do
not change, depends neither on their number nor on its schedule: its result and its texts are
those of linking one by one. -/
theorem link_eq_oneByOne (schedule : List Nat) (load : ClassName → LoadAnswer) (size : Nat)
    (job : Job Unit MemoryStore) (hstarted : job.workers.Granted)
    (hmemory : ∀ s ∈ job.sources, ∃ name text, s = Source.inMemory name text)
    (hlibraries : ∀ name ∈ job.libraries, ∀ message, load name ≠ .crashed message) :
    ((job.link schedule (.fixed load size)).result,
      (job.link schedule (.fixed load size)).outputs) = job.linkOneByOne (.fixed load size) := by
  have hready : ∀ s ∈ job.sources, s.discover.2.Unwritten ∧ s.discover.2.Unfinished := by
    intro s hs
    obtain ⟨name, text, rfl⟩ := hmemory s hs
    have hfresh : (Source.inMemory name text).Fresh := ⟨rfl, rfl, rfl, rfl⟩
    exact ⟨hfresh.unwritten.discover, (Source.unfinished_inMemory name text).discover⟩
  unfold linkOneByOne
  rcases begins_or_gives_up schedule hstarted (.fixed load size) with
    ⟨discovered, r, common, hbegins⟩ | ⟨message, -, hcrashed⟩ |
      ⟨failures, hgives, hresult, hsources⟩
  · obtain ⟨hresult, hsources, -⟩ := hbegins.link_eq schedule
    have hdiscovered : ∀ x ∈ discovered, x.1.Unwritten ∧ x.1.Unfinished := by
      intro x hx
      obtain ⟨s, hs, heq⟩ := hbegins.exists_source hx
      have := hready s hs
      rwa [heq] at this
    obtain ⟨halone, htexts⟩ :=
      linkSources_eq_alone schedule load size r job.context common hdiscovered
    rw [hbegins.beginOneByOne, LinkReport.outputs, hresult, hsources]
    exact Prod.ext halone htexts
  · exact absurd hcrashed
      (link_returns schedule (fun name hname _ => hlibraries name hname) message)
  · obtain ⟨first, others, rfl, hbegun⟩ := hgives.beginOneByOne
    rw [hbegun, LinkReport.outputs, hresult, hsources]
    refine Prod.ext rfl ?_
    rw [List.map_map, List.map_map]
    refine List.map_congr_left fun s hs => ?_
    have hunfinished := (hready s hs).2
    exact (Source.outputText?_abandon hunfinished.backend_eq).trans hunfinished.no_text

/-- Two sources in memory. The first refers to a method of the second, which refers to a class
that nobody has. -/
def memoryPair : Job Unit MemoryStore where
  sources := [
    Source.inMemory "a.j" ";@class|name=A\n;@class-of|sig=B.m()V\n",
    Source.inMemory "b.j"
      ";@class|name=B\n;@method|flags=public|sig=m()V\n;@class-of|sig=C.m()V\n"]
  common := ()
  libraries := [.ofString "Lib"]
  unresolved := none
  context := .ofString "Context"
  workers := {
    threads := some 3
    start := fun threads =>
      if threads.getD 1 ≤ 4096 then .ok ()
      else .error ["Resource temporarily unavailable (os error 11)"] }

def oneClass : ClassLibrary := ⟨[⟨⟨.ofString "Lib", .empty, none, []⟩, [], []⟩]⟩

theorem link_eq_oneByOne_memoryPair :
    memoryPair.workers.Granted ∧
      (∀ s ∈ memoryPair.sources, ∃ name text, s = Source.inMemory name text) ∧
      (∀ name ∈ memoryPair.libraries, ∀ message, oneClass.load name ≠ .crashed message) ∧
      ((memoryPair.link [1, 0, 1] (.fixed oneClass.load 1)).result,
        (memoryPair.link [1, 0, 1] (.fixed oneClass.load 1)).outputs) =
          memoryPair.linkOneByOne (.fixed oneClass.load 1) := by
  have hmemory : ∀ s ∈ memoryPair.sources, ∃ name text, s = Source.inMemory name text := by
    intro s hs
    simp only [memoryPair, List.mem_cons, List.not_mem_nil, or_false] at hs
    rcases hs with rfl | rfl
    · exact ⟨_, _, rfl⟩
    · exact ⟨_, _, rfl⟩
  have hlibraries : ∀ name ∈ memoryPair.libraries, ∀ message,
      oneClass.load name ≠ .crashed message := by
    intro name _ message
    unfold ClassLibrary.load
    split
    · rintro ⟨⟩
    · rintro ⟨⟩
  exact ⟨rfl, hmemory, hlibraries,
    link_eq_oneByOne [1, 0, 1] oneClass.load 1 memoryPair rfl hmemory hlibraries⟩

end Job
end UnitLink
