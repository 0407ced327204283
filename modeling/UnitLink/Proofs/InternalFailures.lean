import UnitLink.Proofs.Jobs
import UnitLink.Proofs.MemorySources
/-! Failures that a job of sources in memory cannot come to. Each pass has ready what the next
one looks up, and sources in memory refuse nothing that a link asks of them in its order. So
such a link fails over what is written, over what cannot be resolved, or with the loader. -/
namespace UnitLink

variable {τ : Type}

namespace Source

/-- A failure of rewriting over a context slot, on a line of the source's own text. -/
def BadSlotIn (s : Source (Beside MemoryStore τ)) (failure : Failure) : Prop :=
  ∃ lines, readLines s.name 1 ((textLines s.store.own.input).map .ok) = .ok lines ∧
    BadSlotAmong s.name lines failure

theorem BadSlotIn.kind_eq {s : Source (Beside MemoryStore τ)} {failure : Failure}
    (h : s.BadSlotIn failure) : failure.kind = .declaration := by
  obtain ⟨_, -, line, -, d, cause, -, ⟨-, value, fault, -, -, rfl⟩, rfl⟩ := h
  exact Failure.kind_locate _ _

/-- What a resolution may come to: it stops as expected, or the rewriting has nothing to
object to but context slots, whatever the common store is by then. -/
def ResolvedWell (loader : Loader τ) (found : Source (Beside MemoryStore τ)) :
    Except Stop Resolution × Source (Beside MemoryStore τ) → Prop
  | (.error (.failed failure), _) => ∀ fault, failure.cause ≠ .lineTable fault
  | (.error (.crashed message), _) => loader.Crashes message
  | (.ok resolution, resolved) => ∀ common failure,
      ({ resolved with store := CommonStore.withCommon common resolved.store }.rewrite
        resolution).1 = .error failure → found.BadSlotIn failure

variable {s : Source (Beside MemoryStore τ)} {text : String} (c : ClassUnit) (r : Resolver)
  (context : ClassName) (loader : Loader τ)

theorem Found.resolve (h : s.Found text) :
    (s.resolve c r context).Meets (r.protocol loader) fun result =>
      match result with
      | (.error stop, _) => Resolver.ExpectedStop loader stop
      | (.ok resolution, resolved) => ∀ common,
          match ({ resolved with store := CommonStore.withCommon common resolved.store }.rewrite
            resolution) with
          | (.ok (), rewritten) => rewritten.Written
          | (.error failure, _) => s.BadSlotIn failure := by
  refine (resolve_delivers h.opens c r loader context).mono ?_
  rintro ⟨stop | resolution, resolved⟩ ⟨⟨hmemory, hname⟩, hresult⟩
  · exact hresult
  · intro common
    obtain ⟨lines, hlines, -, hprepared⟩ := hresult
    obtain ⟨lines', hlines', hdeclares⟩ := h.declares
    obtain rfl := Except.ok.inj (hlines.symm.trans hlines')
    have hrewrite := (hmemory.withCommon common).rewrite (hname ▸ hlines) hprepared hdeclares
    split
    · rename_i rewritten heq
      rw [heq] at hrewrite
      exact hrewrite
    · rename_i failure rewritten heq
      rw [heq] at hrewrite
      refine ⟨lines, ?_, ?_⟩
      · rw [h.input_eq]
        exact hlines
      · rw [← hname]
        exact hrewrite

theorem Found.resolvedWell (h : s.Found text) :
    (s.resolve c r context).Meets (r.protocol loader) (s.ResolvedWell loader) := by
  refine (h.resolve c r context loader).mono ?_
  rintro ⟨(failure | message) | resolution, resolved⟩ hresult
  · intro fault hcause
    rcases hresult with hkind | hkind <;>
    · rw [Failure.kind, hcause] at hkind
      cases hkind
  · exact hresult
  · intro common failure hfailure
    have hrewrite := hresult common
    split at hrewrite
    · rename_i rewritten heq
      rw [heq] at hfailure
      cases hfailure
    · rename_i failure' rewritten heq
      rw [heq] at hfailure
      obtain rfl := Except.error.inj hfailure
      exact hrewrite

/-- How the task of a source in memory may end. -/
theorem Found.link (h : s.Found text) :
    (s.link c r context).Meets (r.protocol loader) fun l =>
      match l.ending with
      | .returned (.ok ()) => True
      | .returned (.error failure) => failure.kind = .declaration ∨ failure.kind = .resolution
      | .crashed message => loader.Crashes message := by
  unfold Source.link
  refine Session.Meets.bind (h.resolve c r context loader) ?_
  rintro ⟨(failure | message) | resolution, resolved⟩ hresult
  · exact Session.meets_pure hresult
  · exact Session.meets_pure hresult
  · refine Session.meets_bind_iff.2 (Session.meets_inTurn (fun _ => trivial) fun common => ?_)
    have hrewrite := hresult common
    generalize ({ resolved with
      store := CommonStore.withCommon common resolved.store } : Source _).rewrite resolution
        = rewriting at hrewrite
    obtain ⟨failure | done, rewritten⟩ := rewriting
    · exact Session.meets_pure (.inl hrewrite.kind_eq)
    · refine Session.meets_bind_iff.2 (Session.meets_inTurn (fun _ => trivial) fun common' => ?_)
      have hclose := (hrewrite.withCommon common').close
      generalize ({ rewritten with
        store := CommonStore.withCommon common' rewritten.store } : Source _).close
          = closing at hclose
      obtain ⟨failure | done, closed⟩ := closing
      · cases hclose
      · exact Session.meets_pure trivial

end Source

theorem Resolver.kind_of_build_error {discovered : List Discovered} {libraries : List ClassUnit}
    {unresolved : Option ClassName} {loader : Loader τ} {failure : Failure}
    (h : build discovered libraries unresolved loader = .error failure) :
    failure.kind = .duplicateClass := by
  obtain ⟨first, again, -, rfl⟩ := build_eq_error_iff.1 h
  rfl

namespace Job

/-- Every source of the job is fresh and in memory. -/
def IsInMemory (job : Job τ (Beside MemoryStore τ)) : Prop :=
  ∀ s ∈ job.sources, ∃ name text common, s = (Source.inMemory name text).beside common

variable {job : Job τ (Beside MemoryStore τ)} {loader : Loader τ}

theorem IsInMemory.discover (h : job.IsInMemory) {s : Source (Beside MemoryStore τ)}
    (hs : s ∈ job.sources) :
    match s.discover.1 with
    | .ok _ => ∃ text, s.discover.2.Found text
    | .error failure => failure.kind = .declaration := by
  obtain ⟨name, text, common, rfl⟩ := h s hs
  have := (Source.inMemory_beside name text common).discover
  split
  · rename_i c hok
    rw [hok] at this
    exact ⟨text, this⟩
  · rename_i failure herror
    rw [herror] at this
    exact this

theorem IsInMemory.found (h : job.IsInMemory) {discovered : List (Source _ × ClassUnit)}
    (hdiscovered : ∀ x ∈ discovered, ∃ s ∈ job.sources, s.discover = (.ok x.2, x.1)) :
    ∀ x ∈ discovered, ∃ text, x.1.Found text := by
  intro x hx
  obtain ⟨s, hs, heq⟩ := hdiscovered x hx
  have := h.discover hs
  rwa [heq] at this

theorem IsInMemory.kind_of_givesUp (h : job.IsInMemory) {failures : List Failure}
    (hgives : job.GivesUp loader failures) {failure : Failure} (hfailure : failure ∈ failures) :
    failure.kind = .declaration ∨ failure.kind = .resolution ∨ failure.kind = .duplicateClass := by
  have hdiscovery : ∀ failure ∈ job.discoveryFailures, failure.kind = .declaration := by
    intro failure hfailure
    unfold discoveryFailures at hfailure
    rw [List.filterMap_map, List.mem_filterMap] at hfailure
    obtain ⟨s, hs, hfailed⟩ := hfailure
    have := h.discover hs
    rw [Function.comp_apply] at hfailed
    cases hdiscover : s.discover.1 with
    | ok c =>
      rw [hdiscover] at hfailed
      cases hfailed
    | error found =>
      rw [hdiscover] at hfailed this
      obtain rfl := Option.some.inj hfailed
      exact this
  cases hgives with
  | library hloaded =>
    rcases List.mem_append.1 hfailure with hfound | hlibrary
    · exact .inl (hdiscovery _ hfound)
    · obtain rfl := List.mem_singleton.1 hlibrary
      exact .inr (.inl (loadLibraries_stops (congrArg Prod.fst hloaded)))
  | discovery => exact .inl (hdiscovery _ hfailure)
  | build _ _ hbuild =>
    obtain rfl := List.mem_singleton.1 hfailure
    exact .inr (.inr (Resolver.kind_of_build_error hbuild))

/-- The ways in which a link of sources in memory may fail: a declaration, a reference or a
class declared twice is at fault, or the loader has ended the task that is blamed, and the
log tells so. -/
def FailsAsExpected (loader : Loader τ) (log : List LogEvent) : Stop → Prop
  | .crashed _ => False
  | .failed failure =>
    failure.kind = .declaration ∨ failure.kind = .resolution ∨ failure.kind = .duplicateClass ∨
      ∃ label message, failure = Failure.ofCause (.worker label) ∧ loader.Crashes message ∧
        .error s!"task `{label}` panicked: {message}" ∈ log

theorem FailsAsExpected.mono {log log' : List LogEvent} {stop : Stop}
    (h : FailsAsExpected loader log stop) (hlog : log ⊆ log') :
    FailsAsExpected loader log' stop := by
  cases stop with
  | crashed message => exact h
  | failed failure =>
    rcases h with hkind | hkind | hkind | ⟨label, message, heq, hcrashes, hmem⟩
    · exact .inl hkind
    · exact .inr (.inl hkind)
    · exact .inr (.inr (.inl hkind))
    · exact .inr (.inr (.inr ⟨label, message, heq, hcrashes, hlog hmem⟩))

theorem IsInMemory.linkSources (h : job.IsInMemory) (schedule : List Nat)
    {discovered : List (Source _ × ClassUnit)} {r : Resolver} {common : τ}
    (hbegins : job.Begins loader discovered r common) {stop : Stop}
    (hstop : (Job.linkSources schedule loader r job.context discovered common).result =
      .error stop) :
    FailsAsExpected loader
      (Job.linkSources schedule loader r job.context discovered common).log stop := by
  have hlinked := Session.meets_interleave_map (r.protocol_keeps loader) schedule
    (fun x hx => (h.found (fun _ => hbegins.exists_source) x hx).elim fun _ hfound =>
      hfound.link x.2 r job.context loader)
    ⟨r.caches, common⟩ (r.faithful_start loader common)
  unfold Job.linkSources at hstop ⊢
  simp only at hstop ⊢
  generalize (Session.interleave loader schedule _ _).1 = linked at hlinked hstop ⊢
  obtain ⟨failure, hfailure, rfl⟩ := mem_of_firstFailure hstop
  obtain ⟨l, hl, hfailed⟩ := List.mem_filterMap.1 hfailure
  obtain ⟨i, hi, rfl⟩ := List.getElem_of_mem hl
  have hending := hlinked.get hi (hlinked.length_eq ▸ hi)
  simp only [List.get_eq_getElem] at hending
  unfold LinkedSource.failure? at hfailed
  split at hfailed
  · cases hfailed
  · rename_i failure' heq
    rw [heq] at hending
    obtain rfl := Option.some.inj hfailed
    exact hending.imp_right .inl
  · rename_i message heq
    rw [heq] at hending
    have hblamed := (Option.some.inj hfailed).symm
    refine .inr (.inr (.inr ⟨linked[i].label, message, hblamed, hending, ?_⟩))
    refine List.mem_append_right _ (List.mem_map_of_mem (List.mem_filterMap.2 ⟨_, hl, ?_⟩))
    rw [heq]
    rfl

/-- No internal failure is reachable from fresh sources in memory. Whichever of them are
resolved together, a resolution is never refused an entry of its line table, and the
rewriting that follows it objects to context slots alone; and a link that has its workers fails
only as expected. -/
theorem link_fails_as_expected (schedule : List Nat) (loader : Loader τ)
    (job : Job τ (Beside MemoryStore τ)) (hstarted : job.workers.Granted) (hmemory : job.IsInMemory)
    (hlibraries : ∀ name ∈ job.libraries, ∀ common message,
      (loader.load name common).1 ≠ .crashed message) :
    (∀ (discovered : List (Source _ × ClassUnit)) (r : Resolver) (context : ClassName) (common : τ),
      (∀ x ∈ discovered, ∃ s ∈ job.sources, s.discover = (.ok x.2, x.1)) →
        List.Forall₂ (fun result x => x.1.ResolvedWell loader result)
          (Session.interleave loader schedule
            (discovered.map fun x => x.1.resolve x.2 r context) ⟨r.caches, common⟩).1
          discovered) ∧
      ∀ stop, (job.link schedule loader).result = .error stop →
        FailsAsExpected loader (job.link schedule loader).log stop := by
  constructor
  · intro discovered r context common hdiscovered
    have hresolved : ∀ x ∈ discovered, (x.1.resolve x.2 r context).Meets (r.protocol loader)
        (x.1.ResolvedWell loader) := by
      intro x hx
      obtain ⟨text, hfound⟩ := hmemory.found hdiscovered x hx
      exact hfound.resolvedWell x.2 r context loader
    exact Session.meets_interleave_map (r.protocol_keeps loader) schedule hresolved
      ⟨r.caches, common⟩ (r.faithful_start loader common)
  · intro stop hstop
    rcases begins_or_gives_up schedule hstarted loader with
      ⟨discovered, r, common, hbegins⟩ | ⟨message, -, hcrashed⟩ | ⟨failures, hgives, hresult, -⟩
    · obtain ⟨hresult, -, hlog⟩ := hbegins.link_eq schedule
      exact (hmemory.linkSources schedule hbegins (hresult.symm.trans hstop)).mono hlog.subset
    · exact absurd hcrashed (link_returns schedule hlibraries message)
    · obtain ⟨failure, hfailure, rfl⟩ := mem_of_firstFailure (hresult.symm.trans hstop)
      rcases hmemory.kind_of_givesUp hgives hfailure with hkind | hkind | hkind
      · exact .inl hkind
      · exact .inr (.inl hkind)
      · exact .inr (.inr (.inl hkind))

/-- A loader that counts what it is asked. It has one class and ends whoever asks for
another. -/
def countingLoader : Loader Nat where
  load name asked :=
    (if name = .ofString "Lib" then .found ⟨⟨name, .empty, none, []⟩, [], []⟩
      else .crashed s!"no {name}", asked + 1)
  size := 1

/-- Two sources in memory, one that asks for a class outside the job and one with a context
slot that is no number of sixteen bits. -/
def besideCount : Job Nat (Beside MemoryStore Nat) where
  sources := [
    (Source.inMemory "a.j" ";@class|name=A\n;@class-of|sig=B.m()V\n").beside 0,
    (Source.inMemory "c.j" ";@class|name=C\n;@glue-init|context=65536\n").beside 0]
  common := 0
  libraries := [.ofString "Lib"]
  unresolved := none
  context := .ofString "Context"

theorem link_fails_as_expected_besideCount :
    besideCount.workers.Granted ∧ besideCount.IsInMemory ∧
      ∃ stop, (besideCount.link [1, 0] countingLoader).result = .error stop ∧
      FailsAsExpected countingLoader (besideCount.link [1, 0] countingLoader).log stop := by
  have hmemory : besideCount.IsInMemory := by
    intro s hs
    simp only [besideCount, List.mem_cons, List.not_mem_nil, or_false] at hs
    rcases hs with rfl | rfl
    · exact ⟨_, _, _, rfl⟩
    · exact ⟨_, _, _, rfl⟩
  have hlibraries : ∀ name ∈ besideCount.libraries, ∀ common message,
      (countingLoader.load name common).1 ≠ .crashed message := by
    intro name hname common message
    obtain rfl := List.mem_singleton.1 hname
    simp [countingLoader]
  have hfails : (besideCount.link [1, 0] countingLoader).result.isOk = false := by
    decide +kernel
  refine ⟨rfl, hmemory, ?_⟩
  cases hresult : (besideCount.link [1, 0] countingLoader).result with
  | ok done =>
    rw [hresult] at hfails
    cases hfails
  | error stop =>
    exact ⟨stop, rfl,
      (link_fails_as_expected [1, 0] countingLoader besideCount rfl hmemory hlibraries).2 stop
        hresult⟩

end Job
end UnitLink
