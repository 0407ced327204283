import UnitLink.Link
import UnitLink.Proofs.BuiltResolvers
import UnitLink.Proofs.Sessions
/-! The two phases of a job. Nothing is touched before the workers have started. The second phase
is reached when every source declares a class, every library loads and no class is declared
twice; else the job stops with all its sources abandoned as discovery left them. -/
namespace UnitLink

variable {σ τ : Type}

namespace Job

/-- A job that reaches its second phase, with what it has discovered and loaded by then. -/
structure Begins (job : Job τ σ) (loader : Loader τ) (discovered : List (Source σ × ClassUnit))
    (r : Resolver) (common : τ) : Prop where
  started : job.workers.Granted
  discovered_eq : job.sources.map Source.discover = discovered.map fun x => (.ok x.2, x.1)
  built : ∃ libraries,
    loadLibraries loader job.libraries.eraseDups job.common = (.ok libraries, common) ∧
      Resolver.build (discovered.map fun x => ⟨x.1.name, x.2⟩) libraries job.unresolved loader
        = .ok r

def discoveryFailures (job : Job τ σ) : List Failure :=
  (job.sources.map Source.discover).filterMap fun x => linkPhases.failure? x.1

/-- What is discovered, as far as it goes. -/
def discovered (job : Job τ σ) : List (Source σ × ClassUnit) :=
  (job.sources.map Source.discover).filterMap fun x => x.1.toOption.map fun c => (x.2, c)

theorem discover_eq_of_no_failure {job : Job τ σ} (h : job.discoveryFailures = []) :
    job.sources.map Source.discover = job.discovered.map fun x => (.ok x.2, x.1) := by
  unfold discoveryFailures discovered at *
  generalize job.sources.map Source.discover = discoveries at h ⊢
  induction discoveries with
  | nil => rfl
  | cons first discoveries ih =>
    obtain ⟨outcome, s⟩ := first
    cases outcome with
    | error failure => cases h
    | ok c => exact congrArg ((.ok c, s) :: ·) (ih h)

theorem discoveryFailures_eq_nil {job : Job τ σ} {discovered : List (Source σ × ClassUnit)}
    (h : job.sources.map Source.discover = discovered.map fun x => (.ok x.2, x.1)) :
    job.discoveryFailures = [] ∧ job.discovered = discovered := by
  unfold discoveryFailures Job.discovered
  rw [h]
  constructor
  · simp [linkPhases.failure?]
  · simp [Except.toOption, List.filterMap_map]

/-- A job that fails in its first phase, with the failures in the order in which they are
told. A library that does not load is told after the sources that declare nothing well. -/
inductive GivesUp (job : Job τ σ) (loader : Loader τ) : List Failure → Prop
  | library {failure : Failure} {common : τ}
      (hloaded : loadLibraries loader job.libraries.eraseDups job.common =
        (.error (.failed failure), common)) :
      GivesUp job loader (job.discoveryFailures ++ [failure])
  | discovery {libraries : List ClassUnit} {common : τ}
      (hloaded : loadLibraries loader job.libraries.eraseDups job.common = (.ok libraries, common))
      (hfailures : job.discoveryFailures ≠ []) :
      GivesUp job loader job.discoveryFailures
  | build {libraries : List ClassUnit} {common : τ} {failure : Failure}
      (hloaded : loadLibraries loader job.libraries.eraseDups job.common = (.ok libraries, common))
      (hfailures : job.discoveryFailures = [])
      (hbuild : Resolver.build (job.discovered.map fun x => ⟨x.1.name, x.2⟩) libraries
        job.unresolved loader = .error failure) :
      GivesUp job loader [failure]

theorem Begins.forall₂_discovered {job : Job τ σ} {loader : Loader τ}
    {discovered : List (Source σ × ClassUnit)} {r : Resolver} {common : τ}
    (h : job.Begins loader discovered r common) :
    List.Forall₂ (fun s x => s.discover = (.ok x.2, x.1)) job.sources discovered := by
  have := List.forall₂_eq_eq_eq ▸ h.discovered_eq
  rwa [List.forall₂_map_left_iff, List.forall₂_map_right_iff] at this

theorem Begins.exists_source {job : Job τ σ} {loader : Loader τ}
    {discovered : List (Source σ × ClassUnit)} {r : Resolver} {common : τ}
    (h : job.Begins loader discovered r common) {x : Source σ × ClassUnit} (hx : x ∈ discovered) :
    ∃ s ∈ job.sources, s.discover = (.ok x.2, x.1) :=
  List.mem_map.1 (h.discovered_eq ▸ List.mem_map_of_mem hx)

variable [CommonStore σ τ] {job : Job τ σ} {loader : Loader τ} (schedule : List Nat)

/-- Without workers a link touches nothing and fails for that reason, which is none of those that
a source or the loader can give. -/
theorem link_of_not_granted (loader : Loader τ) (h : ¬job.workers.Granted) :
    ∃ chain, job.workers.start job.workers.threads = .error chain ∧
      (job.link schedule loader).result = .error (.failed (.ofCause (.noWorkers chain))) ∧
      (job.link schedule loader).sources = job.sources ∧
      (job.link schedule loader).common = job.common ∧ (job.link schedule loader).log = [] := by
  unfold link
  cases hstart : job.workers.start job.workers.threads with
  | ok done => exact absurd hstart h
  | error chain => exact ⟨chain, rfl, rfl, rfl, rfl, rfl⟩

theorem link_of_granted (loader : Loader τ) (h : job.workers.Granted) :
    (job.link schedule loader).result = (job.linkPhases schedule loader).result ∧
      (job.link schedule loader).sources = (job.linkPhases schedule loader).sources ∧
      (job.link schedule loader).log = (job.linkPhases schedule loader).log := by
  unfold link
  rw [show job.workers.start job.workers.threads = .ok () from h]
  exact ⟨rfl, rfl, rfl⟩

theorem granted_of_result_ok (h : (job.link schedule loader).result = .ok ()) :
    job.workers.Granted := by
  by_contra hnot
  obtain ⟨chain, -, hresult, -⟩ := link_of_not_granted schedule loader hnot
  rw [h] at hresult
  cases hresult

theorem Begins.link_eq {discovered : List (Source σ × ClassUnit)} {r : Resolver} {common : τ}
    (h : job.Begins loader discovered r common) :
    (job.link schedule loader).result =
        (linkSources schedule loader r job.context discovered common).result ∧
      (job.link schedule loader).sources =
        (linkSources schedule loader r job.context discovered common).sources ∧
      (linkSources schedule loader r job.context discovered common).log <:+
        (job.link schedule loader).log := by
  obtain ⟨libraries, hlibraries, hbuild⟩ := h.built
  obtain ⟨hfailures, hdiscovered⟩ := discoveryFailures_eq_nil h.discovered_eq
  have hphases : job.linkPhases schedule loader =
      linkDiscovered schedule loader job discovered libraries common := by
    unfold linkPhases
    simp only [hlibraries]
    rw [← hdiscovered]
    have hempty : job.discoveryFailures.isEmpty = true := by rw [hfailures]; rfl
    exact if_pos hempty
  have hlinked : linkDiscovered schedule loader job discovered libraries common =
      { linkSources schedule loader r job.context discovered common with
        log := ((Resolver.shadowed (discovered.map fun x => ⟨x.1.name, x.2⟩) libraries).map
          fun s => LogEvent.warning s.message) ++
            (linkSources schedule loader r job.context discovered common).log } := by
    unfold linkDiscovered
    simp only
    rw [hbuild]
  obtain ⟨hresult, hsources, hlog⟩ := link_of_granted schedule loader h.started
  rw [hresult, hsources, hlog, hphases, hlinked]
  exact ⟨rfl, rfl, List.suffix_append _ _⟩

/-- A job that has workers and does not begin its second phase gives all sources up, unless a
library ends it altogether. -/
theorem begins_or_gives_up (hstarted : job.workers.Granted) (loader : Loader τ) :
    (∃ discovered r common, job.Begins loader discovered r common) ∨
      (∃ message, (loadLibraries loader job.libraries.eraseDups job.common).1 =
          .error (.crashed message) ∧
        (job.link schedule loader).result = .error (.crashed message)) ∨
      ∃ failures, job.GivesUp loader failures ∧
        (job.link schedule loader).result = (firstFailure failures).1 ∧
        (job.link schedule loader).sources =
          (job.sources.map fun s => s.discover.2).map Source.abandon := by
  have hsources : (job.sources.map Source.discover).map Prod.snd =
      job.sources.map fun s => s.discover.2 := by
    rw [List.map_map]
    rfl
  obtain ⟨hresult, hleft, -⟩ := link_of_granted schedule loader hstarted
  rw [hresult, hleft]
  -- the libraries are loaded in any case, and told of after the sources
  unfold linkPhases
  simp only
  rw [hsources]
  cases hloaded : loadLibraries loader job.libraries.eraseDups job.common with
  | mk outcome common =>
    rcases outcome with (failure | message) | libraries
    · exact .inr (.inr ⟨_, .library hloaded, rfl, rfl⟩)
    · exact .inr (.inl ⟨message, rfl, rfl⟩)
    · simp only
      split
      · rename_i hempty
        have hnone : job.discoveryFailures = [] := List.isEmpty_iff.1 hempty
        have hdiscovered := discover_eq_of_no_failure hnone
        cases hbuild : Resolver.build (job.discovered.map fun x => ⟨x.1.name, x.2⟩) libraries
            job.unresolved loader with
        | ok r =>
          exact .inl ⟨job.discovered, r, common, hstarted, hdiscovered, libraries, hloaded, hbuild⟩
        | error failure =>
          right
          right
          refine ⟨[failure], .build hloaded hnone hbuild, ?_⟩
          have hlinked : linkDiscovered schedule loader job job.discovered libraries common =
              giveUp (job.discovered.map Prod.fst) common [failure] := by
            unfold linkDiscovered
            simp only
            rw [hbuild]
          have hgiven : job.discovered.map Prod.fst = job.sources.map fun s => s.discover.2 := by
            have := congrArg (List.map Prod.snd) hdiscovered
            rw [hsources, List.map_map] at this
            exact this.symm
          constructor
          · show (linkDiscovered schedule loader job job.discovered libraries common).result = _
            rw [hlinked]
            rfl
          · show (linkDiscovered schedule loader job job.discovered libraries common).sources = _
            rw [hlinked, ← hgiven]
            rfl
      · rename_i hfailures
        exact .inr (.inr
          ⟨_, .discovery hloaded fun h => hfailures (List.isEmpty_iff.2 h), rfl, rfl⟩)

theorem mem_of_firstFailure {failures : List Failure} {stop : Stop}
    (h : (firstFailure failures).1 = .error stop) :
    ∃ failure ∈ failures, stop = .failed failure := by
  cases failures with
  | nil => cases h
  | cons first others => exact ⟨first, List.mem_cons_self, (Except.error.inj h).symm⟩

theorem loadLibraries_stops {names : List ClassName} {common : τ} {stop : Stop}
    (h : (loadLibraries loader names common).1 = .error stop) :
    match stop with
    | .failed failure => failure.kind = .resolution
    | .crashed message =>
      ∃ name ∈ names, ∃ common, (loader.load name common).1 = .crashed message := by
  induction names generalizing common with
  | nil => cases h
  | cons name names ih =>
    unfold loadLibraries at h
    rcases hload : loader.load name common with ⟨c | (fault | chain) | crash, after⟩
    · rw [hload] at h
      have hothers : (loadLibraries loader names after).1 = .error stop := by
        simp only at h
        generalize loadLibraries loader names after = rest at h
        obtain ⟨earlier | others, after'⟩ := rest
        · exact h
        · cases h
      have := ih hothers
      cases stop with
      | failed failure => exact this
      | crashed message =>
        obtain ⟨other, hother, hcrash⟩ := this
        exact ⟨other, List.mem_cons_of_mem _ hother, hcrash⟩
    · rw [hload] at h
      obtain rfl := Except.error.inj h
      rfl
    · rw [hload] at h
      obtain rfl := Except.error.inj h
      rfl
    · rw [hload] at h
      obtain rfl := Except.error.inj h
      exact ⟨name, List.mem_cons_self, common, by rw [hload]⟩

/-- A link returns unless a library that is loaded for the whole job ends it. -/
theorem link_returns
    (h : ∀ name ∈ job.libraries, ∀ common message, (loader.load name common).1 ≠ .crashed message)
    (message : String) : (job.link schedule loader).result ≠ .error (.crashed message) := by
  intro hcrashed
  by_cases hstarted : job.workers.Granted
  swap
  · obtain ⟨chain, -, hresult, -⟩ := link_of_not_granted schedule loader hstarted
    rw [hcrashed] at hresult
    cases hresult
  rcases begins_or_gives_up schedule hstarted loader with
    ⟨discovered, r, common, hbegins⟩ | ⟨crash, hcrash, -⟩ | ⟨failures, -, hresult, -⟩
  · have hresult := (hbegins.link_eq schedule).1
    obtain ⟨failure, -, heq⟩ := mem_of_firstFailure (hresult.symm.trans hcrashed)
    cases heq
  · obtain ⟨name, hname, common, hload⟩ := loadLibraries_stops hcrash
    exact h name (List.mem_eraseDups.1 hname) common crash hload
  · obtain ⟨failure, -, heq⟩ := mem_of_firstFailure (hresult.symm.trans hcrashed)
    cases heq

end Job
end UnitLink
