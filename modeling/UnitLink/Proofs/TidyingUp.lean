import UnitLink.Proofs.Jobs
import UnitLink.Proofs.LifeCycle
import UnitLink.Source.Scripted
/-! A link leaves its sources tidied up. Whatever the backends and the loader do and however
the tasks are scheduled, a link that has had its workers and returns has closed every source and
cleaned up after it, has finalized a source only after its own resolution and rewriting
succeeded, and has asked for no output at all if the first phase failed. -/
namespace UnitLink

variable {σ τ : Type}

section Tasks

variable [CommonStore σ τ]

/-- The source was last finalized and cleaned up, directly after it had been resolved and
rewritten with success. -/
def Source.FinalizedOwn (found : Source σ) (c : ClassUnit) (r : Resolver) (context : ClassName)
    (after : Source σ) : Prop :=
  ∃ resolution resolved common rewritten,
    (found.resolve c r context).Yields (.ok resolution, resolved) ∧
      ({ resolved with store := CommonStore.withCommon common resolved.store }).rewrite resolution
        = (.ok (), rewritten) ∧
      after.calls = .cleanup :: .finalize true :: rewritten.calls

/-- What a task leaves of its source, unless a crash takes it away unfinished. -/
structure LinkedSource.Ended (found : Source σ) (c : ClassUnit) (r : Resolver)
    (context : ClassName) (l : LinkedSource σ) : Prop where
  pending_or_tidy : (∃ message, l.ending = .crashed message) ∧ l.source.Pending ∨
    l.source.TidiedUp
  finalized : l.source.calls.countP BackendCall.isFinalize = 0 ∨
    found.FinalizedOwn c r context l.source

theorem Source.Unwritten.link {s : Source σ} (h : s.Unwritten) (c : ClassUnit) (r : Resolver)
    (context : ClassName) :
    (s.link c r context).Meets Protocol.any (LinkedSource.Ended s c r context) := by
  have habandoned : ∀ (after : Source σ) ending phases, after.Pending →
      LinkedSource.Ended s c r context ⟨ending, after.abandon, phases⟩ := by
    intro after ending phases hpending
    obtain ⟨htidied, hcalls⟩ := hpending.abandon
    refine ⟨.inr htidied, .inl ?_⟩
    rw [hcalls]
    simpa [List.countP_cons, BackendCall.isFinalize] using hpending.no_finalize
  unfold Source.link
  refine Session.Meets.bind ((h.resolve c r context).and (Session.meets_yields _)) ?_
  rintro ⟨(failure | message) | resolution, resolved⟩ ⟨hunwritten, hyields⟩
  · exact Session.meets_pure (habandoned resolved _ _ hunwritten.toPending)
  · exact Session.meets_pure
      ⟨.inl ⟨⟨message, rfl⟩, hunwritten.toPending⟩, .inl hunwritten.no_finalize⟩
  · refine Session.meets_bind_iff.2 (Session.meets_inTurn (fun _ => trivial) fun common => ?_)
    obtain ⟨hpending, hready⟩ := (hunwritten.withStore
      (CommonStore.withCommon common resolved.store)).rewrite resolution
    generalize hrewrite : ({ resolved with
      store := CommonStore.withCommon common resolved.store } : Source σ).rewrite resolution
        = rewriting at hpending hready
    obtain ⟨failure | done, rewritten⟩ := rewriting
    · exact Session.meets_pure (habandoned rewritten _ _ hpending)
    · obtain ⟨houtput, hreader⟩ := hready rfl
      refine Session.meets_bind_iff.2 (Session.meets_inTurn (fun _ => trivial) fun common' => ?_)
      obtain ⟨htidied, hcalls⟩ := (hpending.withStore
        (CommonStore.withCommon common' rewritten.store)).close houtput hreader
      have hown : s.FinalizedOwn c r context
          ({ rewritten with
            store := CommonStore.withCommon common' rewritten.store } : Source σ).close.2 :=
        ⟨resolution, resolved, common, rewritten, hyields, hrewrite, hcalls⟩
      generalize ({ rewritten with
        store := CommonStore.withCommon common' rewritten.store } : Source σ).close
          = closing at htidied hown
      obtain ⟨failure | done, closed⟩ := closing
      · have hsame : closed.abandon = closed := htidied.abandon
        refine Session.meets_pure ?_
        rw [hsame]
        exact ⟨.inr htidied, .inr hown⟩
      · exact Session.meets_pure ⟨.inr htidied, .inr hown⟩

end Tasks

theorem LinkedSource.failure?_eq_none {l : LinkedSource σ} (h : l.failure? = none)
    (message : String) : l.ending ≠ .crashed message := by
  intro hcrashed
  rw [failure?, hcrashed] at h
  cases h

namespace Job

/-- In a second phase every source ends tidied up. -/
theorem linkSources_tidy [CommonStore σ τ] (schedule : List Nat) (loader : Loader τ) (r : Resolver)
    (context : ClassName) {discovered : List (Source σ × ClassUnit)} (common : τ)
    (h : ∀ x ∈ discovered, x.1.Unwritten) :
    List.Forall₂ (fun after x => after.TidiedUp ∧
        (after.calls.countP BackendCall.isFinalize = 0 ∨ x.1.FinalizedOwn x.2 r context after))
      (linkSources schedule loader r context discovered common).sources discovered := by
  have hlinked := Session.meets_interleave_map (Session.any_keeps loader) schedule
    (fun x hx => (h x hx).link x.2 r context) ⟨r.caches, common⟩ trivial
  unfold linkSources
  simp only
  generalize (Session.interleave loader schedule _ _).1 = linked at hlinked ⊢
  split
  · -- nothing failed, so no task crashed
    rename_i hnone
    have hfailures : ∀ l ∈ linked, l.failure? = none := by
      intro l hl
      exact List.filterMap_eq_nil_iff.1 (List.isEmpty_iff.1 hnone) l hl
    rw [List.forall₂_map_left_iff]
    refine ((List.forall₂_and_left _ _).2 ⟨hfailures, hlinked⟩).imp ?_
    rintro l x ⟨hl, ⟨⟨message, hcrashed⟩, -⟩ | htidied, hfinalized⟩
    · exact absurd hcrashed (LinkedSource.failure?_eq_none hl message)
    · exact ⟨htidied, hfinalized⟩
  · rw [List.map_map, List.forall₂_map_left_iff]
    refine hlinked.imp ?_
    rintro l x ⟨⟨-, hpending⟩ | htidied, hfinalized⟩
    · obtain ⟨htidied, hcalls⟩ := hpending.abandon
      refine ⟨htidied, .inl ?_⟩
      show l.source.abandon.calls.countP _ = 0
      rw [hcalls]
      simpa [List.countP_cons, BackendCall.isFinalize] using hpending.no_finalize
    · rw [Function.comp_apply, htidied.abandon]
      exact ⟨htidied, hfinalized⟩

/-- The first phase has failed: a source declares nothing well, a library does not load, or
two sources declare one class. -/
def FirstPhaseFails (job : Job τ σ) (loader : Loader τ) : Prop :=
  (∃ s ∈ job.sources, ∃ failure, s.discover.1 = .error failure) ∨
    (∃ stop, (loadLibraries loader job.libraries.eraseDups job.common).1 = .error stop) ∨
    ¬(job.sources.filterMap fun s => s.discover.1.toOption.map fun c => c.name).Nodup

theorem Begins.not_firstPhaseFails {job : Job τ σ} {loader : Loader τ}
    {discovered : List (Source σ × ClassUnit)} {r : Resolver} {common : τ}
    (h : job.Begins loader discovered r common) : ¬job.FirstPhaseFails loader := by
  obtain ⟨libraries, hlibraries, hbuild⟩ := h.built
  rintro (⟨s, hs, failure, hfailure⟩ | ⟨stop, hstop⟩ | hrepeated)
  · have hmem : s.discover ∈ job.sources.map Source.discover := List.mem_map_of_mem hs
    rw [h.discovered_eq] at hmem
    obtain ⟨x, -, hx⟩ := List.mem_map.1 hmem
    rw [← hx] at hfailure
    cases hfailure
  · rw [hlibraries] at hstop
    cases hstop
  · apply hrepeated
    have hnodup := Resolver.nodup_of_build_ok hbuild
    have hnames : (job.sources.filterMap fun s => s.discover.1.toOption.map fun c => c.name) =
        discovered.map fun x => x.2.name := by
      have := congrArg (List.filterMap fun x => x.1.toOption.map fun c => c.name) h.discovered_eq
      rw [List.filterMap_map, List.filterMap_map] at this
      refine this.trans ?_
      simp [Except.toOption, Function.comp_def]
    rw [hnames]
    simpa [List.map_map, Function.comp_def] using hnodup

theorem given_up {before : Source σ} (h : before.Fresh) :
    before.discover.2.abandon.TidiedUp ∧ before.discover.2.abandon.NoOutput := by
  have hunwritten := h.unwritten.discover
  obtain ⟨htidied, hcalls⟩ := hunwritten.toPending.abandon
  refine ⟨htidied, ?_, ?_⟩
  · rw [hcalls]
    simpa [List.countP_cons, BackendCall.isCreateOutput] using hunwritten.no_create
  · rw [hcalls]
    simpa [List.countP_cons, BackendCall.isFinalize] using hunwritten.no_finalize

theorem Begins.unwritten {job : Job τ σ} {loader : Loader τ}
    {discovered : List (Source σ × ClassUnit)} {r : Resolver} {common : τ}
    (h : job.Begins loader discovered r common) (hfresh : ∀ s ∈ job.sources, s.Fresh) :
    ∀ x ∈ discovered, x.1.Unwritten := by
  intro x hx
  obtain ⟨s, hs, heq⟩ := h.exists_source hx
  have := (hfresh s hs).unwritten.discover
  rwa [heq] at this

/-- A finalization that is on record is the one that followed the source's own rewriting. -/
theorem finalize_eq [CommonStore σ τ] {found after : Source σ} {c : ClassUnit} {r : Resolver}
    {context : ClassName} {produced : Bool} (htidied : after.TidiedUp)
    (hfinalized : after.calls.countP BackendCall.isFinalize = 0 ∨
      found.FinalizedOwn c r context after) (hmem : .finalize produced ∈ after.calls) :
    produced = true ∧ found.FinalizedOwn c r context after := by
  rcases hfinalized with hnone | hown
  · exact absurd rfl (List.countP_eq_zero.1 hnone _ hmem)
  · refine ⟨?_, hown⟩
    obtain ⟨resolution, resolved, common, rewritten, -, -, hcalls⟩ := hown
    obtain ⟨earlier, hearlier, -, -, honce⟩ := htidied.cleaned_last
    rw [hcalls] at hearlier hmem
    obtain rfl : .finalize true :: rewritten.calls = earlier := (List.cons.inj hearlier).2
    have hnone : rewritten.calls.countP BackendCall.isFinalize = 0 := by
      simp only [List.countP_cons, BackendCall.isFinalize, if_true] at honce
      omega
    simp only [List.mem_cons, reduceCtorEq, false_or, BackendCall.finalize.injEq] at hmem
    rcases hmem with heq | hmem
    · exact heq
    · exact absurd rfl (List.countP_eq_zero.1 hnone _ hmem)

/-- A link that has its workers and returns has tidied up after all its sources, finalizes none but
those that it has resolved and rewritten, and asks for no output if the first phase fails. -/
theorem link_tidies_up [CommonStore σ τ] (schedule : List Nat) (loader : Loader τ)
    (job : Job τ σ) (hstarted : job.workers.Granted) (hfresh : ∀ s ∈ job.sources, s.Fresh)
    (hreturns : ∀ message, (job.link schedule loader).result ≠ .error (.crashed message)) :
    List.Forall₂ (fun before after => after.TidiedUp ∧
        ∀ produced, .finalize produced ∈ after.calls → produced = true ∧
          ∃ found c discovered r common, before.discover = (.ok c, found) ∧
            job.Begins loader discovered r common ∧ found.FinalizedOwn c r job.context after)
      job.sources (job.link schedule loader).sources ∧
    (job.FirstPhaseFails loader → ∀ after ∈ (job.link schedule loader).sources,
      after.NoOutput) := by
  rcases begins_or_gives_up schedule hstarted loader with
    ⟨discovered, r, common, hbegins⟩ | ⟨message, -, hcrashed⟩ | ⟨failures, -, -, hsources⟩
  · refine ⟨?_, fun hfails => absurd hfails hbegins.not_firstPhaseFails⟩
    rw [(hbegins.link_eq schedule).2.1]
    have htidy := linkSources_tidy schedule loader r job.context common (hbegins.unwritten hfresh)
    refine (Session.forall₂_comp hbegins.forall₂_discovered htidy.flip).imp ?_
    rintro before after ⟨x, hdiscover, htidied, hfinalized⟩
    refine ⟨htidied, fun produced hmem => ?_⟩
    obtain ⟨hproduced, hown⟩ := finalize_eq htidied hfinalized hmem
    exact ⟨hproduced, x.1, x.2, discovered, r, common, hdiscover, hbegins, hown⟩
  · exact absurd hcrashed (hreturns message)
  · rw [hsources, List.map_map]
    constructor
    · rw [List.forall₂_map_right_iff, List.forall₂_same]
      intro before hbefore
      obtain ⟨htidied, -, hnone⟩ := given_up (hfresh before hbefore)
      exact ⟨htidied, fun produced hmem => absurd rfl (List.countP_eq_zero.1 hnone _ hmem)⟩
    · intro _ after hafter
      obtain ⟨before, hbefore, rfl⟩ := List.mem_map.1 hafter
      exact (given_up (hfresh before hbefore)).2

/-- Two sources, one of which asks for a class that is not in the job and the other of which
cannot be flushed. -/
def scriptedPair : Job Unit Script where
  sources := [
    Source.scripted "a.j" ⟨";@class|name=A\n;@class-of|sig=B.m()V\n", fun _ => none⟩,
    Source.scripted "c.j" ⟨";@class|name=C\n", fun
      | .flush => some "no space left"
      | _ => none⟩]
  common := ()
  libraries := []
  unresolved := none
  context := ClassName.ofString "Context"

/-- Neither a crash in a task nor a flush that fails keeps a link from tidying up. -/
theorem link_tidies_up_scriptedPair :
    scriptedPair.workers.Granted ∧ (∀ s ∈ scriptedPair.sources, s.Fresh) ∧
      (scriptedPair.link [1, 0, 0] (.fixed (fun _ => .crashed "no metadata") 0)).sources.Forall
        Source.TidiedUp := by
  have hfresh : ∀ s ∈ scriptedPair.sources, s.Fresh := by
    intro s hs
    simp only [scriptedPair, List.mem_cons, List.not_mem_nil, or_false] at hs
    rcases hs with rfl | rfl
    · exact ⟨rfl, rfl, rfl, rfl⟩
    · exact ⟨rfl, rfl, rfl, rfl⟩
  refine ⟨rfl, hfresh, ?_⟩
  have htidy := (link_tidies_up [1, 0, 0] (.fixed (fun _ => .crashed "no metadata") 0)
    scriptedPair rfl hfresh (link_returns _ (by simp [scriptedPair]))).1
  rw [List.forall_iff_forall_mem]
  intro after hafter
  obtain ⟨i, hi, rfl⟩ := List.getElem_of_mem hafter
  exact (htidy.get (htidy.length_eq ▸ hi) hi).1

end Job
end UnitLink
