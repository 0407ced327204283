import UnitLink.Proofs.Extension
/-! The order of a job's sources. It decides which of several classes an unqualified signature
comes to, and nothing else: which classes are declared twice, what a name is looked up to, which
libraries are shadowed and how far a search goes are all the same for any order. -/
namespace UnitLink

variable {σ τ : Type} {load : ClassName → LoadAnswer} {size : Nat}

/-- A search for something that one element of a list has at most does not depend on the order
of the list. -/
theorem findSome?_eq_of_perm {α β : Type} {f : α → Option β} {xs ys : List α} (h : xs.Perm ys)
    (hunique : ∀ x ∈ xs, ∀ y ∈ xs, (f x).isSome → (f y).isSome → x = y) :
    ys.findSome? f = xs.findSome? f := by
  cases hx : xs.findSome? f with
  | none =>
    rw [List.findSome?_eq_none_iff] at hx ⊢
    exact fun y hy => hx y (h.mem_iff.2 hy)
  | some b =>
    obtain ⟨x, hmem, hb⟩ := List.exists_of_findSome?_eq_some hx
    cases hy : ys.findSome? f with
    | none =>
      rw [List.findSome?_eq_none_iff] at hy
      rw [hy x (h.mem_iff.1 hmem)] at hb
      cases hb
    | some b' =>
      obtain ⟨y, hmem', hb'⟩ := List.exists_of_findSome?_eq_some hy
      obtain rfl := hunique x hmem y (h.mem_iff.2 hmem') (by rw [hb]; rfl) (by rw [hb']; rfl)
      exact hb'.symm.trans hb

namespace Resolver

variable {r r' : Resolver} {discovered discovered' : List Discovered}

/-- A resolver for the same classes in another order. -/
structure Reorders (r r' : Resolver) : Prop where
  jobClasses_perm : r.jobClasses.Perm r'.jobClasses
  nodup : (r.jobClasses.map fun c => c.name).Nodup
  libraries_eq : r'.libraries = r.libraries
  unresolved_eq : r'.unresolved = r.unresolved
  reach_eq : r'.reach = r.reach

theorem reorders_of_build {loader : Loader τ} {libraries : List ClassUnit}
    {unresolved : Option ClassName} (h : build discovered libraries unresolved loader = .ok r)
    (hperm : discovered.Perm discovered') :
    ∃ r', build discovered' libraries unresolved loader = .ok r' ∧ r.Reorders r' := by
  obtain ⟨hnodup, rfl⟩ := build_eq_ok_iff.1 h
  refine ⟨_, build_eq_ok_iff.2 ⟨(hperm.map _).nodup_iff.1 hnodup, rfl⟩, hperm.map _,
    by rwa [List.map_map], ?_, rfl, ?_⟩
  · refine List.filter_congr fun c _ => ?_
    rw [decide_eq_decide]
    simp only [Undeclared, hperm.mem_iff]
  · show discovered'.length + _ + _ = discovered.length + _ + _
    rw [hperm.length_eq]

theorem Reorders.jobClass? (h : r.Reorders r') (name : ClassName) :
    r'.jobClass? name = r.jobClass? name := by
  unfold Resolver.jobClass?
  rw [List.find?_eq_findSome?_guard, List.find?_eq_findSome?_guard]
  refine findSome?_eq_of_perm h.jobClasses_perm fun c hc d hd hfound hfound' => ?_
  simp only [Option.isSome_guard, beq_iff_eq] at hfound hfound'
  exact List.inj_on_of_nodup_map h.nodup hc hd (hfound.trans hfound'.symm)

theorem Reorders.extends (h : r.Reorders r') : r.Extends load r' where
  lookedUp_eq name := by
    rw [lookedUp, lookedUp, h.jobClass?, preloaded, preloaded, caches, caches, h.libraries_eq]
  reach_le := h.reach_eq.ge

theorem Reorders.unqualified? (h : r.Reorders r') {kind : MemberKind} {parsed : Signature}
    (hunique : ∀ c ∈ r.jobClasses, ∀ d ∈ r.jobClasses,
      (c.findPublic? kind (parsed.unqualified kind)).isSome →
        (d.findPublic? kind (parsed.unqualified kind)).isSome → c = d) :
    r'.unqualified? kind parsed = r.unqualified? kind parsed := by
  have hjob : firstPublic? kind parsed r'.jobClasses = firstPublic? kind parsed r.jobClasses := by
    refine findSome?_eq_of_perm h.jobClasses_perm fun c hc d hd hfound hfound' => ?_
    rw [Option.isSome_map] at hfound hfound'
    exact hunique c hc d hd hfound hfound'
  have hfirst : firstPublic? kind parsed r'.searchOrder =
      firstPublic? kind parsed r.searchOrder := by
    rw [searchOrder, firstPublic?_append, hjob, h.libraries_eq, ← firstPublic?_append, searchOrder]
  rw [Resolver.unqualified?, Resolver.unqualified?, hfirst, h.unresolved_eq]

end Resolver
namespace Job

/-- Some source of the job declares the class. -/
def Declares (job : Job Unit MemoryStore) (c : ClassUnit) : Prop :=
  ∃ s ∈ job.sources, s.discover.1 = .ok c

/-- Some directive of the job's sources has the signature looked for outside its own class. -/
def Uses (job : Job Unit MemoryStore) (kind : MemberKind) (parsed : Signature) : Prop :=
  ∃ s ∈ job.sources, ∃ line ∈ textLines s.store.input, ∃ d,
    Directive.parse line = .ok (some d) ∧ d.Uses kind parsed

/-- No two classes of the job declare a member publicly that some directive refers to without
its owner. -/
def Unambiguous (job : Job Unit MemoryStore) : Prop :=
  ∀ kind parsed, job.Uses kind parsed → parsed.owner = none →
    ∀ c d, job.Declares c → job.Declares d →
      (c.findPublic? kind (parsed.unqualified kind)).isSome →
        (d.findPublic? kind (parsed.unqualified kind)).isSome → c = d

def reordered (job : Job τ σ) (sources : List (Source σ)) : Job τ σ := { job with sources }

variable {job : Job Unit MemoryStore} {sources : List (Source MemoryStore)}
  {discovered : List (Source MemoryStore × ClassUnit)} {r : Resolver}

theorem Begins.reordered (h : job.Begins (.fixed load size) discovered r ())
    (hperm : job.sources.Perm sources) :
    ∃ discovered' r', (job.reordered sources).Begins (.fixed load size) discovered' r' () ∧
      r.Reorders r' ∧ discovered.Perm discovered' := by
  obtain ⟨libraries, hloaded, hbuild⟩ := h.built
  obtain ⟨hfailures, hdiscovered⟩ := discoveryFailures_eq_nil h.discovered_eq
  have hnone : (job.reordered sources).discoveryFailures = [] := by
    have hfiltered := (hperm.map Source.discover).filterMap fun x => linkPhases.failure? x.1
    exact (hfiltered.symm.trans (hfailures ▸ .refl _)).eq_nil
  have hdiscoveries : discovered.Perm (job.reordered sources).discovered := by
    rw [← hdiscovered]
    exact (hperm.map Source.discover).filterMap _
  obtain ⟨r', hbuild', hreorders⟩ := Resolver.reorders_of_build hbuild
    (hdiscoveries.map fun x => (⟨x.1.name, x.2⟩ : Discovered))
  exact ⟨_, r', ⟨h.started, discover_eq_of_no_failure hnone, libraries, hloaded, hbuild'⟩, hreorders,
    hdiscoveries⟩

theorem Begins.jobClasses_eq (h : job.Begins (.fixed load size) discovered r ()) :
    r.jobClasses = discovered.map Prod.snd := by
  obtain ⟨libraries, -, hbuild⟩ := h.built
  rw [Resolver.jobClasses_eq hbuild, List.map_map]
  rfl

theorem Begins.declares (h : job.Begins (.fixed load size) discovered r ()) {c : ClassUnit}
    (hc : c ∈ r.jobClasses) : job.Declares c := by
  rw [h.jobClasses_eq] at hc
  obtain ⟨x, hx, rfl⟩ := List.mem_map.1 hc
  obtain ⟨s, hs, hdiscover⟩ := h.exists_source hx
  exact ⟨s, hs, by rw [hdiscover]⟩

/-- What a source of an unambiguous job links to, it links to in any order. -/
theorem Begins.linkAlone_reordered (hjob : job.InMemory) (hunambiguous : job.Unambiguous)
    (h : job.Begins (.fixed load size) discovered r ()) {r' : Resolver} (hreorders : r.Reorders r')
    {x : Source MemoryStore × ClassUnit} (hx : x ∈ discovered) {output : String}
    (houtput : x.1.linkAlone x.2 r job.context (.fixed load size) = .ok output) :
    x.1.linkAlone x.2 r' job.context (.fixed load size) = .ok output := by
  obtain ⟨s, hs, hdiscover⟩ := h.exists_source hx
  obtain ⟨name, text, rfl⟩ := hjob s hs
  obtain ⟨hwaiting, -, -⟩ := Source.of_discover_inMemory hdiscover
  refine hwaiting.linkAlone_carries hwaiting rfl (fun lines hlines => ⟨lines, hlines, ?_⟩)
    (fun _ _ _ hparts => hparts) houtput
  refine List.forall₂_same.2 fun line hline => ?_
  obtain ⟨htext, hparsed⟩ := parsed_of_readLines hlines hline
  refine Bindings.lineCarries_of hreorders.extends rfl id fun d hd => ⟨d, hd, .refl d, ?_⟩
  intro kind parsed huses howner reference hfound
  obtain ⟨written, hwritten, heq⟩ := List.mem_map.1 htext
  obtain rfl := Except.ok.inj heq
  have hused : job.Uses kind parsed := ⟨_, hs, _, hwritten, d, by rw [hparsed, hd], huses⟩
  rw [hreorders.unqualified? fun c hc d hd => hunambiguous kind parsed hused howner c d
    (h.declares hc) (h.declares hd)]
  exact hfound

theorem Begins.getElem?_discovered (h : job.Begins (.fixed load size) discovered r ()) {i : Nat}
    {s : Source MemoryStore} (hi : job.sources[i]? = some s) :
    ∃ x, discovered[i]? = some x ∧ s.discover = (.ok x.2, x.1) := by
  have hat := congrArg (fun discoveries => discoveries[i]?) h.discovered_eq
  simp only [List.getElem?_map, hi, Option.map_some] at hat
  obtain ⟨x, hx, heq⟩ := Option.map_eq_some_iff.1 hat.symm
  exact ⟨x, hx, heq.symm⟩

/-- In another order of the sources, an unambiguous job that links goes on to link, and each
source has its output. -/
theorem link_reordered_of_ok (hjob : job.InMemory) (hunambiguous : job.Unambiguous)
    (hperm : job.sources.Perm sources) (schedule schedule' : List Nat)
    (hok : (job.link schedule (.fixed load size)).result = .ok ()) :
    ((job.reordered sources).link schedule' (.fixed load size)).result = .ok () ∧
      ∀ (i j : Nat) (s : Source MemoryStore), job.sources[i]? = some s → sources[j]? = some s →
        (job.link schedule (.fixed load size)).outputs[i]? =
          ((job.reordered sources).link schedule' (.fixed load size)).outputs[j]? := by
  have hreordered : (job.reordered sources).InMemory := fun s hs => hjob s (hperm.mem_iff.2 hs)
  obtain ⟨discovered, r, hbegins, hlinked⟩ := (hjob.link_eq_ok_iff schedule).1 hok
  obtain ⟨discovered', r', hbegins', hreorders, hdiscoveries⟩ := hbegins.reordered hperm
  have hsame : ∀ x ∈ discovered, ∃ output,
      x.1.linkAlone x.2 r job.context (.fixed load size) = .ok output ∧
        x.1.linkAlone x.2 r' job.context (.fixed load size) = .ok output := by
    intro x hx
    obtain ⟨output, houtput⟩ := hlinked x hx
    exact ⟨output, houtput, hbegins.linkAlone_reordered hjob hunambiguous hreorders hx houtput⟩
  constructor
  · refine (hreordered.link_eq_ok_iff schedule').2 ⟨discovered', r', hbegins', fun x hx => ?_⟩
    obtain ⟨output, -, houtput⟩ := hsame x (hdiscoveries.mem_iff.2 hx)
    exact ⟨output, houtput⟩
  · intro i j s hi hj
    obtain ⟨x, hx, hdiscover⟩ := hbegins.getElem?_discovered hi
    obtain ⟨x', hx', hdiscover'⟩ := hbegins'.getElem?_discovered hj
    obtain rfl : x = x' := by
      obtain ⟨hclass, hsource⟩ := Prod.mk.inj (hdiscover.symm.trans hdiscover')
      exact Prod.ext hsource (Except.ok.inj hclass)
    obtain ⟨output, houtput, houtput'⟩ := hsame x (List.mem_of_getElem? hx)
    rw [(hjob.link_of_begins schedule hbegins).2, (hreordered.link_of_begins schedule' hbegins').2,
      List.getElem?_map, List.getElem?_map, hx, hx', Option.map_some, Option.map_some, houtput]
    exact congrArg (some ∘ Except.toOption) houtput'.symm

theorem Unambiguous.reordered (h : job.Unambiguous) (hperm : job.sources.Perm sources) :
    (job.reordered sources).Unambiguous := by
  have hmem : ∀ {s}, s ∈ sources → s ∈ job.sources := hperm.mem_iff.2
  rintro kind parsed ⟨s, hs, huses⟩ howner c d ⟨t, ht, hc⟩ ⟨u, hu, hd⟩
  exact h kind parsed ⟨s, hmem hs, huses⟩ howner c d ⟨t, hmem ht, hc⟩ ⟨u, hmem hu, hd⟩

/-- The order of the sources matters only where several of them declare what is referred to
without an owner. Else a job in memory links exactly if it does so in another order, and each
source has the same output then. -/
theorem link_reordered (hmemory : ∀ s ∈ job.sources, ∃ name text, s = Source.inMemory name text)
    (hunambiguous : job.Unambiguous) (hperm : job.sources.Perm sources)
    (schedule schedule' : List Nat) :
    ((job.link schedule (.fixed load size)).result = .ok () ↔
        ((job.reordered sources).link schedule' (.fixed load size)).result = .ok ()) ∧
      ((job.link schedule (.fixed load size)).result = .ok () →
        ∀ (i j : Nat) (s : Source MemoryStore), job.sources[i]? = some s → sources[j]? = some s →
          (job.link schedule (.fixed load size)).outputs[i]? =
            ((job.reordered sources).link schedule' (.fixed load size)).outputs[j]?) := by
  have hreordered : (job.reordered sources).InMemory := fun s hs =>
    hmemory s (hperm.mem_iff.2 hs)
  refine ⟨⟨fun hok => ?_, fun hok => ?_⟩, fun hok => ?_⟩
  · exact (link_reordered_of_ok hmemory hunambiguous hperm schedule schedule' hok).1
  · exact (link_reordered_of_ok hreordered (hunambiguous.reordered hperm) hperm.symm schedule'
      schedule hok).1
  · exact (link_reordered_of_ok hmemory hunambiguous hperm schedule schedule' hok).2

def referring : Source MemoryStore :=
  Source.inMemory "a.j" ";@class|name=A\n;@class-of|sig=m()V\n"

def declaring : Source MemoryStore :=
  Source.inMemory "b.j" ";@class|name=B\n;@method|flags=public|sig=m()V\n"

def referringFirst : Job Unit MemoryStore where
  sources := [referring, declaring]
  common := ()
  libraries := []
  unresolved := none
  context := .ofString "Context"

theorem unambiguous_referringFirst : referringFirst.Unambiguous := by
  have hreferring : referring.discover.1 =
      .ok ⟨⟨.ofString "A", .empty, some defaultSuperclass, []⟩, [], []⟩ := by decide +kernel
  have hclass : ∀ {kind : MemberKind} {signature : String} {c}, referringFirst.Declares c →
      (c.findPublic? kind signature).isSome → declaring.discover.1 = .ok c := by
    rintro kind signature c ⟨s, hs, hc⟩ hfound
    simp only [referringFirst, List.mem_cons, List.not_mem_nil, or_false] at hs
    rcases hs with rfl | rfl
    · obtain rfl := Except.ok.inj (hreferring.symm.trans hc)
      cases kind <;> cases hfound
    · exact hc
  intro kind parsed _ _ c d hc hd hfound hfound'
  exact Except.ok.inj ((hclass hc hfound).symm.trans (hclass hd hfound'))

/-- Both orders link, and the outputs change places with their sources. -/
theorem link_reordered_referringFirst :
    (∀ s ∈ referringFirst.sources, ∃ name text, s = Source.inMemory name text) ∧
      referringFirst.Unambiguous ∧ referringFirst.sources.Perm [declaring, referring] ∧
      ((referringFirst.reordered [declaring, referring]).link [1]
        (.fixed ClassLibrary.empty.load 0)).result = .ok () ∧
      ((referringFirst.reordered [declaring, referring]).link [1]
        (.fixed ClassLibrary.empty.load 0)).outputs[1]? =
          some (some ".class A\n.super java/lang/Object\nldc \"B\"\n") := by
  have hmemory : ∀ s ∈ referringFirst.sources, ∃ name text, s = Source.inMemory name text := by
    intro s hs
    simp only [referringFirst, List.mem_cons, List.not_mem_nil, or_false] at hs
    rcases hs with rfl | rfl
    · exact ⟨_, _, rfl⟩
    · exact ⟨_, _, rfl⟩
  have hperm : referringFirst.sources.Perm [declaring, referring] := .swap _ _ _
  have hcomposed : referringFirst.composed (.fixed ClassLibrary.empty.load 0) =
      some [some ".class A\n.super java/lang/Object\nldc \"B\"\n",
        some ".class B\n.super java/lang/Object\n.method public m()V\n"] := by decide +kernel
  obtain ⟨hresult, houtputs⟩ := InMemory.link_of_composed [0, 1] hmemory rfl hcomposed
  have hok := hresult.2 (by simp)
  obtain ⟨hiff, hsame⟩ := link_reordered hmemory unambiguous_referringFirst hperm [0, 1] [1]
  refine ⟨hmemory, unambiguous_referringFirst, hperm, hiff.1 hok, ?_⟩
  rw [← hsame hok 0 1 referring rfl rfl, houtputs]
  rfl

end Job
end UnitLink
