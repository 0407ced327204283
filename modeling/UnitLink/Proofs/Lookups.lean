import UnitLink.Proofs.Sessions
import UnitLink.Resolver
/-! What tasks may rely on when they look classes and references up. Whatever the tasks do,
and in whatever order, the shared caches hold nothing but the resolver's own libraries,
classes that the loader supplied under their names, and references that the signatures they
are kept under stand for. A task keeps that up, and relies on it alone. -/
namespace UnitLink

variable {τ : Type}

/-- Some question for the name is answered with the class. -/
def Loader.Supplies (loader : Loader τ) (name : ClassName) (c : ClassUnit) : Prop :=
  ∃ common, (loader.load name common).1 = .found c

/-- Some question ends the asking task. -/
def Loader.Crashes (loader : Loader τ) (message : String) : Prop :=
  ∃ name common, (loader.load name common).1 = .crashed message

namespace Resolver

/-- The class that is in the cache of loaded classes from the start. -/
def preloaded (r : Resolver) (name : ClassName) : Option ClassUnit := r.caches.classes.lookup name

def StandsFor (r : Resolver) (kind : MemberKind) (signature : String)
    (reference : Reference kind) : Prop :=
  ∃ parsed, Signature.parse kind signature = .ok parsed ∧
    r.unqualified? kind parsed = some reference

/-- The accesses of a resolver's sessions and the answers that they have to reckon with. -/
def protocol (r : Resolver) (loader : Loader τ) : Protocol τ where
  asks
    | .keep name c => r.preloaded name = none ∧ loader.Supplies name c
    | .remember kind signature reference => r.StandsFor kind signature reference
    | _ => True
  answers
    | .loaded name, answer => answer = r.preloaded name ∨
        r.preloaded name = none ∧ ∃ c, loader.Supplies name c ∧ answer = some c
    | .load name, answer => ∃ common, (loader.load name common).1 = answer
    | .keep name _, answer => loader.Supplies name answer
    | .known kind signature, answer =>
      ∀ reference, answer = some reference → r.StandsFor kind signature reference
    | .remember .., _ => True
    | .exchange _, _ => True

/-- Shared caches in which everything is as a resolver could find it by itself. -/
structure Faithful (r : Resolver) (loader : Loader τ) (shared : Shared τ) : Prop where
  keeps_preloaded : ∀ name c, r.preloaded name = some c →
    shared.caches.classes.lookup name = some c
  loaded : ∀ name c, shared.caches.classes.lookup name = some c →
    r.preloaded name = some c ∨ r.preloaded name = none ∧ loader.Supplies name c
  remembered : ∀ kind signature reference,
    (shared.caches.references kind).lookup signature = some reference →
      r.StandsFor kind signature reference

theorem faithful_start (r : Resolver) (loader : Loader τ) (common : τ) :
    r.Faithful loader ⟨r.caches, common⟩ where
  keeps_preloaded name c h := h
  loaded name c h := .inl h
  remembered kind signature reference h := by
    cases kind <;> simp [caches, Caches.ofClasses, Caches.references] at h

theorem Faithful.keep {r : Resolver} {loader : Loader τ} {shared : Shared τ}
    (h : r.Faithful loader shared) {name : ClassName} {c : ClassUnit}
    (hnone : r.preloaded name = none) (hc : loader.Supplies name c) :
    loader.Supplies name (shared.caches.keep name c).1 ∧
      r.Faithful loader { shared with caches := (shared.caches.keep name c).2 } := by
  unfold Caches.keep
  cases hentered : shared.caches.classes.lookup name with
  | some entered =>
    refine ⟨?_, h⟩
    rcases h.loaded name entered hentered with hpre | ⟨-, hsupplies⟩
    · rw [hnone] at hpre
      cases hpre
    · exact hsupplies
  | none =>
    refine ⟨hc, ?_, ?_, h.remembered⟩
    · intro other d hd
      rw [List.lookup_cons]
      split
      · rename_i heq
        obtain rfl : other = name := by simpa using heq
        rw [hnone] at hd
        cases hd
      · exact h.keeps_preloaded other d hd
    · intro other d hd
      rw [List.lookup_cons] at hd
      split at hd
      · rename_i heq
        obtain rfl : other = name := by simpa using heq
        obtain rfl := Option.some.inj hd
        exact .inr ⟨hnone, hc⟩
      · exact h.loaded other d hd

theorem Faithful.remember {r : Resolver} {loader : Loader τ} {shared : Shared τ}
    (h : r.Faithful loader shared) {kind : MemberKind} {signature : String}
    {reference : Reference kind} (hstands : r.StandsFor kind signature reference) :
    r.Faithful loader
      { shared with caches := shared.caches.remember kind signature reference } where
  keeps_preloaded name c hc := by
    cases kind <;> exact h.keeps_preloaded name c hc
  loaded name c hc := by
    cases kind <;> exact h.loaded name c hc
  remembered other written found hfound := by
    have hold := h.remembered other written found
    cases kind <;> cases other <;>
      simp only [Caches.remember, Caches.references, List.lookup_cons] at hfound hold
    · split at hfound
      · rename_i heq
        obtain rfl : written = signature := by simpa using heq
        obtain rfl := Option.some.inj hfound
        exact hstands
      · exact hold hfound
    · exact hold hfound
    · exact hold hfound
    · split at hfound
      · rename_i heq
        obtain rfl : written = signature := by simpa using heq
        obtain rfl := Option.some.inj hfound
        exact hstands
      · exact hold hfound

/-- Tasks that keep to the protocol leave the caches faithful, and faithful caches answer
as the protocol says. -/
theorem protocol_keeps (r : Resolver) (loader : Loader τ) :
    Session.Keeps (r.protocol loader) loader (r.Faithful loader) := by
  intro shared op h hasks
  cases op with
  | loaded name =>
    refine ⟨?_, h⟩
    show shared.caches.classes.lookup name = r.preloaded name ∨ _
    cases hpre : r.preloaded name with
    | some c => exact .inl (h.keeps_preloaded name c hpre)
    | none =>
      cases hc : shared.caches.classes.lookup name with
      | none => exact .inl rfl
      | some c =>
        rcases h.loaded name c hc with hsome | ⟨hnone, hsupplies⟩
        · rw [hpre] at hsome
          cases hsome
        · exact .inr ⟨rfl, c, hsupplies, hc⟩
  | load name => exact ⟨⟨shared.common, rfl⟩, h.keeps_preloaded, h.loaded, h.remembered⟩
  | keep name c => exact h.keep hasks.1 hasks.2
  | known kind signature => exact ⟨fun reference hknown => h.remembered _ _ _ hknown, h⟩
  | remember kind signature reference => exact ⟨trivial, h.remember hasks⟩
  | exchange update => exact ⟨trivial, h.keeps_preloaded, h.loaded, h.remembered⟩

/-! ### Searches are lookups -/

/-- A property of sessions that may stop, which one session after another has if both do. -/
structure Composes (Q : {α : Type} → Resolving τ α → Prop) : Prop where
  pure : ∀ {α : Type} (value : α), Q (Pure.pure value)
  bind : ∀ {α β : Type} {x : Resolving τ α} {f : α → Resolving τ β},
    Q x → (∀ value, Q (f value)) → Q (x >>= f)

section Composing

variable {α : Type} {Q : {α : Type} → Resolving τ α → Prop} {r : Resolver} (h : Composes Q)
  (hlookup : ∀ name, Q (r.lookup name))

include h hlookup

theorem Composes.lookupAll (names : List ClassName) : Q (r.lookupAll names) := by
  induction names with
  | nil => exact h.pure _
  | cons name names ih =>
    refine h.bind ih fun others => ?_
    refine h.bind (hlookup name) fun result => ?_
    cases result with
    | error fault => exact h.pure _
    | ok c => exact h.pure _

theorem Composes.search (find : ClassUnit → Option α) (steps : Nat) (visited : List ClassName)
    (pending : List ClassUnit) : Q (r.search find steps visited pending) := by
  induction steps, visited, pending using search.induct find with
  | case1 =>
    unfold Resolver.search
    exact h.pure _
  | case2 steps visited c pending hmem ih =>
    unfold Resolver.search
    rw [if_pos hmem]
    exact ih
  | case3 steps visited c pending hmem found hfound =>
    unfold Resolver.search
    rw [if_neg hmem, hfound]
    exact h.pure _
  | case4 visited c pending hmem hfound =>
    unfold Resolver.search
    rw [if_neg hmem, hfound]
    exact h.pure _
  | case5 visited c pending hmem hfound steps ih =>
    unfold Resolver.search
    rw [if_neg hmem, hfound]
    exact h.bind (h.lookupAll hlookup _) fun supertypes => ih supertypes

theorem Composes.findInherited (c : ClassUnit) (find : ClassUnit → Option α) :
    Q (r.findInherited c find) :=
  h.search hlookup find _ _ _

end Composing

/-! ### What lookups and resolutions deliver -/

/-- How a task may stop: with a fault of what was written, or where the loader ends it. -/
def ExpectedStop (loader : Loader τ) : Stop → Prop
  | .failed failure => failure.kind = .declaration ∨ failure.kind = .resolution
  | .crashed message => loader.Crashes message

section Delivering

variable {α β : Type} (r : Resolver) (loader : Loader τ)

/-- Within the protocol the session gives a value with the property, or stops as expected. -/
def Delivers (x : Resolving τ α) (good : α → Prop) : Prop :=
  x.run.Meets (r.protocol loader) fun result =>
    match result with
    | .ok value => good value
    | .error stop => ExpectedStop loader stop

variable {r loader} {good : α → Prop} {good' : β → Prop}

theorem delivers_pure {value : α} (h : good value) : r.Delivers loader (pure value) good := h

theorem delivers_stop {stop : Stop} (h : ExpectedStop loader stop) :
    r.Delivers loader (throw stop : Resolving τ α) good := h

theorem delivers_fail {failure : Failure}
    (h : failure.kind = .declaration ∨ failure.kind = .resolution) :
    r.Delivers loader (fail failure : Resolving τ α) good := h

theorem delivers_access {op : SharedOp τ} {good : op.Answer → Prop}
    (hasks : (r.protocol loader).asks op)
    (h : ∀ answer, (r.protocol loader).answers op answer → good answer) :
    r.Delivers loader (access op) good :=
  ⟨hasks, fun answer hanswer => h answer hanswer⟩

theorem Delivers.bind {x : Resolving τ α} {f : α → Resolving τ β} (h : r.Delivers loader x good)
    (hf : ∀ value, good value → r.Delivers loader (f value) good') :
    r.Delivers loader (x >>= f) good' := by
  refine Session.meets_run_bind (Session.Meets.mono h ?_)
  rintro (stop | value) hresult
  · exact hresult
  · exact hf value hresult

theorem delivers_bind_access {op : SharedOp τ} {f : op.Answer → Resolving τ β}
    (hasks : (r.protocol loader).asks op)
    (hf : ∀ answer, (r.protocol loader).answers op answer → r.Delivers loader (f answer) good') :
    r.Delivers loader (access op >>= f) good' :=
  Delivers.bind (delivers_access hasks fun _ hanswer => hanswer) hf

theorem Delivers.mono {good' : α → Prop} {x : Resolving τ α} (h : r.Delivers loader x good)
    (himp : ∀ value, good value → good' value) : r.Delivers loader x good' := by
  refine Session.Meets.mono h ?_
  rintro (stop | value) hresult
  · exact hresult
  · exact himp value hresult

/-- A name is looked up to a source's class, or else to a library or a class of the loader. -/
theorem lookup_delivers_good {good : ClassUnit → Prop} (name : ClassName)
    (hjob : ∀ c, r.jobClass? name = some c → good c)
    (hother : r.jobClass? name = none →
      ∀ c, r.preloaded name = some c ∨ loader.Supplies name c → good c) :
    r.Delivers loader (r.lookup name) fun found => ∀ c, found = .ok c → good c := by
  unfold lookup
  cases hown : r.jobClass? name with
  | some own =>
    refine delivers_pure ?_
    rintro _ ⟨⟩
    exact hjob own hown
  | none =>
    refine delivers_bind_access trivial ?_
    rintro (_ | cached) hcached
    · have hpre : r.preloaded name = none := by
        rcases hcached with hnone | ⟨hnone, -⟩
        · exact hnone.symm
        · exact hnone
      refine delivers_bind_access trivial ?_
      rintro (c | fault | message) ⟨common, hload⟩
      · refine delivers_bind_access ⟨hpre, common, hload⟩ fun kept hkept => delivers_pure ?_
        rintro _ ⟨⟩
        exact hother hown kept (.inr hkept)
      · exact delivers_pure (by rintro c ⟨⟩)
      · exact delivers_stop ⟨name, common, hload⟩
    · refine delivers_pure ?_
      rintro _ ⟨⟩
      rcases hcached with hpre | ⟨-, c, hc, hsome⟩
      · exact hother hown cached (.inl hpre.symm)
      · obtain rfl := Option.some.inj hsome
        exact hother hown cached (.inr hc)

theorem lookup_delivers (name : ClassName) : r.Delivers loader (r.lookup name) fun _ => True := by
  have hany : r.Delivers loader (r.lookup name) fun found => ∀ c, found = .ok c → True :=
    lookup_delivers_good name (fun _ _ => trivial) fun _ _ _ => trivial
  exact hany.mono fun _ _ => trivial

theorem lookupAll_delivers_good {good : ClassUnit → Prop}
    (h : ∀ name, r.Delivers loader (r.lookup name) fun found => ∀ c, found = .ok c → good c)
    (names : List ClassName) :
    r.Delivers loader (r.lookupAll names) fun classes => ∀ c ∈ classes, good c := by
  induction names with
  | nil => exact delivers_pure (by simp)
  | cons name names ih =>
    refine Delivers.bind ih fun others hothers => ?_
    refine Delivers.bind (h name) ?_
    rintro (fault | c) hc
    · exact delivers_pure hothers
    · exact delivers_pure (List.forall_mem_cons.2 ⟨hc c rfl, hothers⟩)

theorem delivers_composes :
    Composes fun {α} (x : Resolving τ α) => r.Delivers loader x fun _ => True where
  pure _ := delivers_pure trivial
  bind h hf := h.bind fun value _ => hf value

/-- A reference has the name and the descriptor of the signature that it was resolved from. -/
def SpelledBy {kind : MemberKind} (reference : Reference kind) (signature : String) : Prop :=
  ∃ parsed, Signature.parse kind signature = .ok parsed ∧ reference.name = parsed.name ∧
    reference.descriptor = parsed.descriptor

theorem findInherited_delivers (c : ClassUnit) (find : ClassUnit → Option α) :
    r.Delivers loader (r.findInherited c find) fun _ => True :=
  delivers_composes.findInherited lookup_delivers c find

theorem namedClass_delivers (owner : ClassName) (referrer : ClassUnit) (signature : String) :
    r.Delivers loader (r.namedClass owner referrer signature) fun _ => True := by
  unfold namedClass
  split
  · exact delivers_pure trivial
  · refine Delivers.bind (lookup_delivers owner) ?_
    rintro (fault | c) _
    · exact delivers_fail (.inr rfl)
    · exact delivers_pure trivial

variable {kind : MemberKind}

theorem parse_delivers (signature : String) :
    r.Delivers loader (parse kind signature) fun parsed =>
      Signature.parse kind signature = .ok parsed := by
  unfold parse
  split
  · rename_i parsed hparsed
    exact delivers_pure hparsed
  · exact delivers_fail (.inl rfl)

theorem resolveQualified_delivers {signature : String} {parsed : Signature}
    (hparsed : Signature.parse kind signature = .ok parsed) (owner : ClassName)
    (referrer : ClassUnit) :
    r.Delivers loader (r.resolveQualified signature parsed owner referrer)
      fun reference : Reference kind => SpelledBy reference signature := by
  unfold resolveQualified
  refine Delivers.bind (namedClass_delivers owner referrer signature) fun c _ => ?_
  refine Delivers.bind (findInherited_delivers c _) ?_
  rintro (_ | found) _
  · exact delivers_fail (.inr rfl)
  · exact delivers_pure ⟨parsed, hparsed, rfl, rfl⟩

theorem spelledBy_of_unqualified? {signature : String} {parsed : Signature}
    (hparsed : Signature.parse kind signature = .ok parsed) {reference : Reference kind}
    (h : r.unqualified? kind parsed = some reference) : SpelledBy reference signature := by
  unfold unqualified? at h
  cases hfirst : firstPublic? kind parsed r.searchOrder with
  | some first =>
    rw [hfirst] at h
    obtain rfl : first = reference := Option.some.inj h
    obtain ⟨c, -, hc⟩ := List.exists_of_findSome?_eq_some hfirst
    obtain ⟨found, -, rfl⟩ := Option.map_eq_some_iff.1 hc
    exact ⟨parsed, hparsed, rfl, rfl⟩
  | none =>
    rw [hfirst] at h
    obtain ⟨target, -, rfl⟩ := Option.map_eq_some_iff.1 h
    exact ⟨parsed, hparsed, rfl, rfl⟩

theorem resolveUnqualified_delivers {signature : String} {parsed : Signature}
    (hparsed : Signature.parse kind signature = .ok parsed) :
    r.Delivers loader (r.resolveUnqualified signature parsed)
      fun reference : Reference kind => SpelledBy reference signature := by
  unfold resolveUnqualified
  refine delivers_bind_access trivial ?_
  rintro (_ | reference) hknown
  · cases hfound : r.unqualified? kind parsed with
    | none => exact delivers_fail (.inr rfl)
    | some reference =>
      have hremember : (r.protocol loader).asks (.remember kind signature reference) :=
        ⟨parsed, hparsed, hfound⟩
      refine delivers_bind_access hremember fun _ _ => ?_
      exact delivers_pure (spelledBy_of_unqualified? hparsed hfound)
  · obtain ⟨parsed', hparsed', hfound⟩ := hknown reference rfl
    exact delivers_pure (spelledBy_of_unqualified? hparsed' hfound)

theorem resolve_delivers (signature : String) (referrer : ClassUnit) :
    r.Delivers loader (r.resolve kind signature referrer)
      fun reference => SpelledBy reference signature := by
  unfold resolve
  refine Delivers.bind (parse_delivers signature) fun parsed hparsed => ?_
  cases parsed.owner with
  | some owner => exact resolveQualified_delivers hparsed _ referrer
  | none => exact resolveUnqualified_delivers hparsed

theorem spelledBy_of_resolveLocal {signature : String} {referrer : ClassUnit}
    {reference : Reference kind} (h : resolveLocal kind signature referrer = .ok reference) :
    SpelledBy reference signature := by
  unfold resolveLocal at h
  split at h
  · cases h
  · rename_i parsed hparsed
    split at h
    · cases h
    · split at h
      · cases h
      · split at h
        · cases h
        · obtain rfl := Except.ok.inj h
          exact ⟨parsed, hparsed, rfl, rfl⟩

theorem kind_of_resolveLocal_error {signature : String} {referrer : ClassUnit} {failure : Failure}
    (h : resolveLocal kind signature referrer = .error failure) :
    failure.kind = .declaration ∨ failure.kind = .resolution := by
  unfold resolveLocal at h
  split at h
  · obtain rfl := Except.error.inj h
    exact .inl rfl
  · split at h
    · obtain rfl := Except.error.inj h
      exact .inr rfl
    · split at h
      · obtain rfl := Except.error.inj h
        exact .inr rfl
      · split at h
        · obtain rfl := Except.error.inj h
          exact .inr rfl
        · cases h

end Delivering

end Resolver
end UnitLink
