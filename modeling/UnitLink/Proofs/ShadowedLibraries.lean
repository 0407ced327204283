import UnitLink.Proofs.ResolverCalls
import UnitLink.Proofs.UndeclaredNames
/-! Classes that the job's sources declare, before all others. Whatever else bears a declared
name, among the libraries or with the loader, is nothing that a resolver ever comes to: not by
looking up the name, not as a supertype of some other class and not for a signature without an
owner. It could be anything else without a difference to any run of calls. -/
namespace UnitLink

variable {τ α : Type}

namespace Resolver

variable {r : Resolver} {loader : Loader τ} {discovered : List Discovered}
  {libraries : List ClassUnit} {unresolved : Option ClassName}

/-- A source's class, or one of another name than theirs. -/
def Unshadowed (discovered : List Discovered) (c : ClassUnit) : Prop :=
  ∀ d ∈ discovered, d.declared.name = c.name → c = d.declared

/-! ### What is looked up -/

section Naming

variable (hbuild : build discovered libraries unresolved loader = .ok r)

theorem lookup_of_jobClass? {name : ClassName} {c : ClassUnit} (h : r.jobClass? name = some c) :
    (r.lookup name : Resolving τ _) = pure (.ok c) := by
  rw [lookup, h]

include hbuild

theorem unshadowed_of_jobClass? {c : ClassUnit} (h : r.jobClass? c.name = none ∨
    r.jobClass? c.name = some c) : Unshadowed discovered c := by
  intro d hd hname
  have hown := jobClass?_of_mem hbuild hd
  rw [hname] at hown
  rcases h with hnone | hsome
  · cases hnone.symm.trans hown
  · exact Option.some.inj (hsome.symm.trans hown)

/-- A loader that answers with what it is asked for gives no class of a declared name, since it
is not asked for one. -/
theorem lookup_delivers_unshadowed (hnamed : loader.NamesAsked) (name : ClassName) :
    r.Delivers loader (r.lookup name) fun found =>
      ∀ c, found = .ok c → c.name = name ∧ Unshadowed discovered c := by
  apply lookup_delivers_good
  · intro c hjob
    obtain ⟨-, rfl⟩ := of_jobClass? hjob
    exact ⟨rfl, unshadowed_of_jobClass? hbuild (.inr hjob)⟩
  · intro hnone c hc
    obtain rfl : c.name = name := by
      rcases hc with hpre | ⟨common, hload⟩
      · exact (of_preloaded hpre).2
      · exact hnamed name common c hload
    exact ⟨rfl, unshadowed_of_jobClass? hbuild (.inl hnone)⟩

theorem lookupAll_delivers_unshadowed (hnamed : loader.NamesAsked) (names : List ClassName) :
    r.Delivers loader (r.lookupAll names) fun classes =>
      ∀ c ∈ classes, Unshadowed discovered c :=
  lookupAll_delivers_good (fun name => (lookup_delivers_unshadowed hbuild hnamed name).mono
    fun _ hfound c hc => (hfound c hc).2) names

theorem search_delivers_unshadowed (hnamed : loader.NamesAsked) {good : ClassUnit → Prop}
    (hgood : ∀ c, Unshadowed discovered c → good c) (find : ClassUnit → Option α) (steps : Nat)
    (visited : List ClassName) (pending : List ClassUnit) (hpending : ∀ c ∈ pending, good c) :
    r.Delivers loader (r.search find steps visited pending) fun result =>
      ∀ found, result = some found → ∃ c, good c ∧ find c = some found := by
  induction steps, visited, pending using search.induct find with
  | case1 =>
    unfold search
    exact delivers_pure (by rintro found ⟨⟩)
  | case2 steps visited c pending hmem ih =>
    rw [search_of_mem hmem]
    exact ih fun d hd => hpending d (List.mem_cons_of_mem _ hd)
  | case3 steps visited c pending hmem found hfound =>
    rw [search_of_found hmem hfound]
    refine delivers_pure ?_
    rintro _ ⟨⟩
    exact ⟨c, hpending c List.mem_cons_self, hfound⟩
  | case4 visited c pending hmem hnone =>
    unfold search
    rw [if_neg hmem, hnone]
    exact delivers_pure (by rintro found ⟨⟩)
  | case5 visited c pending hmem hnone steps ih =>
    rw [search_of_not_found hmem hnone]
    refine Delivers.bind (lookupAll_delivers_unshadowed hbuild hnamed _) fun supertypes h => ?_
    refine ih supertypes fun d hd => ?_
    rcases List.mem_append.1 hd with hd | hd
    · exact hgood d (h d hd)
    · exact hpending d (List.mem_cons_of_mem _ hd)

/-- A search from a class that nothing shadows looks into such classes only: what there is to
find in others makes no difference. -/
theorem search_congr (hnamed : loader.NamesAsked) {find find' : ClassUnit → Option α}
    (hsame : ∀ c, Unshadowed discovered c → find' c = find c) (steps : Nat)
    (visited : List ClassName) (pending : List ClassUnit)
    (hpending : ∀ c ∈ pending, Unshadowed discovered c) {shared : Shared τ}
    (hshared : r.Faithful loader shared) :
    (r.search find' steps visited pending).run.run loader shared =
      (r.search find steps visited pending).run.run loader shared := by
  induction steps, visited, pending using search.induct find generalizing shared with
  | case1 =>
    unfold search
    rfl
  | case2 steps visited c pending hmem ih =>
    rw [search_of_mem hmem, search_of_mem hmem]
    exact ih (fun d hd => hpending d (List.mem_cons_of_mem _ hd)) hshared
  | case3 steps visited c pending hmem found hfound =>
    have hfound' := (hsame c (hpending c List.mem_cons_self)).trans hfound
    rw [search_of_found hmem hfound, search_of_found hmem hfound']
  | case4 visited c pending hmem hnone =>
    have hnone' := (hsame c (hpending c List.mem_cons_self)).trans hnone
    unfold search
    rw [if_neg hmem, if_neg hmem, hnone, hnone']
  | case5 visited c pending hmem hnone steps ih =>
    have hnone' := (hsame c (hpending c List.mem_cons_self)).trans hnone
    rw [search_of_not_found hmem hnone, search_of_not_found hmem hnone', ExceptT.run_bind,
      ExceptT.run_bind, Session.run_bind, Session.run_bind]
    obtain ⟨hsupertypes, hlater⟩ := Session.Meets.run (r.protocol_keeps loader)
      (lookupAll_delivers_unshadowed hbuild hnamed c.supertypes) hshared
    generalize (r.lookupAll c.supertypes).run.run loader shared = answer at hsupertypes hlater
    obtain ⟨stop | supertypes, later⟩ := answer
    · rfl
    · refine ih supertypes (fun d hd => ?_) hlater
      rcases List.mem_append.1 hd with hd | hd
      · exact hsupertypes d hd
      · exact hpending d (List.mem_cons_of_mem _ hd)

/-- What a signature with an owner resolves to is a member of the class that it names, which the
class has or inherits. Neither is shadowed, the referring class apart. -/
theorem resolve_delivers_unshadowed (hnamed : loader.NamesAsked) {kind : MemberKind}
    {signature written : String} {parsed : Signature}
    (hparsed : Signature.parse kind signature = .ok parsed) (howner : parsed.owner = some written)
    (referrer : ClassUnit) :
    r.Delivers loader (r.resolve kind signature referrer) fun reference =>
      ∃ c d found, reference = declaredIn parsed c found ∧ c.name = .ofString written ∧
        (c = referrer ∨ Unshadowed discovered c) ∧ (d = referrer ∨ Unshadowed discovered d) ∧
          d.findPublic? kind (parsed.unqualified kind) = some found := by
  have hclass : r.Delivers loader (r.namedClass (.ofString written) referrer signature) fun c =>
      c.name = .ofString written ∧ (c = referrer ∨ Unshadowed discovered c) := by
    unfold namedClass
    split
    · rename_i hself
      exact delivers_pure ⟨hself.symm, .inl rfl⟩
    · refine Delivers.bind (lookup_delivers_unshadowed hbuild hnamed _) ?_
      rintro (fault | c) hc
      · exact delivers_fail (.inr rfl)
      · exact delivers_pure ⟨(hc c rfl).1, .inr (hc c rfl).2⟩
  unfold resolve
  refine Delivers.bind (parse_delivers signature) fun parsed' hparsed' => ?_
  obtain rfl := Except.ok.inj (hparsed.symm.trans hparsed')
  rw [howner]
  refine Delivers.bind hclass ?_
  rintro c ⟨hname, hc⟩
  have hsearched : ∀ d ∈ [c], d = referrer ∨ Unshadowed discovered d := by
    intro d hd
    obtain rfl := List.mem_singleton.1 hd
    exact hc
  refine Delivers.bind (search_delivers_unshadowed hbuild hnamed (fun _ => .inr) _ _ _ _
    hsearched) ?_
  rintro (_ | found) hfound
  · exact delivers_fail (.inr rfl)
  · obtain ⟨d, hd, hpublic⟩ := hfound found rfl
    refine delivers_pure ⟨c, d, found, ?_, hname, hc, hd, hpublic⟩
    rw [declaredIn, hname]

end Naming

/-! ### Signatures without an owner -/

section Unqualified

variable {kind : MemberKind} {signature : String} {parsed : Signature}

/-- The answer to a signature without an owner, where the classes are searched in their order and
what none of them has is sent to the catch-all target. -/
def firstAnswer (classes : List ClassUnit) (unresolved : Option ClassName) (kind : MemberKind)
    (signature : String) (parsed : Signature) : Except Stop (Reference kind) :=
  match classes.findSome? fun c =>
      (c.findPublic? kind (parsed.unqualified kind)).map (declaredIn parsed c), unresolved with
  | some reference, _ => .ok reference
  | none, some target => .ok ⟨target, parsed.name, parsed.descriptor, .ofStatic kind, false⟩
  | none, none => .error (.failed (.resolution (.noPublicMember signature)))

theorem resolve_comesTo_firstAnswer (hparsed : Signature.parse kind signature = .ok parsed)
    (howner : parsed.owner = none) (referrer : ClassUnit) :
    r.ComesTo loader (r.resolve kind signature referrer)
      (firstAnswer r.searchOrder r.unresolved kind signature parsed) := by
  have hanswer : firstAnswer r.searchOrder r.unresolved kind signature parsed =
      (r.unqualified? kind parsed).elim
        (.error (.failed (.resolution (.noPublicMember signature)))) .ok := by
    have hfirst : firstPublic? kind parsed r.searchOrder = r.searchOrder.findSome? fun c =>
        (c.findPublic? kind (parsed.unqualified kind)).map (declaredIn parsed c) := rfl
    unfold firstAnswer unqualified?
    rw [← hfirst]
    cases firstPublic? kind parsed r.searchOrder with
    | some reference => rfl
    | none => cases r.unresolved <;> rfl
  rw [hanswer]
  cases hfound : r.unqualified? kind parsed with
  | some reference => exact resolve_unqualified_comesTo hparsed howner referrer hfound
  | none =>
    unfold resolve
    refine ComesTo.bind (parse_comesTo hparsed) ?_
    rw [howner]
    refine meets_access_bind trivial ?_
    rintro (_ | known) hknown
    · simp only [hfound]
      exact comesTo_fail _
    · obtain ⟨parsed', hparsed', hstands⟩ := hknown known rfl
      obtain rfl := Except.ok.inj (hparsed.symm.trans hparsed')
      cases hfound.symm.trans hstands

end Unqualified

end Resolver

namespace ResolverCall

open Resolver

variable {loader : Loader τ} {discovered : List Discovered} {libraries : List ClassUnit}
  {unresolved : Option ClassName} {r : Resolver}

/-- What a source declares is what its name is looked up to. Signatures without an owner are looked
for among the sources' classes and then the libraries of other names. -/
def PrefersSources (discovered : List Discovered) (libraries : List ClassUnit)
    (unresolved : Option ClassName) : ResolverCall → Except Stop ResolverAnswer → Prop
  | lookup name, answer =>
    ∀ d ∈ discovered, d.declared.name = name → answer = .ok (.lookup (.ok d.declared))
  | resolve kind signature _, answer => ∀ parsed, Signature.parse kind signature = .ok parsed →
    parsed.owner = none → answer =
      (firstAnswer (discovered.map Discovered.declared ++
        libraries.filter fun c => Undeclared discovered c.name) unresolved kind signature
          parsed).map .reference
  | resolveLocal .., _ => True

/-- A class that is looked up has the name asked for, and is not shadowed. Nor is one that a
signature with an owner comes to, unless it is the referring class. -/
def AvoidsShadowed (discovered : List Discovered) : ResolverCall → Except Stop ResolverAnswer → Prop
  | lookup name, answer =>
    ∀ c, answer = .ok (.lookup (.ok c)) → c.name = name ∧ Unshadowed discovered c
  | resolve kind signature referrer, answer => ∀ parsed written (reference : Reference kind),
    Signature.parse kind signature = .ok parsed → parsed.owner = some written →
      answer = .ok (.reference reference) →
        ∃ c d found, reference = declaredIn parsed c found ∧ c.name = .ofString written ∧
          (c = referrer ∨ Unshadowed discovered c) ∧ (d = referrer ∨ Unshadowed discovered d) ∧
            d.findPublic? kind (parsed.unqualified kind) = some found
  | resolveLocal .., _ => True

theorem ask_meets (r : Resolver) (loader : Loader τ) (call : ResolverCall) :
    (call.ask r : Resolving τ _).run.Meets (r.protocol loader) fun _ => True := by
  have hdelivers : r.Delivers loader (call.ask r) fun _ => True := by
    cases call with
    | lookup name => exact Delivers.bind (lookup_delivers name) fun _ _ => delivers_pure trivial
    | resolve kind signature referrer =>
      exact Delivers.bind (resolve_delivers signature referrer) fun _ _ => delivers_pure trivial
    | resolveLocal kind signature referrer =>
      simp only [ask]
      cases hlocal : Resolver.resolveLocal kind signature referrer with
      | ok reference => exact delivers_pure trivial
      | error failure => exact delivers_fail (kind_of_resolveLocal_error hlocal)
  exact Session.Meets.mono hdelivers fun _ _ => trivial

section Calls

variable (hbuild : build discovered libraries unresolved loader = .ok r)

include hbuild

theorem ask_asks (call : ResolverCall) :
    (call.ask r : Resolving τ _).run.Meets (undeclaredOnly discovered) fun _ => True := by
  have hcomposes := meets_composes (undeclaredOnly (τ := τ) discovered)
  cases call with
  | lookup name => exact hcomposes.bind (lookup_asks hbuild name) fun _ => trivial
  | resolve kind signature referrer =>
    exact hcomposes.bind (resolve_asks hbuild signature referrer) fun _ => trivial
  | resolveLocal kind signature referrer =>
    simp only [ask]
    cases Resolver.resolveLocal kind signature referrer <;> exact trivial

theorem ask_meets_prefersSources (call : ResolverCall) :
    (call.ask r : Resolving τ _).run.Meets (r.protocol loader)
      (PrefersSources discovered libraries unresolved call) := by
  have hcalled := ask_meets r loader call
  cases call with
  | lookup name =>
    cases hjob : r.jobClass? name with
    | some own =>
      simp only [ask]
      rw [lookup_of_jobClass? hjob, pure_bind]
      refine Session.meets_pure ?_
      rintro d hd rfl
      obtain rfl := Option.some.inj (hjob.symm.trans (jobClass?_of_mem hbuild hd))
      rfl
    | none =>
      have hundeclared := (jobClass?_eq_none_iff hbuild).1 hjob
      exact hcalled.mono fun answer _ d hd hname => absurd hname (hundeclared d hd)
  | resolve kind signature referrer =>
    by_cases hunqualified : ∃ parsed, Signature.parse kind signature = .ok parsed ∧
        parsed.owner = none
    · obtain ⟨parsed, hparsed, howner⟩ := hunqualified
      have hcomes : r.ComesTo loader (r.resolve kind signature referrer) _ :=
        resolve_comesTo_firstAnswer hparsed howner referrer
      rw [searchOrder_eq hbuild, unresolved_of_build hbuild] at hcomes
      refine Session.meets_run_bind (Session.Meets.mono hcomes ?_)
      rintro answer hanswer
      cases answer with
      | error stop | ok reference =>
        intro parsed' hparsed' _
        obtain rfl := Except.ok.inj (hparsed.symm.trans hparsed')
        rw [← hanswer]
        rfl
    · exact hcalled.mono fun answer _ parsed hparsed howner =>
        absurd ⟨parsed, hparsed, howner⟩ hunqualified
  | resolveLocal => exact hcalled.mono fun _ _ => trivial

theorem ask_meets_avoidsShadowed (hnamed : loader.NamesAsked) (call : ResolverCall) :
    (call.ask r : Resolving τ _).run.Meets (r.protocol loader)
      (AvoidsShadowed discovered call) := by
  have hcalled := ask_meets r loader call
  cases call with
  | lookup name =>
    refine Session.meets_run_bind
      (Session.Meets.mono (lookup_delivers_unshadowed hbuild hnamed name) ?_)
    rintro (stop | found) hfound
    · rintro c ⟨⟩
    · rintro c ⟨⟩
      exact hfound c rfl
  | resolve kind signature referrer =>
    cases hparsed : Signature.parse kind signature with
    | error fault =>
      refine hcalled.mono fun answer _ parsed written reference hparsed' => ?_
      cases hparsed.symm.trans hparsed'
    | ok parsed =>
      cases howner : parsed.owner with
      | none =>
        refine hcalled.mono fun answer _ parsed' written reference hparsed' howner' => ?_
        obtain rfl := Except.ok.inj (hparsed.symm.trans hparsed')
        cases howner.symm.trans howner'
      | some written =>
        refine Session.meets_run_bind (Session.Meets.mono
          (resolve_delivers_unshadowed hbuild hnamed hparsed howner referrer) ?_)
        rintro (stop | resolved) hresolved
        · rintro parsed' written' reference - - ⟨⟩
        · rintro parsed' written' reference hparsed' howner' ⟨⟩
          obtain rfl := Except.ok.inj (hparsed.symm.trans hparsed')
          obtain rfl := Option.some.inj (howner.symm.trans howner')
          exact hresolved
  | resolveLocal => exact hcalled.mono fun _ _ => trivial

end Calls

end ResolverCall

namespace Resolver

variable {loader : Loader τ} {discovered : List Discovered} {libraries : List ClassUnit}
  {unresolved : Option ClassName} {r : Resolver}

/-- Threads that make calls of a new resolver, none of which has begun. -/
def threads (r : Resolver) (calls : List (List ResolverCall)) (common : τ) :
    UnderWay τ (List (Except Stop ResolverAnswer)) :=
  ⟨calls.map (ResolverCall.askEach r), ⟨r.caches, common⟩⟩

theorem threads_meet {P : Protocol τ} {post : ResolverCall → Except Stop ResolverAnswer → Prop}
    (h : ∀ call : ResolverCall, (call.ask r : Resolving τ _).run.Meets P (post call))
    (calls : List (List ResolverCall)) (common : τ) :
    List.Forall₂ (fun s calls => s.Meets P fun answers =>
        List.Forall₂ (fun answer call => post call answer) answers calls)
      (r.threads calls common).sessions calls := by
  refine List.forall₂_map_left_iff.2 (List.forall₂_same.2 fun calls _ => ?_)
  exact ResolverCall.askEach_meets r fun call _ => h call

/-- Libraries that are the same but for classes of declared names. -/
def SameUndeclared (discovered : List Discovered) (libraries libraries' : List ClassUnit) : Prop :=
  List.Forall₂ (fun c c' => c' = c ∨
    ¬Undeclared discovered c.name ∧ ¬Undeclared discovered c'.name) libraries libraries'

theorem build_of_sameUndeclared {libraries' : List ClassUnit} {loader' : Loader τ}
    (hbuild : build discovered libraries unresolved loader = .ok r)
    (h : SameUndeclared discovered libraries libraries') (hsize : loader'.size = loader.size) :
    build discovered libraries' unresolved loader' = .ok r := by
  have hfilter : (libraries'.filter fun c => Undeclared discovered c.name) =
      libraries.filter fun c => Undeclared discovered c.name := by
    clear hbuild
    induction h with
    | nil => rfl
    | cons hfirst _ ih =>
      rcases hfirst with rfl | ⟨hdeclared, hdeclared'⟩
      · rw [List.filter_cons, List.filter_cons, ih]
      · rw [List.filter_cons_of_neg (by simpa using hdeclared'),
          List.filter_cons_of_neg (by simpa using hdeclared), ih]
  obtain ⟨hnodup, rfl⟩ := build_eq_ok_iff.1 hbuild
  exact build_eq_ok_iff.2 ⟨hnodup, by rw [hfilter, h.length_eq, hsize]⟩

/-- There is a resolver unless two sources declare classes of one name; then the first class that
repeats a name is told of, with the sources that declare it first and again. A resolver searches
the sources' classes in order and then, in order, the libraries of other names. Whatever is asked
of it, and however the calls interleave, it neither asks for a class of a declared name nor keeps
one; libraries of declared names, and what the loader has under these, make no difference; the
calls can always come to their ends; and what a source declares comes before all else. With a
loader that answers with the class asked for, such as a library or a class path, no class that is
looked up or searched is shadowed by a source's, unless the caller brings it. -/
theorem sources_shadow_classes (discovered : List Discovered) (libraries : List ClassUnit)
    (unresolved : Option ClassName) (loader : Loader τ) :
    ((∃ failure, build discovered libraries unresolved loader = .error failure) ↔
      ¬(discovered.map fun d => d.declared.name).Nodup) ∧
    (∀ failure, build discovered libraries unresolved loader = .error failure ↔
      ∃ first again, FirstRepeat discovered first again ∧ failure = Failure.ofCause
        (.duplicateClass again.declared.name first.source again.source)) ∧
    (∀ r, build discovered libraries unresolved loader = .ok r →
      r.searchOrder = discovered.map Discovered.declared ++
        (libraries.filter fun c => Undeclared discovered c.name) ∧
      ∀ (calls : List (List ResolverCall)) (common : τ) (schedule : List Nat),
        let start := r.threads calls common
        let now := start.run loader schedule
        (∀ a ∈ start.accesses loader schedule, ∀ name, a.op.className? = some name →
          Undeclared discovered name) ∧
        (∀ name c, now.shared.caches.classes.lookup name = some c → Undeclared discovered name) ∧
        (∀ (libraries' : List ClassUnit) (loader' : Loader τ),
          SameUndeclared discovered libraries libraries' → loader'.size = loader.size →
          (∀ name, Undeclared discovered name → loader'.load name = loader.load name) →
            build discovered libraries' unresolved loader' = .ok r ∧
              start.run loader' schedule = now) ∧
        (∃ more, ∀ (i : Nat) asked, calls[i]? = some asked → ∃ answers,
          (now.run loader more).sessions[i]? = some (.done answers)) ∧
        (∀ (i : Nat) asked answers, calls[i]? = some asked →
          now.sessions[i]? = some (.done answers) →
            List.Forall₂ (fun answer call =>
              ResolverCall.PrefersSources discovered libraries unresolved call answer)
                answers asked) ∧
        (loader.NamesAsked →
          (∀ (i : Nat) asked answers, calls[i]? = some asked →
            now.sessions[i]? = some (.done answers) →
              List.Forall₂ (fun answer call => ResolverCall.AvoidsShadowed discovered call answer)
                answers asked) ∧
          ∀ (α : Type) (c : ClassUnit) (find find' : ClassUnit → Option α),
            Unshadowed discovered c → (∀ d, Unshadowed discovered d → find' d = find d) →
              (r.findInherited c find').run.run loader now.shared =
                (r.findInherited c find).run.run loader now.shared)) ∧
    (∀ library : ClassLibrary, (library.loader : Loader τ).NamesAsked) ∧
    ∀ (path : ClassPath) (tree : FileTree), (path.loader tree).NamesAsked := by
  refine ⟨exists_build_error_iff, fun failure => build_eq_error_iff, fun r hbuild => ?_,
    ClassLibrary.namesAsked_loader, ClassPath.namesAsked_loader⟩
  refine ⟨searchOrder_eq hbuild, fun calls common schedule => ?_⟩
  intro start now
  have hfaithful := r.faithful_start loader common
  have hkeeps := r.protocol_keeps loader
  -- what is asked and kept does not depend on how the loader names its classes
  obtain ⟨-, hkept, hasked⟩ := UnderWay.meets_run (undeclaredOnly_keeps discovered loader)
    (threads_meet (fun call => ResolverCall.ask_asks hbuild call) calls common)
    (keepsUndeclared_start hbuild common) schedule
  refine ⟨hasked, hkept, fun libraries' loader' hsame hsize hload => ⟨?_, ?_⟩, ?_, ?_,
    fun hnamed => ⟨?_, ?_⟩⟩
  · exact build_of_sameUndeclared hbuild hsame hsize
  · refine UnderWay.run_congr fun a ha shared => Shared.access_congr (fun name hname => ?_) shared
    exact hload name (hasked a ha name hname)
  · obtain ⟨more, hmore⟩ := UnderWay.exists_run_done loader now
    have hlength : now.sessions.length = calls.length :=
      (UnderWay.run_sessions_length schedule).trans (List.length_map ..)
    refine ⟨more, fun i asked hasked => hmore i ?_⟩
    exact hlength ▸ (List.getElem?_eq_some_iff.1 hasked).1
  · intro i asked answers hasked hdone
    obtain ⟨hsessions, -, -⟩ := UnderWay.meets_run hkeeps
      (threads_meet (fun call => ResolverCall.ask_meets_prefersSources hbuild call) calls common)
      hfaithful schedule
    exact UnderWay.post_of_done hsessions hasked hdone
  · intro i asked answers hasked hdone
    obtain ⟨hsessions, -, -⟩ := UnderWay.meets_run hkeeps
      (threads_meet (fun call => ResolverCall.ask_meets_avoidsShadowed hbuild hnamed call) calls
        common) hfaithful schedule
    exact UnderWay.post_of_done hsessions hasked hdone
  · intro α c find find' hc hsame
    obtain ⟨-, hlater, -⟩ := UnderWay.meets_run hkeeps
      (threads_meet (fun call => ResolverCall.ask_meets r loader call) calls common) hfaithful
      schedule
    refine search_congr hbuild hnamed hsame _ _ _ (fun d hd => ?_) hlater
    obtain rfl := List.mem_singleton.1 hd
    exact hc

/-- Another class of the name `Base`, with another method. -/
def impostor : ClassUnit :=
  { base with methods := [⟨.ofString "Base", "n", "()V", .single .isPublic⟩] }

/-- A library class that extends whichever class has the name. -/
def heir : ClassUnit where
  name := .ofString "Heir"
  modifiers := .single .isPublic
  superclass := some (.ofString "Base")
  interfaces := []
  methods := []
  fields := []

/-- The impostor is a library and with the loader, and might as well be a copy of the class that a
source declares. What it alone has makes no difference to a search. -/
theorem sources_shadow_classes_impostor :
    let loader : Loader Unit := ClassLibrary.loader ⟨[impostor]⟩
    let loader' : Loader Unit := ClassLibrary.loader ⟨[base]⟩
    let find : ClassUnit → Option (Member .method) := fun c => c.findPublic? .method "n()V"
    build [⟨"Base.j", base⟩, ⟨"Copy.j", impostor⟩] [heir] none loader =
        .error (Failure.ofCause (.duplicateClass (.ofString "Base") "Base.j" "Copy.j")) ∧
      ∃ r, build [⟨"Base.j", base⟩] [impostor, heir] none loader = .ok r ∧
        build [⟨"Base.j", base⟩] [base, heir] none loader' = .ok r ∧
        let start := r.threads [[.lookup heir.name, .lookup base.name]] ()
        start.run loader' [0] = start.run loader [0] ∧
          (∃ c, (start.run loader [0]).sessions[0]? =
            some (.done [.ok (.lookup (.ok c)), .ok (.lookup (.ok base))]) ∧ c.name = heir.name) ∧
          (find impostor).isSome ∧
          (r.findInherited heir fun c => if c = impostor then none else find c).run.run loader
              (start.run loader [0]).shared =
            (r.findInherited heir find).run.run loader (start.run loader [0]).shared := by
  intro loader loader' find
  obtain ⟨-, hfails, -⟩ :=
    sources_shadow_classes [⟨"Base.j", base⟩, ⟨"Copy.j", impostor⟩] [heir] none loader
  obtain ⟨-, -, hruns, hnamed, -⟩ :=
    sources_shadow_classes [⟨"Base.j", base⟩] [impostor, heir] none loader
  have hshadows : ∀ name, Undeclared [⟨"Base.j", base⟩] name ↔ base.name ≠ name := by
    intro name
    simp [Undeclared]
  have hunshadowed : ∀ c, Unshadowed [⟨"Base.j", base⟩] c ↔ (base.name = c.name → c = base) := by
    intro c
    simp [Unshadowed]
  have hbuild : build [⟨"Base.j", base⟩] [impostor, heir] none loader =
      .ok ⟨[base], [heir], none, 4⟩ := by
    decide +kernel
  refine ⟨(hfails _).2 ⟨⟨"Base.j", base⟩, ⟨"Copy.j", impostor⟩,
    ⟨[⟨"Base.j", base⟩], [], rfl, List.nodup_singleton _, List.mem_singleton_self _, rfl⟩, rfl⟩,
    _, hbuild, ?_⟩
  obtain ⟨-, hcalls⟩ := hruns _ hbuild
  obtain ⟨-, -, hsame, -, hanswers, hclasses⟩ :=
    hcalls [[.lookup heir.name, .lookup base.name]] () [0]
  obtain ⟨hlookedUp, hsearch⟩ := hclasses (hnamed ⟨[impostor]⟩)
  have hreplaced : SameUndeclared [⟨"Base.j", base⟩] [impostor, heir] [base, heir] := by
    refine .cons (.inr ⟨?_, ?_⟩) (.cons (.inl rfl) .nil)
    · exact fun h => (hshadows _).1 h rfl
    · exact fun h => (hshadows _).1 h rfl
  have hmissing : ∀ (c : ClassUnit) (name : ClassName), c.name = base.name → base.name ≠ name →
      (⟨[c]⟩ : ClassLibrary).load name = .refused (.notFound name) := by
    intro c name hc hname
    simp [ClassLibrary.load, ClassLibrary.find?, hc, hname]
  obtain ⟨hrebuilt, hrerun⟩ := hsame [base, heir] loader' hreplaced rfl fun name hname => by
    have hother := (hshadows name).1 hname
    show (fun common => (ClassLibrary.load ⟨[base]⟩ name, common)) = fun common =>
      (ClassLibrary.load ⟨[impostor]⟩ name, common)
    rw [hmissing base name rfl hother, hmissing impostor name rfl hother]
  obtain ⟨c, answer, hdone⟩ : ∃ c answer, (((⟨[base], [heir], none, 4⟩ : Resolver).threads
      [[.lookup heir.name, .lookup base.name]] ()).run loader [0]).sessions[0]? =
        some (.done [.ok (.lookup (.ok c)), answer]) :=
    ⟨heir, .ok (.lookup (.ok base)), rfl⟩
  refine ⟨hrebuilt, hrerun, ⟨c, ?_⟩, by decide +kernel, ?_⟩
  · cases hanswers 0 _ _ rfl hdone with
    | cons _ hothers =>
      cases hothers with
      | cons hbase _ =>
        cases hlookedUp 0 _ _ rfl hdone with
        | cons hheir _ =>
          obtain rfl := hbase ⟨"Base.j", base⟩ (List.mem_singleton_self _) rfl
          exact ⟨hdone, (hheir c rfl).1⟩
  · have hheir : Unshadowed [⟨"Base.j", base⟩] heir :=
      (hunshadowed heir).2 fun h => absurd h (by decide +kernel)
    have himpostor : ¬Unshadowed [⟨"Base.j", base⟩] impostor := fun h =>
      absurd ((hunshadowed impostor).1 h rfl) (by decide +kernel)
    refine hsearch _ heir _ _ hheir fun d hd => if_neg ?_
    rintro rfl
    exact himpostor hd

/-- Gives the impostor, whose name a source declares, to whoever asks for `Other`. -/
def impostorLoader : Loader Unit :=
  .fixed (fun name =>
    if name = .ofString "Other" then .found impostor else .refused (.notFound name)) 1

/-- A loader that answers with a class of another name brings in a class that is shadowed. -/
theorem misnamed_class_looked_up :
    build [⟨"Base.j", base⟩] [] none impostorLoader = .ok ⟨[base], [], none, 2⟩ ∧
      (((⟨[base], [], none, 2⟩ : Resolver).threads [[.lookup (.ofString "Other")]] ()).run
        impostorLoader [0, 0, 0]).sessions[0]? = some (.done [.ok (.lookup (.ok impostor))]) ∧
      impostor.name = base.name ∧ impostor ≠ base := by
  refine ⟨by decide +kernel, rfl, rfl, by decide +kernel⟩

end Resolver
end UnitLink
