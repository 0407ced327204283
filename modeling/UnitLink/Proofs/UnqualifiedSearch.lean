import Mathlib.Data.List.Nodup
import UnitLink.Proofs.Jobs
import UnitLink.Proofs.QualifiedSearch
/-! Signatures without an owner against those with one. A class that an unqualified signature
comes to is looked up under its own name, whatever the loader does, because the names of the
classes that are searched are all different; and a search that starts at a class which has the
member is over at once. -/
namespace UnitLink

variable {τ : Type}

namespace Resolver

open Session (meets_pure meets_run_bind)

variable {r : Resolver} {loader : Loader τ}

/-! ### The classes that are searched -/

theorem nodup_eraseDups (names : List ClassName) : names.eraseDups.Nodup := by
  induction hlength : names.length using Nat.strong_induction_on generalizing names with
  | _ n ih =>
    cases names with
    | nil => exact .nil
    | cons name names =>
      rw [List.eraseDups_cons, List.nodup_cons]
      refine ⟨by simp [List.mem_eraseDups], ih _ ?_ _ rfl⟩
      rw [← hlength]
      exact Nat.lt_succ_of_le (List.length_filter_le _ _)

theorem names_of_loadLibraries (hnames : ∀ name c, loader.Supplies name c → c.name = name)
    {names : List ClassName} {common after : τ} {libraries : List ClassUnit}
    (h : Job.loadLibraries loader names common = (.ok libraries, after)) :
    libraries.map (fun c => c.name) = names := by
  induction names generalizing common libraries with
  | nil =>
    obtain ⟨hok, -⟩ := Prod.mk.inj h
    obtain rfl := Except.ok.inj hok
    rfl
  | cons name names ih =>
    unfold Job.loadLibraries at h
    split at h
    · rename_i c common' hload
      generalize hothers : Job.loadLibraries loader names common' = loaded at h
      obtain ⟨stop | others, rest⟩ := loaded
      · cases h
      · obtain ⟨hok, rfl⟩ := Prod.mk.inj h
        obtain rfl := Except.ok.inj hok
        rw [List.map_cons, ih hothers, hnames name c ⟨common, by rw [hload]⟩]
    · cases h
    · cases h
    · cases h

theorem nodup_of_loadLibraries (hnames : ∀ name c, loader.Supplies name c → c.name = name)
    {names : List ClassName} {common after : τ} {libraries : List ClassUnit}
    (h : Job.loadLibraries loader names.eraseDups common = (.ok libraries, after)) :
    (libraries.map fun c => c.name).Nodup := by
  rw [names_of_loadLibraries hnames h]
  exact nodup_eraseDups names

theorem eq_of_name_eq (hnodup : (r.searchOrder.map fun c => c.name).Nodup) {c d : ClassUnit}
    (hc : c ∈ r.searchOrder) (hd : d ∈ r.searchOrder) (h : c.name = d.name) : c = d :=
  List.inj_on_of_nodup_map hnodup hc hd h

/-- Libraries whose names differ, and those that no source's class shadows, are told apart from
each other and from the job's classes. -/
theorem nodup_searchOrder {discovered : List Discovered} {libraries : List ClassUnit}
    {unresolved : Option ClassName}
    (hbuild : build discovered libraries unresolved loader = .ok r)
    (hlibraries : (libraries.map fun c => c.name).Nodup) :
    (r.searchOrder.map fun c => c.name).Nodup := by
  obtain ⟨hjob, rfl⟩ := build_eq_ok_iff.1 hbuild
  rw [searchOrder, List.map_append, List.nodup_append]
  refine ⟨by rwa [List.map_map], hlibraries.sublist (List.filter_sublist.map _), ?_⟩
  intro name hname other hother heq
  obtain ⟨c, hc, rfl⟩ := List.mem_map.1 hname
  obtain ⟨d, hd, rfl⟩ := List.mem_map.1 hc
  obtain ⟨library, hlibrary, rfl⟩ := List.mem_map.1 hother
  have hundeclared : Undeclared discovered library.name :=
    of_decide_eq_true (List.mem_filter.1 hlibrary).2
  exact hundeclared d hd heq

theorem preloaded_isSome {c : ClassUnit} (h : c ∈ r.libraries) : (r.preloaded c.name).isSome := by
  unfold preloaded caches Caches.ofClasses
  rw [List.lookup_isSome_iff]
  exact ⟨(c.name, c), List.mem_map_of_mem (List.mem_reverse.2 h), by simp⟩

theorem lookup_comesTo (hnodup : (r.searchOrder.map fun c => c.name).Nodup) {c : ClassUnit}
    (hc : c ∈ r.searchOrder) : r.ComesTo loader (r.lookup c.name) (.ok (.ok c)) := by
  unfold lookup
  cases hjob : r.jobClass? c.name with
  | some d =>
    obtain ⟨hd, hname⟩ := of_jobClass? hjob
    obtain rfl := eq_of_name_eq hnodup (List.mem_append_left _ hd) hc hname
    exact comesTo_pure _
  | none =>
    have hlibrary : c ∈ r.libraries := by
      refine (List.mem_append.1 hc).resolve_left fun hmem => ?_
      exact List.find?_eq_none.1 hjob c hmem (by simp)
    obtain ⟨d, hpre⟩ := Option.isSome_iff_exists.1 (preloaded_isSome hlibrary)
    obtain ⟨hd, hname⟩ := of_preloaded hpre
    obtain rfl := eq_of_name_eq hnodup (List.mem_append_right _ hd) hc hname
    refine meets_access_bind trivial ?_
    rintro answer (rfl | ⟨hnone, -⟩)
    · rw [hpre]
      exact meets_pure rfl
    · rw [hpre] at hnone
      cases hnone

theorem namedClass_of_mem_comesTo (hnodup : (r.searchOrder.map fun c => c.name).Nodup)
    {c referrer : ClassUnit} (hc : c ∈ r.searchOrder) (hreferrer : referrer ∈ r.jobClasses)
    (signature : String) :
    r.ComesTo loader (r.namedClass c.name referrer signature) (.ok c) := by
  unfold namedClass
  split
  · rename_i heq
    obtain rfl := eq_of_name_eq hnodup hc (List.mem_append_left _ hreferrer) heq
    exact comesTo_pure c
  · exact ComesTo.bind (lookup_comesTo hnodup hc) (comesTo_pure c)

theorem findInherited_of_found {α : Type} {c : ClassUnit} {find : ClassUnit → Option α} {found : α}
    (h : find c = some found) : (r.findInherited c find : Resolving τ _) = pure (some found) :=
  search_of_found List.not_mem_nil h

/-! ### Resolution -/

variable {kind : MemberKind} {signature : String} {parsed : Signature}

theorem resolve_unqualified_comesTo (hparsed : Signature.parse kind signature = .ok parsed)
    (howner : parsed.owner = none) (referrer : ClassUnit) {reference : Reference kind}
    (hfound : r.unqualified? kind parsed = some reference) :
    r.ComesTo loader (r.resolve kind signature referrer) (.ok reference) := by
  unfold resolve
  refine ComesTo.bind (parse_comesTo hparsed) ?_
  rw [howner]
  refine meets_access_bind trivial fun answer hanswer => ?_
  cases answer with
  | some known =>
    obtain ⟨parsed', hparsed', hknown⟩ := hanswer known rfl
    obtain rfl := Except.ok.inj (hparsed.symm.trans hparsed')
    obtain rfl := Option.some.inj (hfound.symm.trans hknown)
    exact meets_pure rfl
  | none =>
    simp only [hfound]
    exact meets_access_bind ⟨parsed, hparsed, hfound⟩ fun _ _ => meets_pure rfl

/-- The reference to a declaration of a class that is searched. -/
def declaredIn (parsed : Signature) (c : ClassUnit) (found : Member kind) : Reference kind where
  owner := c.name
  name := parsed.name
  descriptor := parsed.descriptor
  opcode := .external kind found.isStatic c.isInterface
  isLocal := false

/-- A signature that names a class with the member resolves to what that class has. -/
theorem resolve_of_declaring_comesTo (hnodup : (r.searchOrder.map fun c => c.name).Nodup)
    {c referrer : ClassUnit} (hc : c ∈ r.searchOrder) (hreferrer : referrer ∈ r.jobClasses)
    (hparsed : Signature.parse kind signature = .ok parsed) {written : String}
    (howner : parsed.owner = some written) (hnames : ClassName.ofString written = c.name)
    {found : Member kind} (hfound : c.findPublic? kind (parsed.unqualified kind) = some found) :
    r.ComesTo loader (r.resolve kind signature referrer) (.ok (declaredIn parsed c found)) := by
  unfold resolve
  refine ComesTo.bind (parse_comesTo hparsed) ?_
  rw [howner]
  simp only [hnames]
  refine ComesTo.bind (namedClass_of_mem_comesTo hnodup hc hreferrer signature) ?_
  rw [findInherited_of_found hfound]
  exact comesTo_pure _

/-- An unqualified signature of a member that is declared publicly comes to the first class
that does so. -/
theorem unqualified?_eq_first {c : ClassUnit} {found : Member kind}
    (hfirst : r.searchOrder.find? (fun d =>
      (d.findPublic? kind (parsed.unqualified kind)).isSome) = some c)
    (hfound : c.findPublic? kind (parsed.unqualified kind) = some found) :
    r.unqualified? kind parsed = some (declaredIn parsed c found) := by
  obtain ⟨-, before, after, heq, hbefore⟩ := List.find?_eq_some_iff_append.1 hfirst
  have hpublic : firstPublic? kind parsed r.searchOrder = some (declaredIn parsed c found) := by
    refine List.findSome?_eq_some_iff.2 ⟨before, c, after, heq, ?_, fun d hd => ?_⟩
    · rw [hfound]
      rfl
    · simpa using hbefore d hd
  rw [unqualified?, hpublic]
  rfl

/-- An unqualified signature and one that names the owner of what it resolves to agree. The
names of all classes that are searched are different; so the class that the signature was found
in is the one that is looked up under the owner's name, and the name, in either spelling, leads
to the same reference, whoever of the job's classes refers to it and whatever has been looked up
before. -/
theorem unqualified_agrees_with_qualified {discovered : List Discovered}
    {libraries : List ClassUnit} {unresolved : Option ClassName}
    (hbuild : build discovered libraries unresolved loader = .ok r)
    (hlibraries : (libraries.map fun c => c.name).Nodup) {referrer : ClassUnit}
    (hparsed : Signature.parse kind signature = .ok parsed) (howner : parsed.owner = none)
    (hdeclared : ∃ c ∈ r.searchOrder, ∃ found,
      c.find? kind (parsed.unqualified kind) = some found ∧ found.isPublic = true)
    {shared : Shared τ} (hshared : r.Faithful loader shared) {reference : Reference kind}
    (hresolved : ((r.resolve kind signature referrer).run.run loader shared).1 = .ok reference) :
    ∃ c, r.searchOrder.find? (fun d =>
          (d.findPublic? kind (parsed.unqualified kind)).isSome) = some c ∧
      reference.owner = c.name ∧
      ∀ later, r.Faithful loader later →
        ((r.lookup reference.owner).run.run loader later).1 = .ok (.ok c) ∧
        ∀ qualified written other,
          Signature.parse kind qualified = .ok ⟨some written, parsed.name, parsed.descriptor⟩ →
          ClassName.ofString written = reference.owner →
          other ∈ discovered.map Discovered.declared →
          ((r.resolve kind qualified other).run.run loader later).1 = .ok reference := by
  have hnodup := nodup_searchOrder hbuild hlibraries
  obtain ⟨d, hd, own, hown, hpublic⟩ := hdeclared
  obtain ⟨c, hfirst⟩ : ∃ c, r.searchOrder.find? (fun d =>
      (d.findPublic? kind (parsed.unqualified kind)).isSome) = some c := by
    rw [← Option.isSome_iff_exists, List.find?_isSome]
    exact ⟨d, hd, by rw [findPublic?_eq_some_iff.2 ⟨hown, hpublic⟩]; rfl⟩
  obtain ⟨hsome, -⟩ := List.find?_eq_some_iff_append.1 hfirst
  obtain ⟨found, hfound⟩ := Option.isSome_iff_exists.1 hsome
  have hc := List.mem_of_find?_eq_some hfirst
  have hreference := (resolve_unqualified_comesTo hparsed howner referrer
    (unqualified?_eq_first hfirst hfound)).run hshared
  obtain rfl := Except.ok.inj (hresolved.symm.trans hreference)
  refine ⟨c, hfirst, rfl, fun later hlater => ⟨(lookup_comesTo hnodup hc).run hlater, ?_⟩⟩
  intro qualified written other hqualified hwritten hother
  rw [← jobClasses_eq hbuild] at hother
  exact (resolve_of_declaring_comesTo hnodup hc hother hqualified rfl hwritten hfound).run hlater

def lone : ClassUnit where
  name := .ofString "Lone"
  modifiers := .single .isPublic
  superclass := none
  interfaces := []
  methods := []
  fields := []

def helper : ClassUnit where
  name := .ofString "util/Helper"
  modifiers := .single .isPublic
  superclass := none
  interfaces := []
  methods := [⟨.ofString "util/Helper", "m", "()V",
    (Modifiers.single .isPublic).union (.single .isStatic)⟩]
  fields := []

/-- A library that is shadowed by the source, although it has the method, too. -/
def shadowedLone : ClassUnit :=
  { lone with methods := [⟨.ofString "Lone", "m", "()V", .single .isPublic⟩] }

/-- A loader that ends whoever asks it. -/
def crashing : Loader Unit := .fixed (fun name => .crashed name.text) 0

def helped : Resolver := ⟨[lone], [helper], some (.ofString "Nowhere"), 3⟩

/-- Either spelling of the owner leads to the reference that was found without it. -/
theorem unqualified_agrees_with_qualified_helper :
    build [⟨"Lone.j", lone⟩] [shadowedLone, helper] (some (.ofString "Nowhere")) crashing =
        .ok helped ∧
      ([shadowedLone, helper].map fun c => c.name).Nodup ∧
      ∃ reference : Reference .method,
        ((helped.resolve .method "m()V" lone).run.run crashing ⟨helped.caches, ()⟩).1 =
          .ok reference ∧
        reference.owner = .ofString "util.Helper" ∧
        ∀ qualified ∈ ["util/Helper.m()V", "util.Helper.m()V"],
          ((helped.resolve .method qualified lone).run.run crashing ⟨helped.caches, ()⟩).1 =
            .ok reference := by
  have hbuild : build [⟨"Lone.j", lone⟩] [shadowedLone, helper] (some (.ofString "Nowhere"))
      crashing = .ok helped := by
    decide +kernel
  have hlibraries : ([shadowedLone, helper].map fun c => c.name).Nodup := by decide +kernel
  have hresolved : ((helped.resolve .method "m()V" lone).run.run crashing
      ⟨helped.caches, ()⟩).1 =
        .ok ⟨.ofString "util/Helper", "m", "()V", .invokestatic, false⟩ := by
    decide +kernel
  have hparsed : Signature.parse .method "m()V" = .ok ⟨none, "m", "()V"⟩ := by decide +kernel
  obtain ⟨c, -, -, hagree⟩ := unqualified_agrees_with_qualified hbuild hlibraries hparsed rfl
    ⟨helper, by decide +kernel, _, rfl, by decide +kernel⟩
    (helped.faithful_start crashing ()) hresolved
  obtain ⟨-, hqualified⟩ := hagree _ (helped.faithful_start crashing ())
  refine ⟨hbuild, hlibraries, _, hresolved, by decide +kernel, fun qualified hmem => ?_⟩
  simp only [List.mem_cons, List.not_mem_nil, or_false] at hmem
  rcases hmem with rfl | rfl
  · exact hqualified _ "util/Helper" lone (by decide +kernel) (by decide +kernel)
      List.mem_cons_self
  · exact hqualified _ "util.Helper" lone (by decide +kernel) (by decide +kernel)
      List.mem_cons_self

end Resolver
end UnitLink
