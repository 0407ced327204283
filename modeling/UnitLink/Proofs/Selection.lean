import UnitLink.Proofs.QualifiedSearch
import UnitLink.Proofs.Resolutions
/-! How the instructions of references are selected. A reference is resolved in one of four ways:
among a class's own declarations, in the first class of the search order that declares the member
publicly, in the class that the signature names or one of its supertypes, or nowhere, and then it
is sent to the catch-all target. Each way has its own rule for the opcode. Nothing is assumed of
the loader: where it changes its answers, a reference is justified by those that were given. -/
namespace UnitLink

variable {τ : Type}

/-! ### Declarations and opcodes -/

section

variable {kind : MemberKind}

/-- The first declaration of a member in a class. -/
def ClassUnit.DeclaresFirst (c : ClassUnit) (member : String) (found : Member kind) : Prop :=
  ∃ before after, c.members kind = before ++ found :: after ∧ found.signature = member ∧
    ∀ other ∈ before, other.signature ≠ member

/-- The first declaration of the member in the class is public. -/
def ClassUnit.DeclaresPublicly (c : ClassUnit) (kind : MemberKind) (member : String) : Prop :=
  ∃ found : Member kind, c.DeclaresFirst member found ∧ found.isPublic = true

/-- The opcode for a declaration of the referring class itself. -/
def Opcode.FitsOwn (found : Member kind) : Opcode kind → Prop
  | .invokestatic | .getstatic => found.isStatic = true
  | .invokespecial => found.isStatic = false ∧ found.modifiers.has .isPrivate = true
  | .invokevirtual => found.isStatic = false ∧ found.modifiers.has .isPrivate = false
  | .invokeinterface => False
  | .getfield => found.isStatic = false

/-- The opcode for a declaration that is reached through an owner. -/
def Opcode.FitsForeign (found : Member kind) (owner : ClassUnit) : Opcode kind → Prop
  | .invokestatic | .getstatic => found.isStatic = true
  | .invokeinterface => found.isStatic = false ∧ owner.isInterface = true
  | .invokevirtual => found.isStatic = false ∧ owner.isInterface = false
  | .invokespecial => False
  | .getfield => found.isStatic = false

theorem ClassUnit.find?_eq_some_iff {c : ClassUnit} {member : String} {found : Member kind} :
    c.find? kind member = some found ↔ c.DeclaresFirst member found := by
  unfold find? DeclaresFirst
  rw [List.find?_eq_some_iff_append]
  constructor
  · rintro ⟨hmember, before, after, heq, hbefore⟩
    exact ⟨before, after, heq, by simpa using hmember, fun other hother => by
      simpa using hbefore other hother⟩
  · rintro ⟨before, after, heq, hmember, hbefore⟩
    exact ⟨by simpa using hmember, before, after, heq, fun other hother => by
      simpa using hbefore other hother⟩

theorem ClassUnit.findPublic?_eq_none_iff {c : ClassUnit} {member : String} :
    c.findPublic? kind member = none ↔ ¬c.DeclaresPublicly kind member := by
  rw [Option.eq_none_iff_forall_ne_some, DeclaresPublicly, not_exists]
  simp only [ne_eq, Resolver.findPublic?_eq_some_iff, find?_eq_some_iff]

theorem Opcode.fitsOwn_ownMember (found : Member kind) :
    (Opcode.ownMember kind found.modifiers).FitsOwn found := by
  have hstatic : found.isStatic = found.modifiers.has .isStatic := rfl
  unfold ownMember
  split
  · rename_i h
    cases kind <;> exact hstatic.trans h
  · rename_i h
    rw [Bool.not_eq_true] at h
    cases kind with
    | field => exact hstatic.trans h
    | method =>
      simp only
      split
      · rename_i hprivate
        exact ⟨hstatic.trans h, hprivate⟩
      · rename_i hprivate
        exact ⟨hstatic.trans h, by simpa using hprivate⟩

theorem Opcode.fitsForeign_external (found : Member kind) (owner : ClassUnit) :
    (Opcode.external kind found.isStatic owner.isInterface).FitsForeign found owner := by
  unfold external
  split
  · rename_i h
    cases kind <;> exact h
  · rename_i h
    rw [Bool.not_eq_true] at h
    cases kind with
    | field => exact h
    | method =>
      simp only
      split
      · rename_i hinterface
        exact ⟨h, hinterface⟩
      · rename_i hinterface
        exact ⟨h, by simpa using hinterface⟩

theorem Opcode.isStatic_ofStatic : (Opcode.ofStatic kind).isStatic = true := by
  cases kind <;> rfl

end

namespace Resolver

variable {α : Type} {r : Resolver} {loader : Loader τ}

/-! ### Searches -/

/-- A lookup of the name may come to the class: that of a source or else of a library, and only
if there is neither one that the loader supplies. -/
def Finds (r : Resolver) (loader : Loader τ) (name : ClassName) (c : ClassUnit) : Prop :=
  r.jobClass? name = some c ∨
    r.jobClass? name = none ∧
      (r.preloaded name = some c ∨ r.preloaded name = none ∧ loader.Supplies name c)

/-- A lookup of the name may come to nothing. -/
def Misses (r : Resolver) (loader : Loader τ) (name : ClassName) : Prop :=
  r.jobClass? name = none ∧ r.preloaded name = none ∧
    ∃ common fault, (loader.load name common).1 = .refused fault

/-- The classes that lookups of some names may come to, in the order of the names. -/
inductive FindsAll (r : Resolver) (loader : Loader τ) : List ClassName → List ClassUnit → Prop
  | nil : FindsAll r loader [] []
  | found {name : ClassName} {c : ClassUnit} {names : List ClassName} {cs : List ClassUnit} :
      r.Finds loader name c → FindsAll r loader names cs →
      FindsAll r loader (name :: names) (c :: cs)
  | missed {name : ClassName} {names : List ClassName} {cs : List ClassUnit} :
      r.Misses loader name → FindsAll r loader names cs → FindsAll r loader (name :: names) cs

/-- A search that goes depth first, into each class once, passes some classes by and comes to
the last. -/
inductive ComesBy (r : Resolver) (loader : Loader τ) :
    (visited : List ClassName) → (pending passed : List ClassUnit) → (last : ClassUnit) → Prop
  | here {visited : List ClassName} {c : ClassUnit} {pending : List ClassUnit} :
      c.name ∉ visited → ComesBy r loader visited (c :: pending) [] c
  | again {visited : List ClassName} {c last : ClassUnit} {pending passed : List ClassUnit} :
      c.name ∈ visited → ComesBy r loader visited pending passed last →
      ComesBy r loader visited (c :: pending) passed last
  | on {visited : List ClassName} {c last : ClassUnit}
      {supertypes pending passed : List ClassUnit} :
      c.name ∉ visited → FindsAll r loader c.supertypes supertypes →
      ComesBy r loader (c.name :: visited) (supertypes ++ pending) passed last →
      ComesBy r loader visited (c :: pending) (c :: passed) last

theorem lookup_finds (name : ClassName) :
    r.Delivers loader (r.lookup name) fun result =>
      match result with
      | .ok c => r.Finds loader name c
      | .error _ => r.Misses loader name := by
  unfold lookup
  cases hjob : r.jobClass? name with
  | some c => exact delivers_pure (.inl hjob)
  | none =>
    refine delivers_bind_access trivial fun answer hloaded => ?_
    cases answer with
    | some c =>
      refine delivers_pure (.inr ⟨hjob, ?_⟩)
      rcases hloaded with hpre | ⟨hnone, d, hsupplies, heq⟩
      · exact .inl hpre.symm
      · obtain rfl := Option.some.inj heq
        exact .inr ⟨hnone, hsupplies⟩
    | none =>
      have hpre : r.preloaded name = none := by
        rcases hloaded with hnone | ⟨hnone, -⟩
        · exact hnone.symm
        · exact hnone
      refine delivers_bind_access trivial ?_
      rintro (c | fault | message) ⟨common, hload⟩
      · refine delivers_bind_access ⟨hpre, common, hload⟩ fun kept hkept => ?_
        exact delivers_pure (.inr ⟨hjob, .inr ⟨hpre, hkept⟩⟩)
      · exact delivers_pure ⟨hjob, hpre, common, fault, hload⟩
      · exact delivers_stop ⟨name, common, hload⟩

theorem lookupAll_finds (names : List ClassName) :
    r.Delivers loader (r.lookupAll names) (r.FindsAll loader names) := by
  induction names with
  | nil => exact delivers_pure .nil
  | cons name names ih =>
    refine ih.bind fun others hothers => ?_
    refine Delivers.bind (lookup_finds name) fun result hresult => ?_
    cases result with
    | ok c => exact delivers_pure (.found hresult hothers)
    | error fault => exact delivers_pure (.missed hresult hothers)

/-- What a search finds, the last class that it comes to has, and none that it passed by. -/
theorem search_comesBy (find : ClassUnit → Option α) (steps : Nat) (visited : List ClassName)
    (pending : List ClassUnit) :
    r.Delivers loader (r.search find steps visited pending) fun result =>
      ∀ found, result = some found → ∃ passed last, r.ComesBy loader visited pending passed last ∧
        (∀ d ∈ passed, find d = none) ∧ find last = some found := by
  induction steps, visited, pending using search.induct find with
  | case1 steps visited =>
    rw [search]
    apply delivers_pure
    intro found h
    cases h
  | case2 steps visited c pending hmem ih =>
    rw [search_of_mem hmem]
    refine ih.mono fun result hresult found h => ?_
    obtain ⟨passed, last, hcomes, hpassed, hlast⟩ := hresult found h
    exact ⟨passed, last, .again hmem hcomes, hpassed, hlast⟩
  | case3 steps visited c pending hnew a hc =>
    rw [search_of_found hnew hc]
    apply delivers_pure
    intro found h
    exact ⟨[], c, .here hnew, by simp, hc.trans h⟩
  | case4 visited c pending hnew hc =>
    rw [search.eq_def]
    simp only [if_neg hnew, hc]
    apply delivers_pure
    intro found h
    cases h
  | case5 visited c pending hnew hc steps ih =>
    rw [search_of_not_found hnew hc]
    refine Delivers.bind (lookupAll_finds c.supertypes) fun supertypes hsupertypes => ?_
    refine (ih supertypes).mono fun result hresult found h => ?_
    obtain ⟨passed, last, hcomes, hpassed, hlast⟩ := hresult found h
    refine ⟨c :: passed, last, .on hnew hsupertypes hcomes, fun d hd => ?_, hlast⟩
    rcases List.mem_cons.1 hd with rfl | hd
    · exact hc
    · exact hpassed d hd

/-- The class that a name in a signature stands for; a class's own name stands for itself. -/
def Names (r : Resolver) (loader : Loader τ) (referrer : ClassUnit) (owner : ClassName)
    (named : ClassUnit) : Prop :=
  owner = referrer.name ∧ named = referrer ∨ owner ≠ referrer.name ∧ r.Finds loader owner named

theorem namedClass_names (owner : ClassName) (referrer : ClassUnit) (signature : String) :
    r.Delivers loader (r.namedClass owner referrer signature) (r.Names loader referrer owner) := by
  unfold namedClass
  split
  · rename_i heq
    exact delivers_pure (.inl ⟨heq, rfl⟩)
  · rename_i hne
    refine Delivers.bind (lookup_finds owner) fun result hresult => ?_
    cases result with
    | ok c => exact delivers_pure (.inr ⟨hne, hresult⟩)
    | error fault => exact delivers_fail (.inr rfl)

/-! ### References -/

variable {kind : MemberKind}

/-- The reference that a signature is resolved to, in the class `c`, and why. Where it says
`false`, the signature is not one of the class's own members. -/
inductive Selects (r : Resolver) (loader : Loader τ) (c : ClassUnit) :
    (isLocal : Bool) → (parsed : Signature) → Reference kind → Prop
  /-- The class itself, which is not an interface, declares the member, whatever its
  visibility. -/
  | own {parsed : Signature} {found : Member kind} {opcode : Opcode kind} :
      c.isInterface = false →
      (∀ written, parsed.owner = some written → ClassName.ofString written = c.name) →
      c.DeclaresFirst (parsed.unqualified kind) found → opcode.FitsOwn found →
      Selects r loader c true parsed ⟨c.name, parsed.name, parsed.descriptor, opcode, true⟩
  /-- Of the classes that are searched, this is the first to declare the member publicly. -/
  | searched {parsed : Signature} {before after : List ClassUnit} {owner : ClassUnit}
      {found : Member kind} {opcode : Opcode kind} :
      parsed.owner = none → r.searchOrder = before ++ owner :: after →
      (∀ other ∈ before, ¬other.DeclaresPublicly kind (parsed.unqualified kind)) →
      owner.DeclaresFirst (parsed.unqualified kind) found → found.isPublic = true →
      opcode.FitsForeign found owner →
      Selects r loader c false parsed ⟨owner.name, parsed.name, parsed.descriptor, opcode, false⟩
  /-- None of the classes that are searched declares the member publicly. -/
  | nowhere {parsed : Signature} {target : ClassName} {opcode : Opcode kind} :
      parsed.owner = none → r.unresolved = some target →
      (∀ other ∈ r.searchOrder, ¬other.DeclaresPublicly kind (parsed.unqualified kind)) →
      opcode.isStatic = true →
      Selects r loader c false parsed ⟨target, parsed.name, parsed.descriptor, opcode, false⟩
  /-- The class that is named has the member or inherits it. -/
  | inherited {parsed : Signature} {written : String} {named last : ClassUnit}
      {passed : List ClassUnit} {found : Member kind} {opcode : Opcode kind} :
      parsed.owner = some written → r.Names loader c (.ofString written) named →
      r.ComesBy loader [] [named] passed last →
      (∀ other ∈ passed, ¬other.DeclaresPublicly kind (parsed.unqualified kind)) →
      last.DeclaresFirst (parsed.unqualified kind) found → found.isPublic = true →
      opcode.FitsForeign found named →
      Selects r loader c false parsed
        ⟨.ofString written, parsed.name, parsed.descriptor, opcode, false⟩

variable {signature : String} {parsed : Signature} {c : ClassUnit}

theorem resolveQualified_selects {written : String} (howner : parsed.owner = some written) :
    r.Delivers loader (r.resolveQualified signature parsed (.ofString written) c)
      (r.Selects loader c false parsed : Reference kind → Prop) := by
  unfold resolveQualified
  refine Delivers.bind (namedClass_names _ c signature) fun named hnamed => ?_
  refine Delivers.bind (search_comesBy _ _ _ _) fun result hresult => ?_
  cases result with
  | none => exact delivers_fail (.inr rfl)
  | some found =>
    obtain ⟨passed, last, hcomes, hpassed, hlast⟩ := hresult found rfl
    obtain ⟨hfound, hpublic⟩ := findPublic?_eq_some_iff.1 hlast
    apply delivers_pure
    exact .inherited howner hnamed hcomes
      (fun other hother => ClassUnit.findPublic?_eq_none_iff.1 (hpassed other hother))
      (ClassUnit.find?_eq_some_iff.1 hfound) hpublic (Opcode.fitsForeign_external found named)

theorem selects_of_unqualified? (howner : parsed.owner = none) {reference : Reference kind}
    (h : r.unqualified? kind parsed = some reference) :
    r.Selects loader c false parsed reference := by
  unfold unqualified? at h
  cases hfirst : firstPublic? kind parsed r.searchOrder with
  | some first =>
    rw [hfirst] at h
    obtain rfl : first = reference := Option.some.inj h
    obtain ⟨before, owner, after, horder, howned, hbefore⟩ :=
      List.findSome?_eq_some_iff.1 hfirst
    obtain ⟨found, hfound, rfl⟩ := Option.map_eq_some_iff.1 howned
    obtain ⟨hdeclared, hpublic⟩ := findPublic?_eq_some_iff.1 hfound
    refine .searched howner horder (fun other hother => ?_)
      (ClassUnit.find?_eq_some_iff.1 hdeclared) hpublic (Opcode.fitsForeign_external found owner)
    exact ClassUnit.findPublic?_eq_none_iff.1 (Option.map_eq_none_iff.1 (hbefore other hother))
  | none =>
    rw [hfirst] at h
    obtain ⟨target, htarget, rfl⟩ := Option.map_eq_some_iff.1 h
    refine .nowhere howner htarget (fun other hother => ?_) Opcode.isStatic_ofStatic
    have hother := List.findSome?_eq_none_iff.1 hfirst other hother
    exact ClassUnit.findPublic?_eq_none_iff.1 (Option.map_eq_none_iff.1 hother)

theorem resolveUnqualified_selects (hparsed : Signature.parse kind signature = .ok parsed)
    (howner : parsed.owner = none) :
    r.Delivers loader (r.resolveUnqualified signature parsed)
      (r.Selects loader c false parsed : Reference kind → Prop) := by
  unfold resolveUnqualified
  refine delivers_bind_access trivial fun answer hknown => ?_
  cases answer with
  | some reference =>
    -- what is remembered of a signature was resolved from the same signature
    obtain ⟨parsed', hparsed', hfound⟩ := hknown reference rfl
    obtain rfl := Except.ok.inj (hparsed.symm.trans hparsed')
    exact delivers_pure (selects_of_unqualified? howner hfound)
  | none =>
    cases hfound : r.unqualified? kind parsed with
    | none => exact delivers_fail (.inr rfl)
    | some reference =>
      have hremember : (r.protocol loader).asks (.remember kind signature reference) :=
        ⟨parsed, hparsed, hfound⟩
      refine delivers_bind_access hremember fun _ _ => ?_
      exact delivers_pure (selects_of_unqualified? howner hfound)

theorem resolve_selects :
    r.Delivers loader (r.resolve kind signature c) fun reference =>
      ∃ parsed, Signature.parse kind signature = .ok parsed ∧
        r.Selects loader c false parsed reference := by
  unfold resolve
  refine Delivers.bind (parse_delivers signature) fun parsed hparsed => ?_
  cases howner : parsed.owner with
  | some owner =>
    exact (resolveQualified_selects howner).mono fun reference h => ⟨parsed, hparsed, h⟩
  | none =>
    exact (resolveUnqualified_selects hparsed howner).mono fun reference h => ⟨parsed, hparsed, h⟩

theorem selects_of_resolveLocal {reference : Reference kind}
    (h : resolveLocal kind signature c = .ok reference) :
    ∃ parsed, Signature.parse kind signature = .ok parsed ∧
      r.Selects loader c true parsed reference := by
  unfold resolveLocal at h
  split at h
  · cases h
  rename_i parsed hparsed
  split at h
  · cases h
  rename_i hinterface
  split at h
  · cases h
  rename_i howner
  split at h
  · cases h
  rename_i found hfound
  obtain rfl := Except.ok.inj h
  refine ⟨parsed, hparsed, .own (by simpa using hinterface) (fun written hwritten => ?_)
    (ClassUnit.find?_eq_some_iff.1 hfound) (Opcode.fitsOwn_ownMember found)⟩
  rw [hwritten] at howner
  simpa using howner

end Resolver

/-! ### Directives -/

/-- The reference of a directive is selected for its signature. -/
def Directive.Selects (d : Directive) (r : Resolver) (loader : Loader τ) (c : ClassUnit)
    {kind : MemberKind} (reference : Reference kind) : Prop :=
  ∃ isLocal signature parsed, d.flag "local" = .ok isLocal ∧ d.required "sig" = .ok signature ∧
    Signature.parse kind signature = .ok parsed ∧ r.Selects loader c isLocal parsed reference

namespace Bindings

open Resolver

variable {r : Resolver} {loader : Loader τ}

/-- What a directive is bound to, if it is an invocation's or reads a field, is selected for
it. -/
def SelectedBy (r : Resolver) (loader : Loader τ) (c : ClassUnit) (d : Directive) :
    Binding → Prop
  | .opening => d.kind = .invokeBegin
  | .closing reference => d.kind = .invokeEnd ∧ d.Selects r loader c reference
  | .fieldRead reference => d.kind = .readField ∧ d.Selects r loader c reference
  | .classOf _ => d.kind = .classOf

theorem SelectedBy.kind_eq {c : ClassUnit} {d : Directive} {binding : Binding}
    (h : SelectedBy r loader c d binding) : binding.kind = d.kind := by
  cases binding with
  | opening | classOf owner => exact Eq.symm h
  | closing reference | fieldRead reference => exact h.1.symm

theorem resolve_selects (c : ClassUnit) (kind : MemberKind) (d : Directive) :
    r.Delivers loader (resolve r c kind d)
      (d.Selects r loader c : Reference kind → Prop) := by
  unfold resolve
  refine Delivers.bind (declaration_delivers _) fun signature hsignature => ?_
  refine Delivers.bind (declaration_delivers _) fun isLocal hlocal => ?_
  cases isLocal with
  | true =>
    simp only [if_true]
    split
    · rename_i reference href
      obtain ⟨parsed, hparsed, hselects⟩ := selects_of_resolveLocal href
      exact delivers_pure ⟨true, signature, parsed, hlocal, hsignature, hparsed, hselects⟩
    · rename_i failure hfailure
      exact delivers_fail (kind_of_resolveLocal_error hfailure)
  | false =>
    refine Delivers.mono Resolver.resolve_selects fun reference h => ?_
    obtain ⟨parsed, hparsed, hselects⟩ := h
    exact ⟨false, signature, parsed, hlocal, hsignature, hparsed, hselects⟩

theorem bindDirective_selects (c : ClassUnit) (d : Directive) :
    r.Delivers loader (bindDirective r c d) fun bound =>
      match bound with
      | none => d.kind.binds = false
      | some binding => SelectedBy r loader c d binding := by
  unfold bindDirective
  cases hkind : d.kind with
  | classHeader | field | method | glueFields | glueInit => exact delivers_pure rfl
  | invokeBegin =>
    exact Delivers.bind (declaration_delivers _) fun pending _ => delivers_pure hkind
  | invokeEnd =>
    refine Delivers.bind (resolve_selects c .method d) fun reference href => ?_
    exact delivers_pure ⟨hkind, href⟩
  | readField =>
    refine Delivers.bind (resolve_selects c .field d) fun reference href => ?_
    exact delivers_pure ⟨hkind, href⟩
  | classOf =>
    refine Delivers.bind (declaration_delivers _) fun signature _ => ?_
    refine Delivers.bind (Resolver.resolve_delivers signature c) fun reference _ => ?_
    exact delivers_pure hkind

end Bindings
end UnitLink
