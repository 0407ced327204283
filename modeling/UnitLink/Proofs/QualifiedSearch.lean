import UnitLink.Proofs.BuiltResolvers
import UnitLink.Proofs.DepthFirst
import UnitLink.Proofs.Settling
/-! Searches for the members that qualified signatures name. The search keeps the classes that
it has still to look into on a stack; what it comes to is what a walk that goes into the
supertypes of each class in turn comes to, whichever classes are in the caches by then. There
are no more classes to go into than the resolver reckons with, so the bound on the search is
never met. -/
namespace UnitLink

variable {τ : Type}

/-- The loader has the classes that `loads` gives, and no more of them than it says. It refuses
all other names, for whatever reason, and never ends who asks it. -/
structure Loader.Loads (loader : Loader τ) (loads : ClassName → Option ClassUnit) : Prop where
  answers : ∀ name common,
    match (loader.load name common).1 with
    | .found c => loads name = some c
    | .refused _ => loads name = none
    | .crashed _ => False
  bounded : ∃ classes : List ClassUnit, classes.length ≤ loader.size ∧
    ∀ name c, loads name = some c → c ∈ classes

theorem Loader.Loads.eq_some_of_supplies {loader : Loader τ} {loads : ClassName → Option ClassUnit}
    (h : loader.Loads loads) {name : ClassName} {c : ClassUnit} (hc : loader.Supplies name c) :
    loads name = some c := by
  obtain ⟨common, hload⟩ := hc
  have := h.answers name common
  rwa [hload] at this

theorem ClassLibrary.loads_loader (l : ClassLibrary) : (l.loader : Loader τ).Loads l.find? where
  answers name common := by
    simp only [loader, Loader.fixed, load]
    cases hfound : l.find? name with
    | none => rfl
    | some c => rfl
  bounded := ⟨l.classes, Nat.le_refl _, fun name c hc => List.mem_of_find?_eq_some hc⟩

namespace Resolver

open Session (meets_pure meets_run_bind)

variable {α β : Type} {r : Resolver} {loader : Loader τ} {loads : ClassName → Option ClassUnit}

/-! ### Names -/

/-- The class that can be looked up under a name. -/
def known? (r : Resolver) (loads : ClassName → Option ClassUnit) (name : ClassName) :
    Option ClassUnit :=
  r.jobClass? name <|> r.preloaded name <|> loads name

theorem of_preloaded {name : ClassName} {c : ClassUnit} (h : r.preloaded name = some c) :
    c ∈ r.libraries ∧ c.name = name := by
  unfold preloaded caches Caches.ofClasses at h
  obtain ⟨before, after, heq, -⟩ := List.lookup_eq_some_iff.1 h
  have hmem : (name, c) ∈ r.libraries.reverse.map fun c => (c.name, c) := by
    show (name, c) ∈ Caches.classes ⟨r.libraries.reverse.map fun c => (c.name, c), [], []⟩
    rw [heq]
    exact List.mem_append_right _ List.mem_cons_self
  obtain ⟨d, hd, hpair⟩ := List.mem_map.1 hmem
  obtain ⟨hname, rfl⟩ := Prod.mk.inj hpair
  exact ⟨List.mem_reverse.1 hd, hname⟩

theorem of_jobClass? {name : ClassName} {c : ClassUnit} (h : r.jobClass? name = some c) :
    c ∈ r.jobClasses ∧ c.name = name :=
  ⟨List.mem_of_find?_eq_some h, by simpa using List.find?_some h⟩

theorem of_known? {name : ClassName} {c : ClassUnit} (h : r.known? loads name = some c) :
    c ∈ r.jobClasses ∧ c.name = name ∨ c ∈ r.libraries ∧ c.name = name ∨ loads name = some c := by
  unfold known? at h
  cases hjob : r.jobClass? name with
  | some d =>
    rw [hjob] at h
    obtain rfl : d = c := Option.some.inj h
    exact .inl (of_jobClass? hjob)
  | none =>
    rw [hjob] at h
    cases hpre : r.preloaded name with
    | some d =>
      rw [hpre] at h
      obtain rfl : d = c := Option.some.inj h
      exact .inr (.inl (of_preloaded hpre))
    | none =>
      rw [hpre] at h
      exact .inr (.inr h)

theorem name_of_known? (hnames : ∀ name d, loads name = some d → d.name = name)
    {name : ClassName} {c : ClassUnit} (h : r.known? loads name = some c) : c.name = name := by
  rcases of_known? h with ⟨-, hname⟩ | ⟨-, hname⟩ | hloads
  · exact hname
  · exact hname
  · exact hnames name c hloads

theorem reach_of_build_ok {discovered : List Discovered} {libraries : List ClassUnit}
    {unresolved : Option ClassName} (h : build discovered libraries unresolved loader = .ok r) :
    r.jobClasses.length + r.libraries.length + loader.size ≤ r.reach := by
  obtain ⟨-, rfl⟩ := build_eq_ok_iff.1 h
  have := List.length_filter_le (fun c : ClassUnit => decide (Undeclared discovered c.name))
    libraries
  simp only [List.length_map]
  omega

/-- There is a walk from every class, and it is no longer than a search may be. -/
theorem exists_walk (hreach : r.jobClasses.length + r.libraries.length + loader.size ≤ r.reach)
    (hloads : loader.Loads loads) (c : ClassUnit) :
    ∃ order, DepthFirst (r.known? loads) [] [c] order ∧ order.length ≤ r.reach + 1 := by
  obtain ⟨classes, hsize, hclasses⟩ := hloads.bounded
  let names := (c :: (r.jobClasses ++ r.libraries ++ classes)).map fun d => d.name
  have hknown : ∀ name d, r.known? loads name = some d → d.name ∈ names := by
    intro name d hd
    refine List.mem_map_of_mem (List.mem_cons_of_mem _ ?_)
    rw [List.mem_append, List.mem_append]
    rcases of_known? hd with ⟨hjob, -⟩ | ⟨hlibrary, -⟩ | hloaded
    · exact .inl (.inl hjob)
    · exact .inl (.inr hlibrary)
    · exact .inr (hclasses name d hloaded)
  have hpending : ∀ d ∈ [c], d.name ∈ names := by
    intro d hd
    obtain rfl := List.mem_singleton.1 hd
    exact List.mem_map_of_mem List.mem_cons_self
  obtain ⟨order, horder⟩ : ∃ order, DepthFirst (r.known? loads) [] [c] order :=
    DepthFirst.exists_order hknown hpending
  have hlength := horder.length_le hknown hpending
  simp only [names, List.length_map, List.length_cons, List.length_append] at hlength
  exact ⟨order, horder, by omega⟩

/-! ### Searches -/

/-- Within the protocol the session ends in one way only. -/
def ComesTo (r : Resolver) (loader : Loader τ) (x : Resolving τ α) (result : Except Stop α) :
    Prop :=
  x.run.Meets (r.protocol loader) fun answer => answer = result

theorem comesTo_pure (value : α) : r.ComesTo loader (pure value) (.ok value) := meets_pure rfl

theorem comesTo_fail (failure : Failure) :
    r.ComesTo loader (fail failure : Resolving τ α) (.error (.failed failure)) := meets_pure rfl

theorem ComesTo.bind {x : Resolving τ α} {f : α → Resolving τ β} {value : α}
    {result : Except Stop β} (h : r.ComesTo loader x (.ok value))
    (hf : r.ComesTo loader (f value) result) : r.ComesTo loader (x >>= f) result := by
  refine meets_run_bind (Session.Meets.mono h ?_)
  rintro _ rfl
  exact hf

/-- Whatever has been looked up before, the session ends so. -/
theorem ComesTo.run {x : Resolving τ α} {result : Except Stop α} (h : r.ComesTo loader x result)
    {shared : Shared τ} (hshared : r.Faithful loader shared) :
    (x.run.run loader shared).1 = result :=
  (Session.Meets.run (r.protocol_keeps loader) h hshared).1

theorem lookup_known (hloads : loader.Loads loads) (name : ClassName) :
    (r.lookup name).run.Meets (r.protocol loader) fun result =>
      ∃ answer, result = .ok answer ∧ answer.toOption = r.known? loads name := by
  unfold lookup known?
  cases hjob : r.jobClass? name with
  | some c => exact meets_pure ⟨.ok c, rfl, rfl⟩
  | none =>
    refine meets_access_bind trivial fun answer hanswer => ?_
    rcases hanswer with rfl | ⟨hpre, c, hsupplies, rfl⟩
    · cases hpre : r.preloaded name with
      | some c => exact meets_pure ⟨.ok c, rfl, rfl⟩
      | none =>
        refine meets_access_bind trivial ?_
        rintro _ ⟨common, rfl⟩
        have hanswers := hloads.answers name common
        generalize hload : (loader.load name common).1 = answer at hanswers
        cases answer with
        | found c =>
          refine meets_access_bind ⟨hpre, common, hload⟩ fun kept hkept => ?_
          exact meets_pure ⟨.ok kept, rfl, (hloads.eq_some_of_supplies hkept).symm⟩
        | refused fault => exact meets_pure ⟨.error fault, rfl, hanswers.symm⟩
        | crashed message => exact hanswers.elim
    · refine meets_pure ⟨.ok c, rfl, ?_⟩
      rw [hpre]
      exact (hloads.eq_some_of_supplies hsupplies).symm

theorem lookupAll_comesTo (hloads : loader.Loads loads) (names : List ClassName) :
    r.ComesTo loader (r.lookupAll names) (.ok (names.filterMap (r.known? loads))) := by
  induction names with
  | nil => exact comesTo_pure []
  | cons name names ih =>
    refine ComesTo.bind ih (meets_run_bind ((lookup_known hloads name).mono ?_))
    rintro _ ⟨answer, rfl, hanswer⟩
    rw [List.filterMap_cons, ← hanswer]
    cases answer with
    | ok c => exact meets_pure rfl
    | error fault => exact meets_pure rfl

section Steps

variable {find : ClassUnit → Option α} {steps : Nat} {visited : List ClassName} {c : ClassUnit}
  {pending : List ClassUnit}

theorem search_of_mem (h : c.name ∈ visited) :
    (r.search find steps visited (c :: pending) : Resolving τ _) =
      r.search find steps visited pending := by
  rw [search.eq_def]
  exact if_pos h

theorem search_of_found (h : c.name ∉ visited) {found : α} (hc : find c = some found) :
    (r.search find steps visited (c :: pending) : Resolving τ _) = pure (some found) := by
  rw [search.eq_def]
  simp only [if_neg h, hc]

theorem search_of_not_found (h : c.name ∉ visited) (hc : find c = none) :
    (r.search find (steps + 1) visited (c :: pending) : Resolving τ _) = (do
      let supertypes ← r.lookupAll c.supertypes
      r.search find steps (c.name :: visited) (supertypes ++ pending)) := by
  rw [search.eq_def]
  simp only [if_neg h, hc]

end Steps

/-- A search with a walk's classes on top of its stack goes where the walk goes, and on from
there if nothing is found. -/
theorem search_comesTo (hloads : loader.Loads loads) (find : ClassUnit → Option α)
    {visited : List ClassName} {pending order : List ClassUnit}
    (hwalk : DepthFirst (r.known? loads) visited pending order) {steps : Nat}
    {rest : List ClassUnit} {result : Option α}
    (hfound : ∀ a, order.findSome? find = some a → result = some a)
    (hrest : order.findSome? find = none →
      r.ComesTo loader (r.search find steps (visitedAfter visited order) rest) (.ok result)) :
    r.ComesTo loader (r.search find (order.length + steps) visited (pending ++ rest))
      (.ok result) := by
  -- the walk below a class is that of the supertypes which the search puts on its stack
  induction hwalk generalizing steps rest result with
  | done => simpa using hrest rfl
  | again hmem _ ih =>
    rw [List.cons_append, search_of_mem hmem]
    exact ih hfound hrest
  | @enter visited c pending below others hnew _ _ ihBelow ihOthers =>
    have hsteps : (c :: (below ++ others)).length + steps =
        below.length + (others.length + steps) + 1 := by
      rw [List.length_cons, List.length_append]
      omega
    rw [hsteps, List.cons_append]
    rw [List.findSome?_cons] at hfound hrest
    cases hc : find c with
    | some a =>
      rw [hc] at hfound
      rw [hfound a rfl, search_of_found hnew hc]
      exact comesTo_pure (some a)
    | none =>
      rw [search_of_not_found hnew hc]
      rw [hc, List.findSome?_append] at hfound hrest
      refine ComesTo.bind (lookupAll_comesTo hloads c.supertypes) ?_
      refine ihBelow (fun a ha => hfound a (by rw [ha]; rfl)) fun hbelow => ?_
      refine ihOthers (fun a ha => hfound a (by rw [hbelow, ha]; rfl)) fun hothers => ?_
      have := hrest (by rw [hbelow, hothers]; rfl)
      rwa [visitedAfter_cons, visitedAfter_append] at this

theorem findInherited_comesTo (hloads : loader.Loads loads) {c : ClassUnit}
    {order : List ClassUnit} (hwalk : DepthFirst (r.known? loads) [] [c] order)
    (hlength : order.length ≤ r.reach + 1) (find : ClassUnit → Option α) :
    r.ComesTo loader (r.findInherited c find) (.ok (order.findSome? find)) := by
  unfold findInherited
  obtain ⟨steps, hsteps⟩ := Nat.exists_eq_add_of_le hlength
  rw [hsteps, ← List.append_nil [c]]
  refine search_comesTo hloads find hwalk (fun a ha => ha) fun hnone => ?_
  rw [hnone, search]
  exact comesTo_pure none

/-! ### Qualified signatures -/

section Qualified

variable {kind : MemberKind} {signature : String} {parsed : Signature}

theorem parse_comesTo (hparsed : Signature.parse kind signature = .ok parsed) :
    r.ComesTo loader (parse kind signature) (.ok parsed) := by
  unfold parse
  rw [hparsed]
  exact comesTo_pure parsed

/-- The class that a name in a signature stands for; a class's own name stands for itself. -/
def named? (r : Resolver) (loads : ClassName → Option ClassUnit) (referrer : ClassUnit)
    (owner : ClassName) : Option ClassUnit :=
  if owner = referrer.name then some referrer else r.known? loads owner

theorem namedClass_comesTo (hloads : loader.Loads loads) {owner : ClassName}
    {referrer c : ClassUnit} (hnamed : r.named? loads referrer owner = some c) :
    r.ComesTo loader (r.namedClass owner referrer signature) (.ok c) := by
  unfold named? at hnamed
  unfold namedClass
  split at hnamed
  · rename_i heq
    obtain rfl := Option.some.inj hnamed
    rw [if_pos heq]
    exact comesTo_pure referrer
  · rename_i hne
    rw [if_neg hne]
    refine meets_run_bind ((lookup_known hloads owner).mono ?_)
    rintro _ ⟨answer, rfl, hanswer⟩
    rw [hnamed] at hanswer
    cases answer with
    | ok d =>
      obtain rfl : d = c := Option.some.inj hanswer
      exact meets_pure rfl
    | error fault => cases hanswer

/-- What a signature that names a class resolves to, given the first public declaration of
the member. -/
def inherited (kind : MemberKind) (signature : String) (parsed : Signature) (owner : ClassName)
    (c : ClassUnit) : Option (Member kind) → Except Stop (Reference kind)
  | none => .error (.failed (.resolution (.noPublicMember signature)))
  | some found => .ok {
      owner
      name := parsed.name
      descriptor := parsed.descriptor
      opcode := .external kind found.isStatic c.isInterface
      isLocal := false }

theorem resolve_comesTo (hloads : loader.Loads loads)
    (hparsed : Signature.parse kind signature = .ok parsed) {written : String}
    (howner : parsed.owner = some written) {referrer c : ClassUnit}
    (hnamed : r.named? loads referrer (.ofString written) = some c) {order : List ClassUnit}
    (hwalk : DepthFirst (r.known? loads) [] [c] order) (hlength : order.length ≤ r.reach + 1) :
    r.ComesTo loader (r.resolve kind signature referrer)
      (inherited kind signature parsed (.ofString written) c
        (order.findSome? fun d => d.findPublic? kind (parsed.unqualified kind))) := by
  unfold resolve
  refine ComesTo.bind (parse_comesTo hparsed) ?_
  rw [howner]
  refine ComesTo.bind (namedClass_comesTo hloads hnamed) ?_
  refine ComesTo.bind (findInherited_comesTo hloads hwalk hlength _) ?_
  cases order.findSome? fun d => d.findPublic? kind (parsed.unqualified kind) with
  | none => exact comesTo_fail _
  | some found => exact comesTo_pure _

/-- The reference is to a member of the class that was named, as some class declares it. -/
structure NamesMember (reference : Reference kind) (parsed : Signature) (owner : ClassName)
    (c : ClassUnit) (found : Member kind) : Prop where
  owner_eq : reference.owner = owner
  name_eq : reference.name = parsed.name
  descriptor_eq : reference.descriptor = parsed.descriptor
  not_local : reference.isLocal = false
  static_eq : reference.opcode.isStatic = found.isStatic
  interface_iff : found.isStatic = false →
    (reference.opcode.mnemonic = "invokeinterface" ↔ kind = .method ∧ c.isInterface = true)

theorem namesMember_of_inherited {owner : ClassName} {c : ClassUnit} {first : Option (Member kind)}
    {reference : Reference kind}
    (h : inherited kind signature parsed owner c first = .ok reference) :
    ∃ found, first = some found ∧ NamesMember reference parsed owner c found := by
  cases first with
  | none => cases h
  | some found =>
    obtain rfl := Except.ok.inj h
    refine ⟨found, rfl, rfl, rfl, rfl, rfl, ?_, fun hstatic => ?_⟩
    · cases kind <;> cases found.isStatic <;> cases c.isInterface <;> rfl
    · cases kind <;> cases hinterface : c.isInterface <;>
        simp [Opcode.external, hstatic, Opcode.mnemonic]

theorem findPublic?_eq_some_iff {d : ClassUnit} {member : String} {found : Member kind} :
    d.findPublic? kind member = some found ↔
      d.find? kind member = some found ∧ found.isPublic = true := by
  rw [ClassUnit.findPublic?, Option.filter_eq_some_iff]

theorem exists_public_of_first {order : List ClassUnit} {member : String} {found : Member kind}
    (h : (order.findSome? fun d => d.findPublic? kind member) = some found) :
    ∃ d ∈ order, d.find? kind member = some found ∧ found.isPublic = true := by
  obtain ⟨d, hd, hpublic⟩ := List.exists_of_findSome?_eq_some h
  exact ⟨d, hd, findPublic?_eq_some_iff.1 hpublic⟩

theorem exists_first_of_public {order : List ClassUnit} {member : String} {d : ClassUnit}
    (hd : d ∈ order) {found : Member kind} (hfound : d.find? kind member = some found)
    (hpublic : found.isPublic = true) :
    ∃ first, (order.findSome? fun d => d.findPublic? kind member) = some first := by
  cases hfirst : order.findSome? fun d => d.findPublic? kind member with
  | some first => exact ⟨first, rfl⟩
  | none =>
    have := List.findSome?_eq_none_iff.1 hfirst d hd
    rw [findPublic?_eq_some_iff.2 ⟨hfound, hpublic⟩] at this
    cases this

/-- Whatever is in the caches by then, a search comes to what the classes have in the order of
the one depth-first walk from the class it starts at. So a signature that names a class resolves
exactly if some class on the walk declares the member publicly, and then as the first that does
has it; the reference is to the class that the signature names. The walk goes nowhere but to
classes below the one that is named, and to all of them where classes are known by their
names. -/
theorem resolve_goes_depth_first {discovered : List Discovered} {libraries : List ClassUnit}
    {unresolved : Option ClassName}
    (hbuild : build discovered libraries unresolved loader = .ok r)
    (hloads : loader.Loads loads) :
    (∀ (c : ClassUnit) (α : Type) (find : ClassUnit → Option α), ∃ order,
      DepthFirst (r.known? loads) [] [c] order ∧
      (∀ other, DepthFirst (r.known? loads) [] [c] other → other = order) ∧
      ∀ shared, r.Faithful loader shared →
        ((r.findInherited c find).run.run loader shared).1 = .ok (order.findSome? find)) ∧
    ∀ (kind : MemberKind) (signature : String) (parsed : Signature) (written : String)
      (referrer c : ClassUnit),
      Signature.parse kind signature = .ok parsed → parsed.owner = some written →
      r.named? loads referrer (.ofString written) = some c →
      ∃ order, DepthFirst (r.known? loads) [] [c] order ∧
        (∀ d ∈ order, Below (r.known? loads) c d) ∧
        (r.known? loads (.ofString written) = some c →
          (∀ name d, loads name = some d → d.name = name) →
          ∀ d, Below (r.known? loads) c d → d ∈ order) ∧
        ∀ shared, r.Faithful loader shared →
          ((∃ reference,
              ((r.resolve kind signature referrer).run.run loader shared).1 = .ok reference) ↔
            ∃ d ∈ order, ∃ found,
              d.find? kind (parsed.unqualified kind) = some found ∧ found.isPublic = true) ∧
          (∀ stop, ((r.resolve kind signature referrer).run.run loader shared).1 = .error stop →
            stop = .failed (.resolution (.noPublicMember signature))) ∧
          ∀ reference,
            ((r.resolve kind signature referrer).run.run loader shared).1 = .ok reference →
            ∃ found,
              (order.findSome? fun d => d.findPublic? kind (parsed.unqualified kind)) =
                some found ∧
              NamesMember reference parsed (.ofString written) c found := by
  have hreach := reach_of_build_ok hbuild
  constructor
  · intro c α find
    obtain ⟨order, hwalk, hlength⟩ := exists_walk hreach hloads c
    exact ⟨order, hwalk, fun other hother => hwalk.unique hother, fun shared hshared =>
      (findInherited_comesTo hloads hwalk hlength find).run hshared⟩
  · intro kind signature parsed written referrer c hparsed howner hnamed
    obtain ⟨order, hwalk, hlength⟩ := exists_walk hreach hloads c
    refine ⟨order, hwalk, fun d hd => ?_, fun hknown hnames d hd => ?_, fun shared hshared => ?_⟩
    · obtain ⟨start, hstart, hbelow⟩ := hwalk.exists_below hd
      obtain rfl := List.mem_singleton.1 hstart
      exact hbelow
    · have hc : r.known? loads c.name = some c := by rwa [name_of_known? hnames hknown]
      exact (hwalk.mem_iff_below (fun _ _ => name_of_known? hnames) hc).2 hd
    · rw [(resolve_comesTo hloads hparsed howner hnamed hwalk hlength).run hshared]
      refine ⟨?_, fun stop hstop => ?_, fun reference hreference =>
        namesMember_of_inherited hreference⟩
      · constructor
        · rintro ⟨reference, hreference⟩
          obtain ⟨found, hfirst, -⟩ := namesMember_of_inherited hreference
          obtain ⟨d, hd, hpublic⟩ := exists_public_of_first hfirst
          exact ⟨d, hd, found, hpublic⟩
        · rintro ⟨d, hd, found, hfound, hpublic⟩
          obtain ⟨first, hfirst⟩ := exists_first_of_public hd hfound hpublic
          rw [hfirst]
          exact ⟨_, rfl⟩
      · cases hfirst : order.findSome? fun d => d.findPublic? kind (parsed.unqualified kind) with
        | some first =>
          rw [hfirst] at hstop
          cases hstop
        | none =>
          rw [hfirst] at hstop
          exact (Except.error.inj hstop).symm

/-- Two classes that extend each other. One of them also implements an interface, and names
another that nobody has. -/
def leftOfPair : ClassUnit where
  name := .ofString "p/Left"
  modifiers := .single .isPublic
  superclass := some (.ofString "p/Right")
  interfaces := [.ofString "p/Missing", .ofString "p/Shape"]
  methods := []
  fields := []

def rightOfPair : ClassUnit where
  name := .ofString "p/Right"
  modifiers := .single .isPublic
  superclass := some (.ofString "p/Left")
  interfaces := []
  methods := [⟨.ofString "p/Right", "area", "()I", .single .isPrivate⟩]
  fields := []

def shape : ClassUnit where
  name := .ofString "p/Shape"
  modifiers := (Modifiers.single .isPublic).union (.single .isInterface)
  superclass := none
  interfaces := []
  methods := [⟨.ofString "p/Shape", "area", "()I", .single .isPublic⟩]
  fields := []

def shapes : ClassLibrary := ⟨[shape]⟩

def pairResolver : Resolver := ⟨[leftOfPair, rightOfPair], [], none, 3⟩

/-- The way to the interface leads through a class that the walk comes back to. -/
theorem resolve_goes_depth_first_pair :
    build [⟨"l.j", leftOfPair⟩, ⟨"r.j", rightOfPair⟩] [] none (shapes.loader : Loader Unit) =
        .ok pairResolver ∧
      (shapes.loader : Loader Unit).Loads shapes.find? ∧
      ∃ order reference, DepthFirst (pairResolver.known? shapes.find?) [] [rightOfPair] order ∧
        shape ∈ order ∧
        ((pairResolver.resolve .method "p.Right.area()I" leftOfPair).run.run
          (shapes.loader : Loader Unit) ⟨pairResolver.caches, ()⟩).1 = .ok reference ∧
        reference.owner = .ofString "p.Right" := by
  have hbuild : build [⟨"l.j", leftOfPair⟩, ⟨"r.j", rightOfPair⟩] [] none
      (shapes.loader : Loader Unit) = .ok pairResolver := by
    decide +kernel
  have hloads : (shapes.loader : Loader Unit).Loads shapes.find? := shapes.loads_loader
  have hnames : ∀ name d, shapes.find? name = some d → d.name = name := by
    intro name d hd
    simpa using List.find?_some hd
  have hsteps : leftOfPair ∈ rightOfPair.knownSupertypes (pairResolver.known? shapes.find?) ∧
      shape ∈ leftOfPair.knownSupertypes (pairResolver.known? shapes.find?) := by
    decide +kernel
  have hbelow : Below (pairResolver.known? shapes.find?) rightOfPair shape :=
    .head hsteps.1 (.single hsteps.2)
  obtain ⟨order, hwalk, -, hall, hresult⟩ :=
    (resolve_goes_depth_first hbuild hloads).2 .method "p.Right.area()I"
      ⟨some "p.Right", "area", "()I"⟩ "p.Right" leftOfPair rightOfPair (by decide +kernel) rfl
      (by decide +kernel)
  have hmem : shape ∈ order := hall (by decide +kernel) hnames shape hbelow
  obtain ⟨hiff, -, hreference⟩ := hresult _ (pairResolver.faithful_start _ ())
  obtain ⟨reference, href⟩ :=
    hiff.2 ⟨shape, hmem, ⟨.ofString "p/Shape", "area", "()I", .single .isPublic⟩,
      by decide +kernel, by decide +kernel⟩
  obtain ⟨found, -, hnamesMember⟩ := hreference reference href
  exact ⟨hbuild, hloads, order, reference, hwalk, hmem, href,
    hnamesMember.owner_eq⟩

/-- A class that extends one of another name, `B`. -/
def derived : ClassUnit where
  name := .ofString "A"
  modifiers := .single .isPublic
  superclass := some (.ofString "B")
  interfaces := []
  methods := []
  fields := []

/-- Another class of the name `A`, with a public method. -/
def namesake : ClassUnit :=
  { derived with
    superclass := none
    methods := [⟨.ofString "A", "m", "()V", .single .isPublic⟩] }

/-- Gives a class of the name `A` to whoever asks for `B`. -/
def misnaming (name : ClassName) : Option ClassUnit :=
  if name = .ofString "B" then some namesake else none

def misnamingLoader : Loader Unit :=
  .fixed (fun name => ((misnaming name).map .found).getD (.refused (.notFound name))) 1

def misnamedResolver : Resolver := ⟨[derived], [], none, 2⟩

/-- Names are passed over that have been visited, so a public method is missed in a class that
can be reached, but goes by the name of the class where the search began. -/
theorem misnamed_supertype_passed_over :
    build [⟨"A.j", derived⟩] [] none misnamingLoader = .ok misnamedResolver ∧
      misnamingLoader.Loads misnaming ∧
      Signature.parse .method "A.m()V" = .ok ⟨some "A", "m", "()V"⟩ ∧
      misnamedResolver.known? misnaming (.ofString "A") = some derived ∧
      Below (misnamedResolver.known? misnaming) derived namesake ∧
      (∃ found, namesake.find? .method "m()V" = some found ∧ found.isPublic = true) ∧
      ((misnamedResolver.resolve .method "A.m()V" derived).run.run misnamingLoader
        ⟨misnamedResolver.caches, ()⟩).1 =
          .error (.failed (.resolution (.noPublicMember "A.m()V"))) := by
  have hloads : misnamingLoader.Loads misnaming := by
    constructor
    · intro name common
      by_cases hname : name = .ofString "B"
      · simp [misnamingLoader, misnaming, Loader.fixed, hname]
      · simp [misnamingLoader, misnaming, Loader.fixed, hname]
    · refine ⟨[namesake], Nat.le_refl _, fun name c hc => ?_⟩
      unfold misnaming at hc
      split at hc
      · exact List.mem_singleton.2 (Option.some.inj hc).symm
      · cases hc
  have hparsed : Signature.parse .method "A.m()V" = .ok ⟨some "A", "m", "()V"⟩ := by
    decide +kernel
  have hnamed : misnamedResolver.named? misnaming derived (.ofString "A") = some derived := by
    decide +kernel
  have hsupertypes : derived.knownSupertypes (misnamedResolver.known? misnaming) = [namesake] := by
    decide +kernel
  have hwalk : DepthFirst (misnamedResolver.known? misnaming) [] [derived]
      (derived :: ([] ++ [])) :=
    .enter (by simp) (by rw [hsupertypes]; exact .again (by decide +kernel) .done) .done
  have hcomes := resolve_comesTo hloads hparsed rfl hnamed hwalk (by decide)
  refine ⟨by decide +kernel, hloads, hparsed, by decide +kernel, .single ?_, ?_, ?_⟩
  · rw [hsupertypes]
    exact List.mem_singleton_self _
  · exact ⟨⟨.ofString "A", "m", "()V", .single .isPublic⟩, by decide +kernel, by decide +kernel⟩
  · rw [hcomes.run (misnamedResolver.faithful_start _ ())]
    decide +kernel

/-! ### Declarations that are not public -/

/-- A class that is named and declares the member, but not publicly, is passed over: the
signature resolves as if the class did not declare the member, and fails only if the search of
its supertypes finds no public declaration either. -/
theorem resolve_passes_over_hidden {discovered : List Discovered} {libraries : List ClassUnit}
    {unresolved : Option ClassName}
    (hbuild : build discovered libraries unresolved loader = .ok r)
    (hloads : loader.Loads loads) (hparsed : Signature.parse kind signature = .ok parsed)
    {written : String} (howner : parsed.owner = some written) {referrer c : ClassUnit}
    (hnamed : r.named? loads referrer (.ofString written) = some c) {own : Member kind}
    (hown : c.find? kind (parsed.unqualified kind) = some own) (hhidden : own.isPublic = false) :
    ∃ below, DepthFirst (r.known? loads) [c.name] (c.knownSupertypes (r.known? loads)) below ∧
      ∀ shared, r.Faithful loader shared →
        (((r.resolve kind signature referrer).run.run loader shared).1 =
            .error (.failed (.resolution (.noPublicMember signature))) ↔
          ∀ d ∈ below, ∀ found, d.find? kind (parsed.unqualified kind) = some found →
            found.isPublic = false) ∧
        ∀ reference,
          ((r.resolve kind signature referrer).run.run loader shared).1 = .ok reference →
          ∃ d ∈ below, ∃ found, d.find? kind (parsed.unqualified kind) = some found ∧
            found.isPublic = true ∧ NamesMember reference parsed (.ofString written) c found := by
  obtain ⟨order, hwalk, hlength⟩ := exists_walk (reach_of_build_ok hbuild) hloads c
  have hskip : c.findPublic? kind (parsed.unqualified kind) = none := by
    rw [ClassUnit.findPublic?, hown, Option.filter_some, if_neg (by simp [hhidden])]
  cases hwalk with
  | again hmem => cases hmem
  | @enter _ _ _ below others hnew hbelow hothers =>
    cases hothers
    refine ⟨below, hbelow, fun shared hshared => ?_⟩
    have hcomes := (resolve_comesTo hloads hparsed howner hnamed
      (.enter hnew hbelow .done) hlength).run hshared
    rw [List.append_nil, List.findSome?_cons, hskip] at hcomes
    rw [hcomes]
    constructor
    · constructor
      · intro hfails d hd found hfound
        by_contra hpublic
        obtain ⟨first, hfirst⟩ := exists_first_of_public hd hfound (by simpa using hpublic)
        rw [hfirst] at hfails
        cases hfails
      · intro hall
        cases hfirst : below.findSome? fun d => d.findPublic? kind (parsed.unqualified kind) with
        | none => rfl
        | some first =>
          obtain ⟨d, hd, hfound, hpublic⟩ := exists_public_of_first hfirst
          rw [hall d hd first hfound] at hpublic
          cases hpublic
    · intro reference hreference
      obtain ⟨found, hfirst, hnames⟩ := namesMember_of_inherited hreference
      obtain ⟨d, hd, hfound, hpublic⟩ := exists_public_of_first hfirst
      exact ⟨d, hd, found, hfound, hpublic, hnames⟩

def base : ClassUnit where
  name := .ofString "Base"
  modifiers := .single .isPublic
  superclass := none
  interfaces := []
  methods := [⟨.ofString "Base", "m", "()V", .single .isPublic⟩]
  fields := []

def child : ClassUnit where
  name := .ofString "Child"
  modifiers := .single .isPublic
  superclass := some (.ofString "Base")
  interfaces := []
  methods := [⟨.ofString "Child", "m", "()V", .single .isPrivate⟩]
  fields := []

def family : Resolver := ⟨[child, base], [], none, 2⟩

theorem resolve_passes_over_hidden_child :
    build [⟨"Child.j", child⟩, ⟨"Base.j", base⟩] [] none (ClassLibrary.empty.loader : Loader Unit) =
        .ok family ∧
      Signature.parse .method "Child.m()V" = .ok ⟨some "Child", "m", "()V"⟩ ∧
      ∃ below, DepthFirst (family.known? ClassLibrary.empty.find?) [child.name]
          (child.knownSupertypes (family.known? ClassLibrary.empty.find?)) below ∧
        (((family.resolve .method "Child.m()V" base).run.run
            (ClassLibrary.empty.loader : Loader Unit) ⟨family.caches, ()⟩).1 =
              .error (.failed (.resolution (.noPublicMember "Child.m()V"))) ↔
          ∀ d ∈ below, ∀ found, d.find? .method "m()V" = some found → found.isPublic = false) := by
  have hbuild : build [⟨"Child.j", child⟩, ⟨"Base.j", base⟩] [] none
      (ClassLibrary.empty.loader : Loader Unit) = .ok family := by
    decide +kernel
  have hparsed : Signature.parse .method "Child.m()V" = .ok ⟨some "Child", "m", "()V"⟩ := by
    decide +kernel
  have hnamed : family.named? ClassLibrary.empty.find? base (.ofString "Child") = some child := by
    decide +kernel
  have hown : child.find? .method "m()V" =
      some ⟨.ofString "Child", "m", "()V", .single .isPrivate⟩ := by
    decide +kernel
  obtain ⟨below, hbelow, hresult⟩ :=
    resolve_passes_over_hidden hbuild ClassLibrary.empty.loads_loader hparsed rfl hnamed hown
      (by decide +kernel)
  exact ⟨hbuild, hparsed, below, hbelow, (hresult _ (family.faithful_start _ ())).1⟩

/-- Naming the class whose method is private gives a reference to the inherited one. -/
theorem private_member_resolves_to_inherited :
    Signature.parse .method "Child.m()V" = .ok ⟨some "Child", "m", "()V"⟩ ∧
      family.known? ClassLibrary.empty.find? (.ofString "Child") = some child ∧
      child.find? .method "m()V" = some ⟨.ofString "Child", "m", "()V", .single .isPrivate⟩ ∧
      ((family.resolve .method "Child.m()V" base).run.run
        (ClassLibrary.empty.loader : Loader Unit) ⟨family.caches, ()⟩).1 =
          .ok ⟨.ofString "Child", "m", "()V", .invokevirtual, false⟩ := by
  have hparsed : Signature.parse .method "Child.m()V" = .ok ⟨some "Child", "m", "()V"⟩ := by
    decide +kernel
  have hknown : family.known? ClassLibrary.empty.find? (.ofString "Child") = some child := by
    decide +kernel
  have hchild : child.knownSupertypes (family.known? ClassLibrary.empty.find?) = [base] := by
    decide +kernel
  have hbase : base.knownSupertypes (family.known? ClassLibrary.empty.find?) = [] := by
    decide +kernel
  have hbelow : DepthFirst (family.known? ClassLibrary.empty.find?) [child.name] [base]
      (base :: ([] ++ [])) :=
    .enter (by decide +kernel) (by rw [hbase]; exact .done) .done
  have hwalk : DepthFirst (family.known? ClassLibrary.empty.find?) [] [child]
      (child :: ([base] ++ [])) :=
    .enter (by simp) (by rw [hchild]; exact hbelow) .done
  have hnamed : family.named? ClassLibrary.empty.find? base (.ofString "Child") = some child := by
    decide +kernel
  have hcomes := resolve_comesTo (ClassLibrary.empty.loads_loader (τ := Unit)) hparsed rfl hnamed
    hwalk (by decide)
  refine ⟨hparsed, hknown, by decide +kernel, ?_⟩
  rw [hcomes.run (family.faithful_start _ ())]
  decide +kernel

end Qualified
end Resolver
end UnitLink
