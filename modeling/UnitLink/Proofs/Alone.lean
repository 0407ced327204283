import UnitLink.Proofs.Pairing
import UnitLink.Proofs.QualifiedSearch
/-! Two resolvers side by side. Where a loader's answers do not change, what a session comes to
with nobody else at the caches says all about it, and such a session is run step by step without
a word about caches. If a second resolver finds what the first one finds, then what resolves
with the first resolves to the same with the second, also when the owner of a signature is
spelled in another way. -/
namespace UnitLink

variable {α β : Type}

/-- If the one comes to a value, the other comes to that value, too. -/
def Carries (x y : Except Stop α) : Prop := ∀ value, x = .ok value → y = .ok value

theorem Carries.refl (x : Except Stop α) : Carries x x := fun _ h => h

theorem Carries.bind {x y : Except Stop α} {f g : α → Except Stop β} (h : Carries x y)
    (hf : ∀ value, Carries (f value) (g value)) : Carries (x >>= f) (y >>= g) := by
  intro result hresult
  cases x with
  | error stop => cases hresult
  | ok value =>
    rw [h value rfl]
    exact hf value result hresult

theorem mapError_eq_ok_iff {ε ε' : Type} {x : Except ε α} {f : ε → ε'} {value : α} :
    x.mapError f = .ok value ↔ x = .ok value := by
  cases x <;> simp [Except.mapError]

namespace Resolver

open Session (Settled settled_pure settled_run_bind)

variable {r r' : Resolver} {load : ClassName → LoadAnswer} {size : Nat}

/-! ### Sessions by themselves -/

/-- What a session comes to with nobody else at the caches. -/
def alone (r : Resolver) (loader : Loader Unit) (x : Resolving Unit α) : Except Stop α :=
  (x.run.run loader ⟨r.caches, ()⟩).1

/-- What the first part of a session has looked up makes no difference to the second. -/
theorem alone_bind {x : Resolving Unit α} {f : α → Resolving Unit β}
    (hx : x.run.Settled (r.protocol (.fixed load size)))
    (hf : ∀ value, (f value).run.Settled (r.protocol (.fixed load size))) :
    r.alone (.fixed load size) (x >>= f) =
      r.alone (.fixed load size) x >>= fun value => r.alone (.fixed load size) (f value) := by
  obtain ⟨result, hresult⟩ := hx
  have hstart := r.faithful_start (.fixed load size) ()
  have hleft := (hresult.run (r.protocol_keeps _) hstart).2
  unfold alone
  rw [ExceptT.run_bind, Session.run_bind]
  generalize x.run.run (.fixed load size) ⟨r.caches, ()⟩ = run at hleft ⊢
  obtain ⟨outcome, shared⟩ := run
  cases outcome with
  | error stop => rfl
  | ok value =>
    obtain ⟨last, hlast⟩ := hf value
    exact (hlast.run (r.protocol_keeps _) hleft).1.trans
      (hlast.run (r.protocol_keeps _) hstart).1.symm

theorem carries_bind {x x' : Resolving Unit α} {f f' : α → Resolving Unit β}
    (hx : x.run.Settled (r.protocol (.fixed load size)))
    (hx' : x'.run.Settled (r'.protocol (.fixed load size)))
    (hf : ∀ value, (f value).run.Settled (r.protocol (.fixed load size)))
    (hf' : ∀ value, (f' value).run.Settled (r'.protocol (.fixed load size)))
    (h : Carries (r.alone (.fixed load size) x) (r'.alone (.fixed load size) x'))
    (hrest : ∀ value, Carries (r.alone (.fixed load size) (f value))
      (r'.alone (.fixed load size) (f' value))) :
    Carries (r.alone (.fixed load size) (x >>= f)) (r'.alone (.fixed load size) (x' >>= f')) := by
  rw [alone_bind hx hf, alone_bind hx' hf']
  exact h.bind hrest

theorem carries_map {x x' : Resolving Unit α} (f : α → β)
    (hx : x.run.Settled (r.protocol (.fixed load size)))
    (hx' : x'.run.Settled (r'.protocol (.fixed load size)))
    (h : Carries (r.alone (.fixed load size) x) (r'.alone (.fixed load size) x')) :
    Carries (r.alone (.fixed load size) (x >>= fun value => pure (f value)))
      (r'.alone (.fixed load size) (x' >>= fun value => pure (f value))) :=
  carries_bind hx hx' (fun _ => settled_pure _) (fun _ => settled_pure _) h fun _ => .refl _

/-- What a lookup makes of the loader's answer. -/
def ofAnswer : LoadAnswer → Except Stop (Except LookupFault ClassUnit)
  | .found c => .ok (.ok c)
  | .refused fault => .ok (.error fault)
  | .crashed message => .error (.crashed message)

/-- What a name is looked up to. -/
def lookedUp (r : Resolver) (load : ClassName → LoadAnswer) (name : ClassName) :
    Except Stop (Except LookupFault ClassUnit) :=
  match r.jobClass? name <|> r.preloaded name with
  | some c => .ok (.ok c)
  | none => ofAnswer (load name)

theorem alone_lookup (name : ClassName) :
    r.alone (.fixed load size) (r.lookup name) = r.lookedUp load name := by
  unfold lookup lookedUp
  cases r.jobClass? name with
  | some c => rfl
  | none =>
    have hloaded : ∀ f : Option ClassUnit → Resolving Unit (Except LookupFault ClassUnit),
        r.alone (.fixed load size) (access (.loaded name) >>= f) =
          r.alone (.fixed load size) (f (r.preloaded name)) := fun _ => rfl
    have hload : ∀ f : LoadAnswer → Resolving Unit (Except LookupFault ClassUnit),
        r.alone (.fixed load size) (access (.load name) >>= f) =
          r.alone (.fixed load size) (f (load name)) := fun _ => rfl
    refine (hloaded _).trans ?_
    cases hpre : r.preloaded name with
    | some c => rfl
    | none =>
      refine (hload _).trans ?_
      cases load name with
      | found c =>
        have hkeep : r.caches.keep name c =
            (c, { r.caches with classes := (name, c) :: r.caches.classes }) := by
          unfold Caches.keep
          rw [show r.caches.classes.lookup name = none from hpre]
        show Except.ok (Except.ok (r.caches.keep name c).1) = _
        rw [hkeep]
        rfl
      | refused fault => rfl
      | crashed message => rfl

/-! ### Searches -/

/-- A second resolver looks names up to what the first one does, and searches at least as
far. -/
structure Extends (load : ClassName → LoadAnswer) (r r' : Resolver) : Prop where
  lookedUp_eq : ∀ name, r'.lookedUp load name = r.lookedUp load name
  reach_le : r.reach ≤ r'.reach

theorem Extends.refl (load : ClassName → LoadAnswer) (r : Resolver) : r.Extends load r :=
  ⟨fun _ => rfl, Nat.le_refl _⟩

theorem lookupAll_settled (names : List ClassName) :
    (r.lookupAll names : Resolving Unit _).run.Settled (r.protocol (.fixed load size)) :=
  (settled_composes _).lookupAll lookup_settled names

theorem alone_lookupAll_cons (name : ClassName) (names : List ClassName) :
    r.alone (.fixed load size) (r.lookupAll (name :: names)) =
      r.alone (.fixed load size) (r.lookupAll names) >>= fun others =>
        r.lookedUp load name >>= fun result =>
          .ok (match result with
            | .ok c => c :: others
            | .error _ => others) := by
  rw [lookupAll, alone_bind (lookupAll_settled names)]
  · congr 1
    funext others
    rw [alone_bind (lookup_settled name)]
    · rw [alone_lookup]
      congr 1
      funext result
      cases result <;> rfl
    · rintro (fault | c) <;> exact settled_pure _
  · refine fun others => settled_run_bind (lookup_settled name) ?_
    rintro (fault | c) <;> exact settled_pure _

theorem Extends.alone_lookupAll (h : r.Extends load r') (names : List ClassName) :
    r'.alone (.fixed load size) (r'.lookupAll names) =
      r.alone (.fixed load size) (r.lookupAll names) := by
  induction names with
  | nil => rfl
  | cons name names ih => rw [alone_lookupAll_cons, alone_lookupAll_cons, ih, h.lookedUp_eq]

theorem alone_search_of_not_found {find : ClassUnit → Option α} {steps : Nat}
    {visited : List ClassName} {c : ClassUnit} (pending : List ClassUnit)
    (hnew : c.name ∉ visited) (hc : find c = none) :
    r.alone (.fixed load size) (r.search find (steps + 1) visited (c :: pending)) =
      r.alone (.fixed load size) (r.lookupAll c.supertypes) >>= fun supertypes =>
        r.alone (.fixed load size)
          (r.search find steps (c.name :: visited) (supertypes ++ pending)) := by
  rw [search_of_not_found hnew hc, alone_bind (lookupAll_settled _)]
  exact fun supertypes => (settled_composes _).search lookup_settled find _ _ _

theorem Extends.search_carries (h : r.Extends load r') {find : ClassUnit → Option α}
    {steps steps' : Nat} (hsteps : steps ≤ steps') {visited : List ClassName}
    {pending : List ClassUnit} {a : α}
    (hfound : r.alone (.fixed load size) (r.search find steps visited pending) = .ok (some a)) :
    r'.alone (.fixed load size) (r'.search find steps' visited pending) = .ok (some a) := by
  induction steps, visited, pending using search.induct find generalizing steps' with
  | case1 steps visited =>
    rw [search] at hfound
    cases hfound
  | case2 steps visited c pending hmem ih =>
    rw [search_of_mem hmem] at hfound ⊢
    exact ih hsteps hfound
  | case3 steps visited c pending hnew found hc =>
    rw [search_of_found hnew hc] at hfound ⊢
    exact hfound
  | case4 visited c pending hnew hc =>
    rw [search.eq_def] at hfound
    simp only [if_neg hnew, hc] at hfound
    cases hfound
  | case5 visited c pending hnew hc steps ih =>
    obtain ⟨more, rfl⟩ := Nat.exists_eq_add_of_le hsteps
    rw [Nat.succ_add]
    rw [alone_search_of_not_found pending hnew hc] at hfound ⊢
    rw [h.alone_lookupAll]
    cases hsupertypes : r.alone (.fixed load size) (r.lookupAll c.supertypes) with
    | error stop =>
      rw [hsupertypes] at hfound
      cases hfound
    | ok supertypes =>
      rw [hsupertypes] at hfound
      exact ih supertypes (Nat.le_add_right _ _) hfound

theorem Extends.namedClass_carries (h : r.Extends load r') (owner : ClassName)
    (referrer : ClassUnit) (signature signature' : String) :
    Carries (r.alone (.fixed load size) (r.namedClass owner referrer signature))
      (r'.alone (.fixed load size) (r'.namedClass owner referrer signature')) := by
  unfold namedClass
  split
  · exact .refl _
  · refine carries_bind (lookup_settled owner) (lookup_settled owner) ?_ ?_ ?_ ?_
    · rintro (fault | named) <;> exact settled_pure _
    · rintro (fault | named) <;> exact settled_pure _
    · rw [alone_lookup, alone_lookup, h.lookedUp_eq]
      exact .refl _
    · rintro (fault | named)
      · rintro value ⟨⟩
      · exact .refl _

/-! ### Signatures -/

variable {kind : MemberKind}

/-- If the one signature can be read, so can the other. It is that of the same member, and its
owner, if there is one, is spelled differently at most. -/
def SameMember (kind : MemberKind) (signature signature' : String) : Prop :=
  ∀ parsed, Signature.parse kind signature = .ok parsed →
    ∃ owner, Signature.parse kind signature' = .ok { parsed with owner } ∧
      owner.map ClassName.ofString = parsed.owner.map ClassName.ofString

theorem SameMember.refl (kind : MemberKind) (signature : String) :
    SameMember kind signature signature :=
  fun parsed hparsed => ⟨parsed.owner, hparsed, rfl⟩

variable {signature signature' : String} {c : ClassUnit}

theorem alone_resolveUnqualified (parsed : Signature) :
    r.alone (.fixed load size) (r.resolveUnqualified signature parsed) =
      match r.unqualified? kind parsed with
      | some reference => .ok reference
      | none => .error (.failed (.resolution (.noPublicMember signature))) := by
  have hknown : ∀ f : Option (Reference kind) → Resolving Unit (Reference kind),
      r.alone (.fixed load size) (access (.known kind signature) >>= f) =
        r.alone (.fixed load size) (f none) := by
    intro f
    cases kind <;> rfl
  unfold resolveUnqualified
  refine (hknown _).trans ?_
  cases r.unqualified? kind parsed with
  | none => rfl
  | some reference => rfl

theorem alone_resolveQualified (parsed : Signature) (owner : ClassName) :
    r.alone (.fixed load size) (r.resolveQualified signature parsed owner c) =
      r.alone (.fixed load size) (r.namedClass owner c signature) >>= fun named =>
        r.alone (.fixed load size) (r.findInherited named fun d =>
            d.findPublic? kind (parsed.unqualified kind)) >>= fun found =>
          inherited kind signature parsed owner named found := by
  unfold resolveQualified
  rw [alone_bind (namedClass_settled owner c signature)]
  · congr 1
    funext named
    rw [alone_bind (findInherited_settled named _)]
    · congr 1
      funext found
      cases found <;> rfl
    · rintro (_ | found) <;> exact settled_pure _
  · refine fun named => settled_run_bind (findInherited_settled named _) ?_
    rintro (_ | found) <;> exact settled_pure _

/-- What resolves with the first resolver resolves to the same with the second. -/
theorem Extends.resolve_carries (h : r.Extends load r')
    (hsame : SameMember kind signature signature')
    (hunqualified : ∀ parsed, Signature.parse kind signature = .ok parsed → parsed.owner = none →
      ∀ reference, r.unqualified? kind parsed = some reference →
        r'.unqualified? kind parsed = some reference) :
    Carries (r.alone (.fixed load size) (r.resolve kind signature c))
      (r'.alone (.fixed load size) (r'.resolve kind signature' c)) := by
  unfold resolve parse
  cases hparsed : Signature.parse kind signature with
  | error fault =>
    rintro reference ⟨⟩
  | ok parsed =>
    obtain ⟨owner', hparsed', howner⟩ := hsame parsed hparsed
    rw [hparsed']
    simp only [pure_bind]
    cases hwritten : parsed.owner with
    | none =>
      rw [hwritten] at howner
      obtain rfl : owner' = none := by simpa using howner
      simp only [alone_resolveUnqualified]
      intro reference hreference
      cases hfound : r.unqualified? kind parsed with
      | none =>
        rw [hfound] at hreference
        cases hreference
      | some found =>
        rw [hfound] at hreference
        have := hunqualified parsed hparsed hwritten found hfound
        rw [← hwritten]
        simp only [this]
        exact hreference
    | some written =>
      rw [hwritten] at howner
      obtain ⟨written', rfl, hspelled⟩ := Option.map_eq_some_iff.1 howner
      simp only [hspelled, alone_resolveQualified]
      refine (h.namedClass_carries _ c signature signature').bind fun named => ?_
      -- only what is found is to be found again: an exhausted search may go on elsewhere
      intro reference hreference
      cases hsearch : r.alone (.fixed load size) (r.findInherited named fun d =>
          d.findPublic? kind (parsed.unqualified kind)) with
      | error stop =>
        rw [hsearch] at hreference
        cases hreference
      | ok result =>
        rw [hsearch] at hreference
        cases result with
        | none => cases hreference
        | some found =>
          have hsearch' : r'.alone (.fixed load size) (r'.findInherited named fun d =>
              d.findPublic? kind (parsed.unqualified kind)) = .ok (some found) :=
            h.search_carries (Nat.succ_le_succ h.reach_le) hsearch
          show (r'.alone (.fixed load size) (r'.findInherited named fun d =>
            d.findPublic? kind (parsed.unqualified kind)) >>= _) = _
          rw [hsearch']
          exact hreference

theorem SameMember.resolveLocal_eq (hsame : SameMember kind signature signature')
    {reference : Reference kind} (h : resolveLocal kind signature c = .ok reference) :
    resolveLocal kind signature' c = .ok reference := by
  unfold resolveLocal at h ⊢
  cases hparsed : Signature.parse kind signature with
  | error fault =>
    rw [hparsed] at h
    cases h
  | ok parsed =>
    obtain ⟨owner', hparsed', howner⟩ := hsame parsed hparsed
    have hany : owner'.any (fun written => ClassName.ofString written != c.name) =
        parsed.owner.any fun written => ClassName.ofString written != c.name := by
      have := congrArg (Option.any fun name => name != c.name) howner
      rwa [Option.any_map, Option.any_map] at this
    rw [hparsed] at h
    rw [hparsed']
    simp only [hany] at h ⊢
    split at h
    · cases h
    · rename_i hinterface
      rw [if_neg hinterface]
      split at h
      · cases h
      · rename_i howner
        rw [if_neg howner]
        cases hfind : c.find? kind (parsed.unqualified kind) with
        | none =>
          rw [hfind] at h
          cases h
        | some found =>
          have hfind' : c.find? kind
              (Signature.unqualified kind ⟨owner', parsed.name, parsed.descriptor⟩) =
                some found := hfind
          rw [hfind] at h
          rw [hfind']
          exact h

end Resolver

/-! ### Directives -/

def DirectiveKind.member? : DirectiveKind → Option MemberKind
  | invokeEnd => some .method
  | readField => some .field
  | classOf => some .method
  | _ => none

/-- A signature that a directive has looked for outside the class's own declarations. -/
def Directive.Uses (d : Directive) (kind : MemberKind) (parsed : Signature) : Prop :=
  d.kind.member? = some kind ∧ (d.kind = .classOf ∨ d.flag "local" = .ok false) ∧
    ∃ signature, d.required "sig" = .ok signature ∧
      Signature.parse kind signature = .ok parsed

/-- Directives that differ at most in how they spell the owner of the member that they are
about. -/
structure Directive.SameReference (d d' : Directive) : Prop where
  kind_eq : d'.kind = d.kind
  flag_eq : d'.flag "local" = d.flag "local"
  pending_eq : d'.pending = d.pending
  signature : ∀ kind, d.kind.member? = some kind → ∀ signature,
    d.required "sig" = .ok signature →
      ∃ signature', d'.required "sig" = .ok signature' ∧
        Resolver.SameMember kind signature signature'

theorem Directive.SameReference.refl (d : Directive) : d.SameReference d where
  kind_eq := rfl
  flag_eq := rfl
  pending_eq := rfl
  signature kind _ signature h := ⟨signature, h, .refl kind signature⟩

namespace Bindings

open Resolver
open Session (settled_pure settled_run_bind)

variable {r r' : Resolver} {load : ClassName → LoadAnswer} {size : Nat} {c : ClassUnit}

/-- The unqualified signatures of a directive come to the same with both resolvers. -/
def SameUnqualified (r r' : Resolver) (d : Directive) : Prop :=
  ∀ kind parsed, d.Uses kind parsed → parsed.owner = none →
    ∀ reference : Reference kind, r.unqualified? kind parsed = some reference →
      r'.unqualified? kind parsed = some reference

def stopOver (fault : DirectiveFault) : Stop := .failed (.declaration (.badDirective fault))

theorem alone_declaration (read : Except DirectiveFault α) :
    r.alone (.fixed load size) (resolve.declaration read) = read.mapError stopOver := by
  cases read <;> rfl

theorem alone_resolve (kind : MemberKind) (d : Directive) :
    r.alone (.fixed load size) (resolve r c kind d) =
      (d.required "sig").mapError stopOver >>= fun signature =>
        (d.flag "local").mapError stopOver >>= fun isLocal =>
          if isLocal then (Resolver.resolveLocal kind signature c).mapError .failed
          else r.alone (.fixed load size) (r.resolve kind signature c) := by
  unfold resolve
  cases d.required "sig" with
  | error fault => rfl
  | ok signature =>
    cases d.flag "local" with
    | error fault => rfl
    | ok isLocal =>
      cases isLocal with
      | false => rfl
      | true =>
        simp only [resolve.declaration, pure_bind, if_true]
        show _ = (Resolver.resolveLocal kind signature c).mapError Stop.failed
        cases Resolver.resolveLocal kind signature c <;> rfl

theorem resolve_carries (h : r.Extends load r') {d d' : Directive} (hd : d.SameReference d')
    (hsame : SameUnqualified r r' d) {kind : MemberKind} (hkind : d.kind.member? = some kind) :
    Carries (r.alone (.fixed load size) (resolve r c kind d))
      (r'.alone (.fixed load size) (resolve r' c kind d')) := by
  rw [alone_resolve, alone_resolve, hd.flag_eq]
  cases hsignature : d.required "sig" with
  | error fault => rintro reference ⟨⟩
  | ok signature =>
    obtain ⟨signature', hsignature', hmember⟩ := hd.signature kind hkind signature hsignature
    rw [hsignature']
    cases hlocal : d.flag "local" with
    | error fault => rintro reference ⟨⟩
    | ok isLocal =>
      cases isLocal with
      | true =>
        exact fun reference hreference => mapError_eq_ok_iff.2
          (hmember.resolveLocal_eq (mapError_eq_ok_iff.1 hreference))
      | false =>
        exact h.resolve_carries hmember fun parsed hparsed howner =>
          hsame kind parsed ⟨hkind, .inr hlocal, signature, hsignature, hparsed⟩ howner

theorem bindDirective_carries (h : r.Extends load r') {d d' : Directive} (hd : d.SameReference d')
    (hsame : SameUnqualified r r' d) :
    Carries (r.alone (.fixed load size) (bindDirective r c d))
      (r'.alone (.fixed load size) (bindDirective r' c d')) := by
  have hkind := hd.kind_eq
  unfold bindDirective
  rw [hkind]
  cases hk : d.kind with
  | classHeader | field | method | glueFields | glueInit => exact .refl _
  | invokeBegin =>
    simp only
    rw [hd.pending_eq]
    refine carries_map _ (declaration_settled _) (declaration_settled _) ?_
    rw [alone_declaration, alone_declaration]
    exact .refl _
  | invokeEnd =>
    exact carries_map _ (resolve_settled c .method d) (resolve_settled c .method d')
      (resolve_carries h hd hsame (by rw [hk]; rfl))
  | readField =>
    exact carries_map _ (resolve_settled c .field d) (resolve_settled c .field d')
      (resolve_carries h hd hsame (by rw [hk]; rfl))
  | classOf =>
    simp only
    cases hsignature : d.required "sig" with
    | error fault => rintro binding ⟨⟩
    | ok signature =>
      obtain ⟨signature', hsignature', hmember⟩ :=
        hd.signature .method (by rw [hk]; rfl) signature hsignature
      rw [hsignature']
      simp only [resolve.declaration, pure_bind]
      refine carries_map _ (Resolver.resolve_settled signature c)
        (Resolver.resolve_settled signature' c) ?_
      exact h.resolve_carries hmember fun parsed hparsed howner => hsame .method parsed
        ⟨by rw [hk]; rfl, .inl hk, signature, hsignature, hparsed⟩ howner

def bindLine (r : Resolver) (c : ClassUnit) (line : Line) : Resolving Unit (Option Binding) :=
  match line.directive with
  | none => pure none
  | some d => bindDirective r c d

theorem bindLines_cons (line : Line) (lines : List Line) :
    (bindLines r c (line :: lines) : Resolving Unit _) = (do
      let binding ← bindLine r c line
      let others ← bindLines r c lines
      return (binding.map (line.number, ·)).toList ++ others) := by
  rw [bindLines, bindLine]
  cases line.directive with
  | none => simp
  | some d =>
    simp only
    congr 1
    funext binding
    cases binding with
    | none => simp
    | some binding => rfl

theorem bindLine_settled (line : Line) :
    (bindLine r c line).run.Settled (r.protocol (.fixed load size)) := by
  unfold bindLine
  split
  · exact settled_pure _
  · exact bindDirective_settled c _

theorem bindLines_settled (lines : List Line) :
    (bindLines r c lines : Resolving Unit _).run.Settled (r.protocol (.fixed load size)) := by
  induction lines with
  | nil => exact settled_pure _
  | cons line lines ih =>
    rw [bindLines_cons]
    exact settled_run_bind (bindLine_settled line) fun _ =>
      settled_run_bind ih fun _ => settled_pure _

/-- Lines of the same numbers, each of which binds with the second resolver to what the other
binds to with the first. -/
def LineCarries (load : ClassName → LoadAnswer) (size : Nat) (c : ClassUnit) (r r' : Resolver)
    (line line' : Line) : Prop :=
  line'.number = line.number ∧
    Carries (r.alone (.fixed load size) (bindLine r c line))
      (r'.alone (.fixed load size) (bindLine r' c line'))

theorem lineCarries_of (h : r.Extends load r') {line line' : Line}
    (hnumber : line'.number = line.number) (hnone : line.directive = none → line'.directive = none)
    (hsome : ∀ d, line.directive = some d → ∃ d', line'.directive = some d' ∧
      d.SameReference d' ∧ SameUnqualified r r' d) : LineCarries load size c r r' line line' := by
  refine ⟨hnumber, ?_⟩
  unfold bindLine
  cases hd : line.directive with
  | none =>
    rw [hnone hd]
    exact .refl _
  | some d =>
    obtain ⟨d', hd', hreference, hsame⟩ := hsome d hd
    rw [hd']
    exact bindDirective_carries h hreference hsame

theorem bindLines_carries {lines lines' : List Line}
    (h : List.Forall₂ (LineCarries load size c r r') lines lines') :
    Carries (r.alone (.fixed load size) (bindLines r c lines))
      (r'.alone (.fixed load size) (bindLines r' c lines')) := by
  induction h with
  | nil => exact .refl _
  | @cons line line' lines lines' hline _ ih =>
    obtain ⟨hnumber, hcarries⟩ := hline
    rw [bindLines_cons, bindLines_cons, hnumber]
    refine carries_bind (bindLine_settled line) (bindLine_settled line')
      (fun _ => settled_run_bind (bindLines_settled _) fun _ => settled_pure _)
      (fun _ => settled_run_bind (bindLines_settled _) fun _ => settled_pure _) hcarries
      fun binding => ?_
    exact carries_map _ (bindLines_settled _) (bindLines_settled _) ih

end Bindings
end UnitLink
