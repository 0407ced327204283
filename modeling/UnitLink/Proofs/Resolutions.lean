import UnitLink.Proofs.Lookups
import UnitLink.Proofs.MemberSignatures
import UnitLink.Proofs.Pairing
/-! What a resolution has ready for the rewriting. Within the protocol of the shared caches a
resolution stops only over what was written or where the loader ends it. When it succeeds,
every line that takes part in it has an entry of its directive's kind, the references in the
table have well-formed descriptors, and a glue field is recorded for every owner that an
instance has to be had of. -/
namespace UnitLink

variable {σ τ : Type}

theorem Descriptor.parameterTypes_of_parse {signature : String} {parsed : Signature}
    (h : Signature.parse .method signature = .ok parsed) :
    ∃ types, parameterTypes parsed.descriptor.toList = .ok types := by
  obtain ⟨types, htype⟩ := (Signature.parse_eq_ok_iff.1 h).describes
  exact ⟨types, htype.parameterTypes⟩

/-- What a line stands for serves its directive: it is of the directive's kind, and what
the directive's expansion looks up is there. -/
def Resolution.Serves (resolution : Resolution) (d : Directive) (resolved : Resolved) : Prop :=
  match d.kind, resolved with
  | .invokeBegin, .invocation reference =>
    resolution.glue.Reaches resolution.declared reference ∧ ∃ pending, d.pending = .ok pending
  | .invokeEnd, .invocation reference =>
    ∃ types, Descriptor.parameterTypes reference.descriptor.toList = .ok types
  | .readField, .fieldRead reference => resolution.glue.Reaches resolution.declared reference
  | .classOf, .classOf _ => True
  | _, _ => False

/-- A resolution that serves every line that binds. -/
structure Resolution.Prepared (resolution : Resolution) (lines : List Line) : Prop where
  ordered : resolution.lines.Ordered
  serves : ∀ line ∈ lines, ∀ d, line.directive = some d → d.kind.binds = true →
    ∃ resolved, resolution.lines.get? line.number = some resolved ∧ resolution.Serves d resolved

namespace Bindings

/-- What a directive was checked for before it was bound. -/
def Justified (d : Directive) : Binding → Prop
  | .opening => d.kind = .invokeBegin ∧ ∃ pending, d.pending = .ok pending
  | .closing reference => d.kind = .invokeEnd ∧ ∃ signature, Resolver.SpelledBy reference signature
  | .fieldRead _ => d.kind = .readField
  | .classOf _ => d.kind = .classOf

theorem Justified.kind_eq {d : Directive} {binding : Binding} (h : Justified d binding) :
    binding.kind = d.kind := by
  cases binding with
  | opening => exact h.1.symm
  | closing reference => exact h.1.symm
  | fieldRead reference => exact h.symm
  | classOf owner => exact h.symm

section Binding

open Resolver

variable {r : Resolver} {loader : Loader τ}

theorem declaration_delivers {α : Type} (read : Except DirectiveFault α) :
    r.Delivers loader (resolve.declaration read) fun value => read = .ok value := by
  unfold resolve.declaration
  split
  · exact delivers_pure rfl
  · exact delivers_fail (.inl rfl)

theorem resolve_delivers (c : ClassUnit) (kind : MemberKind) (d : Directive) :
    r.Delivers loader (resolve r c kind d) fun reference =>
      ∃ signature, SpelledBy reference signature := by
  unfold resolve
  refine Delivers.bind (declaration_delivers _) fun signature _ => ?_
  refine Delivers.bind (declaration_delivers _) fun isLocal _ => ?_
  split
  · split
    · rename_i reference href
      exact delivers_pure ⟨signature, spelledBy_of_resolveLocal href⟩
    · rename_i failure hfailure
      exact delivers_fail (kind_of_resolveLocal_error hfailure)
  · exact (Resolver.resolve_delivers signature c).mono fun reference h => ⟨signature, h⟩

theorem bindDirective_delivers (c : ClassUnit) (d : Directive) :
    r.Delivers loader (bindDirective r c d) fun bound =>
      match bound with
      | none => d.kind.binds = false
      | some binding => Justified d binding := by
  unfold bindDirective
  cases hkind : d.kind with
  | classHeader | field | method | glueFields | glueInit => exact delivers_pure rfl
  | invokeBegin =>
    refine Delivers.bind (declaration_delivers _) fun pending hpending => ?_
    exact delivers_pure ⟨hkind, pending, hpending⟩
  | invokeEnd =>
    refine Delivers.bind (resolve_delivers c .method d) fun reference href => ?_
    exact delivers_pure ⟨hkind, href⟩
  | readField =>
    refine Delivers.bind (resolve_delivers c .field d) fun reference _ => ?_
    exact delivers_pure hkind
  | classOf =>
    refine Delivers.bind (declaration_delivers _) fun signature _ => ?_
    refine Delivers.bind (Resolver.resolve_delivers signature c) fun reference _ => ?_
    exact delivers_pure hkind

end Binding

/-! ### The pass -/

/-- The bindings of lines, each with the directive that justifies it. -/
structure Bound (lines : List Line) (bs : List (Nat × Binding)) : Prop where
  kinds_eq : bs.map (fun x => (x.1, x.2.kind)) = boundKinds lines
  justified : ∀ line ∈ lines, ∀ d, line.directive = some d → d.kind.binds = true →
    ∃ binding, (line.number, binding) ∈ bs ∧ Justified d binding
  spelled : ∀ line reference, (line, .closing reference) ∈ bs →
    ∃ signature, Resolver.SpelledBy reference signature

theorem bound_nil : Bound [] [] := ⟨rfl, by simp, by simp⟩

theorem Bound.append_unbound {lines : List Line} {bs : List (Nat × Binding)} (h : Bound lines bs)
    {line : Line} (hline : ∀ d, line.directive = some d → d.kind.binds = false) :
    Bound (lines ++ [line]) bs where
  kinds_eq := by
    have hnone : boundKinds [line] = [] := by
      cases hd : line.directive with
      | none => simp [boundKinds, hd]
      | some d => simp [boundKinds, hd, hline d hd]
    rw [h.kinds_eq, boundKinds, boundKinds, List.filterMap_append]
    rw [boundKinds] at hnone
    rw [hnone, List.append_nil]
  justified other hother d hd hbinds := by
    rcases List.mem_append.1 hother with hold | hnew
    · exact h.justified other hold d hd hbinds
    · obtain rfl := List.mem_singleton.1 hnew
      rw [hline d hd] at hbinds
      cases hbinds
  spelled := h.spelled

theorem Bound.append_bound {lines : List Line} {bs : List (Nat × Binding)} (h : Bound lines bs)
    {line : Line} {d : Directive} {binding : Binding} (hd : line.directive = some d)
    (hbinding : Justified d binding) (hbinds : d.kind.binds = true) :
    Bound (lines ++ [line]) (bs ++ [(line.number, binding)]) where
  kinds_eq := by
    have hsome : boundKinds [line] = [(line.number, d.kind)] := by
      simp [boundKinds, hd, hbinds]
    rw [List.map_append, h.kinds_eq, boundKinds, boundKinds, List.filterMap_append]
    rw [boundKinds] at hsome
    rw [hsome, List.map_singleton, hbinding.kind_eq]
  justified other hother e he hbinds := by
    rcases List.mem_append.1 hother with hold | hnew
    · obtain ⟨found, hfound, hjustified⟩ := h.justified other hold e he hbinds
      exact ⟨found, List.mem_append_left _ hfound, hjustified⟩
    · obtain rfl := List.mem_singleton.1 hnew
      obtain rfl := Option.some.inj (hd.symm.trans he)
      exact ⟨binding, List.mem_append_right _ List.mem_cons_self, hbinding⟩
  spelled number reference hmem := by
    rcases List.mem_append.1 hmem with hold | hnew
    · exact h.spelled number reference hold
    · obtain ⟨-, rfl⟩ := Prod.mk.inj (List.mem_singleton.1 hnew)
      exact hbinding.2

/-- What is known of a pass under way. -/
structure Underway (c : ClassUnit) (source : String) (context : ClassName) (seen : List Line)
    (b : Bindings) : Prop where
  ascending : seen.Pairwise fun x y => x.number < y.number
  numbered : ∀ line ∈ seen, line.number ≤ seen.length
  entered : ∃ bs, Bound seen bs ∧ (start context).enterAll c source bs = .ok b

variable {c : ClassUnit} {source : String} {context : ClassName}

theorem underway_start : Underway c source context [] (start context) :=
  ⟨.nil, by simp, [], bound_nil, rfl⟩

theorem Underway.ascending_append {seen : List Line} {b : Bindings}
    (h : Underway c source context seen b) {line : Line} (hline : line.number = seen.length + 1) :
    (seen ++ [line]).Pairwise (fun x y => x.number < y.number) ∧
      ∀ other ∈ seen ++ [line], other.number ≤ (seen ++ [line]).length := by
  constructor
  · rw [List.pairwise_append]
    refine ⟨h.ascending, List.pairwise_singleton _ _, fun other hother last hlast => ?_⟩
    obtain rfl := List.mem_singleton.1 hlast
    have := h.numbered other hother
    omega
  · intro other hother
    rw [List.length_append, List.length_singleton]
    rcases List.mem_append.1 hother with hold | hnew
    · have := h.numbered other hold
      omega
    · obtain rfl := List.mem_singleton.1 hnew
      omega

variable {r : Resolver} {loader : Loader τ}

theorem expectedStop_locate {loader : Loader τ} {stop : Stop} {location : SourceLocation}
    (h : Resolver.ExpectedStop loader stop) :
    Resolver.ExpectedStop loader (Located.locate location stop) := by
  cases stop with
  | failed failure =>
    show (failure.locate location).kind = _ ∨ (failure.locate location).kind = _
    rw [Failure.kind_locate]
    exact h
  | crashed message => exact h

theorem Underway.visit {seen : List Line} {b : Bindings} (h : Underway c source context seen b)
    {line : Line} (hline : line.number = seen.length + 1) :
    (Bindings.visit r c line b).Meets (r.protocol loader) fun result =>
      match result.1 with
      | .ok () => Underway c source context (seen ++ [line]) result.2
      | .error stop =>
        Resolver.ExpectedStop loader (Located.locate ⟨source, line.number⟩ stop) := by
  obtain ⟨hascending, hnumbered⟩ := h.ascending_append hline
  obtain ⟨bs, hbound, hentered⟩ := h.entered
  rw [visit_eq]
  cases hd : line.directive with
  | none =>
    refine Session.meets_pure ⟨hascending, hnumbered, bs, ?_, hentered⟩
    exact hbound.append_unbound fun d he => by rw [hd] at he; cases he
  | some d =>
    refine Session.Meets.bind (bindDirective_delivers (r := r) c d) ?_
    rintro (stop | _ | binding) hresult
    · exact Session.meets_pure (expectedStop_locate hresult)
    · refine Session.meets_pure ⟨hascending, hnumbered, bs, ?_, hentered⟩
      exact hbound.append_unbound fun e he => by
        obtain rfl := Option.some.inj (hd.symm.trans he)
        exact hresult
    · have hbinds : d.kind.binds = true := by
        rw [← hresult.kind_eq]
        cases binding <;> rfl
      have hbound' := hbound.append_bound hd hresult hbinds
      have hready := ready_start context hascending hbound'.kinds_eq
      have happend : (start context).enterAll c source (bs ++ [(line.number, binding)]) =
          b.enterAll c source [(line.number, binding)] := by
        rw [enterAll_append, hentered]
        rfl
      simp only [enterAll] at happend
      refine Session.meets_pure ?_
      simp only [take]
      cases henter : b.enter c line.number binding with
      | ok b' =>
        rw [henter] at happend
        exact ⟨hascending, hnumbered, _, hbound', happend⟩
      | error failure =>
        rw [henter] at happend
        obtain ⟨opening, -, heq⟩ := unmatchedEnd_of_enterAll_error hready rfl happend
        refine expectedStop_locate (.inl ?_)
        rw [← Failure.kind_locate ⟨source, line.number⟩ failure, heq, Failure.kind_locate]
        rfl

/-- An end's reference is fit for the rewriting once everything is entered. -/
theorem serves_closing {lines : List Line} {bs : List (Nat × Binding)} {b : Bindings}
    {table : List (Nat × Resolved)} (hbound : Bound lines bs)
    (hentered : Entered c (start context) b bs table) {line : Nat}
    {reference : Reference .method} (hmem : (line, .closing reference) ∈ bs) :
    b.glue.Reaches c reference ∧
      ∃ types, Descriptor.parameterTypes reference.descriptor.toList = .ok types := by
  constructor
  · rw [hentered.glue_eq]
    exact (GlueFields.reaches_of_mem _).1 reference (List.mem_map.2 ⟨_, hmem, rfl⟩)
  · obtain ⟨signature, parsed, hparsed, -, hdescriptor⟩ := hbound.spelled line reference hmem
    rw [hdescriptor]
    exact Descriptor.parameterTypes_of_parse hparsed

theorem Underway.finish {lines : List Line} {b : Bindings}
    (h : Underway c source context lines b) :
    match b.finish source c with
    | .ok resolution => resolution.Prepared lines
    | .error failure => failure.kind = .declaration := by
  obtain ⟨bs, hbound, hall⟩ := h.entered
  cases hlast : b.begun.getLast? with
  | some line =>
    simp only [Bindings.finish, hlast]
    rfl
  | none =>
    simp only [Bindings.finish, hlast]
    have hready := ready_start context h.ascending hbound.kinds_eq
    obtain ⟨table, hnested, hentered⟩ := nested_of_enterAll_ok hready rfl hall
      (List.getLast?_eq_none_iff.1 hlast)
    have htable : b.lines.toList = table := by simpa [start] using hentered.lines_eq
    refine ⟨hentered.ordered, fun line hline d hd hbinds => ?_⟩
    obtain ⟨binding, hmem, hjustified⟩ := hbound.justified line hline d hd hbinds
    obtain ⟨resolved, hentry, hstands⟩ := hnested.exists_entry hmem
    refine ⟨resolved, hentered.ordered.get?_eq_some_iff.2 (htable ▸ hentry), ?_⟩
    unfold Resolution.Serves
    cases binding with
    | opening =>
      obtain ⟨closing, reference, hclosing, rfl⟩ := hstands
      obtain ⟨hkind, hpending⟩ := hjustified
      rw [hkind]
      exact ⟨(serves_closing hbound hentered hclosing).1, hpending⟩
    | closing reference =>
      obtain rfl : resolved = .invocation reference := hstands
      rw [hjustified.1]
      exact (serves_closing hbound hentered hmem).2
    | fieldRead reference =>
      obtain rfl : resolved = .fieldRead reference := hstands
      rw [show d.kind = .readField from hjustified]
      show b.glue.Reaches c reference
      rw [hentered.glue_eq]
      exact (GlueFields.reaches_of_mem _).2 reference (List.mem_map.2 ⟨_, hmem, rfl⟩)
    | classOf owner =>
      obtain rfl : resolved = .classOf owner := hstands
      rw [show d.kind = .classOf from hjustified]
      trivial

end Bindings

/-- A line that holds text is at fault only for what is written there. -/
theorem Line.kind_of_read_error {number : Nat} {text : String} {failure : Failure}
    (h : Line.read number (.ok text) = .error failure) : failure.kind = .declaration := by
  unfold Line.read at h
  simp only at h
  split at h
  · obtain rfl := Except.error.inj h
    rfl
  · cases h

/-- Whatever the common store is, the input opens, and its lines are the same. -/
def Source.Opens [CommonStore σ τ] (s : Source σ) (texts : List String)
    (Q : Source σ → Prop) : Prop :=
  ∀ common : τ, ∃ opened,
    { s with store := CommonStore.withCommon common s.store }.startInput = (.ok (), opened) ∧
      opened.unread = texts.map .ok ∧ Q opened.releaseInput

/-- A source whose input opens resolves within the protocol, and leaves the rewriting
prepared or stops as expected. -/
theorem Source.resolve_delivers [CommonStore σ τ] {s : Source σ} {texts : List String}
    {Q : Source σ → Prop} (hopens : s.Opens texts Q) (c : ClassUnit) (r : Resolver)
    (loader : Loader τ) (context : ClassName) :
    (s.resolve c r context).Meets (r.protocol loader) fun result =>
      Q result.2 ∧
      match result.1 with
      | .ok resolution => ∃ lines, readLines s.name 1 (texts.map .ok) = .ok lines ∧
          resolution.declared = c ∧ resolution.Prepared lines
      | .error stop => Resolver.ExpectedStop loader stop := by
  unfold resolve
  refine Session.meets_bind_iff.2 (Session.meets_inTurn (fun _ => trivial) fun common => ?_)
  obtain ⟨opened, hstart, hunread, hQ⟩ := hopens common
  have hname : opened.name = s.name := by
    have := name_startInput { s with store := CommonStore.withCommon common s.store }
    rwa [hstart] at this
  rw [hstart, visitStarted_reading, hname, hunread, bind_assoc]
  -- every line leaves the pass under way, or stops it as expected
  have hpass := visitLines_spec (Judgement.underProtocol (r.protocol loader)) s.name
    (Bindings.visit r c) (texts.map .ok) (Bindings.Underway c s.name context)
    (fun stop _ => Resolver.ExpectedStop loader stop)
    (fun seen text line b _ hread hinv => ?_) (fun seen text failure b htext hread _ => ?_)
    Bindings.underway_start
  · refine Session.Meets.bind hpass ?_
    rintro ⟨stop | done, b⟩ hresult
    · exact Session.meets_pure ⟨hQ, hresult⟩
    · obtain ⟨lines, hlines, hunderway⟩ := hresult
      have hfinish := hunderway.finish
      have hdeclared : ∀ resolution, b.finish s.name c = .ok resolution →
          resolution.declared = c := by
        intro resolution hok
        unfold Bindings.finish at hok
        split at hok
        · cases hok
        · obtain rfl := Except.ok.inj hok
          rfl
      refine Session.meets_pure ⟨hQ, ?_⟩
      simp only [name_releaseInput, hname]
      cases hend : b.finish s.name c with
      | ok resolution =>
        rw [hend] at hfinish
        exact ⟨lines, hlines, hdeclared resolution hend, hfinish⟩
      | error failure =>
        rw [hend] at hfinish
        exact .inl hfinish
  · refine Session.Meets.mono (hinv.visit (Line.number_of_read hread)) ?_
    rintro ⟨stop | done, b⟩ hresult
    · exact hresult
    · exact hresult
  · obtain ⟨written, -, rfl⟩ := List.mem_map.1 (List.mem_of_getElem? htext)
    exact Bindings.expectedStop_locate (.inl (Line.kind_of_read_error hread))

end UnitLink
