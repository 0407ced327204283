import UnitLink.Proofs.Congruences
import UnitLink.Proofs.Lookups
/-! Where a loader's answer to a name never changes, tasks cannot tell what others have looked
up before them: what a shared cache holds is what a task would find by itself. A lookup, a
resolution and the whole task of a source then come to one value, in every interleaving. -/
namespace UnitLink

theorem Loader.eq_found_of_supplies {τ : Type} {load : ClassName → LoadAnswer} {size : Nat}
    {name : ClassName} {c : ClassUnit}
    (h : (Loader.fixed load size : Loader τ).Supplies name c) : load name = .found c := by
  obtain ⟨_, hload⟩ := h
  exact hload

namespace Resolver

open Session (Settled settled_pure settled_run_bind)

variable {τ α β : Type} {r : Resolver} {load : ClassName → LoadAnswer} {size : Nat}

theorem meets_access_bind {P : Protocol τ} {op : SharedOp τ} {f : op.Answer → Resolving τ β}
    {post : Except Stop β → Prop} (hasks : P.asks op)
    (h : ∀ answer, P.answers op answer → (f answer).run.Meets P post) :
    (access op >>= f).run.Meets P post :=
  Session.meets_run_bind ⟨hasks, fun answer hanswer => h answer hanswer⟩

/-- A class that is in the cache by now is the one that the loader answers with. -/
theorem cached_of_not_preloaded {name : ClassName} (hpre : r.preloaded name = none)
    {answer : Option ClassUnit}
    (h : (r.protocol (.fixed load size : Loader τ)).answers (.loaded name) answer) :
    answer = none ∨ ∃ c, load name = .found c ∧ answer = some c := by
  rcases h with rfl | ⟨-, c, hsupplies, rfl⟩
  · exact .inl hpre
  · exact .inr ⟨c, Loader.eq_found_of_supplies hsupplies, rfl⟩

theorem not_cached_of_not_found {name : ClassName} (hpre : r.preloaded name = none)
    (hload : ∀ c, load name ≠ .found c) {answer : Option ClassUnit}
    (h : (r.protocol (.fixed load size : Loader τ)).answers (.loaded name) answer) :
    answer = none := by
  rcases cached_of_not_preloaded hpre h with hnone | ⟨c, hfound, -⟩
  · exact hnone
  · exact absurd hfound (hload c)

theorem lookup_settled (name : ClassName) :
    (r.lookup name : Resolving τ _).run.Settled (r.protocol (.fixed load size)) := by
  unfold lookup
  split
  · exact settled_pure _
  cases hpre : r.preloaded name with
  | some c =>
    refine ⟨.ok (.ok c), meets_access_bind trivial ?_⟩
    rintro answer (rfl | ⟨hnone, -⟩)
    · rw [hpre]
      exact Session.meets_pure rfl
    · rw [hpre] at hnone
      cases hnone
  | none =>
    cases hload : load name with
    | found c =>
      refine ⟨.ok (.ok c), meets_access_bind trivial fun answer hanswer => ?_⟩
      rcases cached_of_not_preloaded hpre hanswer with rfl | ⟨entered, hentered, rfl⟩
      · refine meets_access_bind trivial ?_
        rintro _ ⟨common, rfl⟩
        simp only [Loader.fixed, hload]
        refine meets_access_bind ⟨hpre, common, hload⟩ fun kept hkept => ?_
        obtain rfl : c = kept :=
          LoadAnswer.found.inj (hload.symm.trans (Loader.eq_found_of_supplies hkept))
        exact Session.meets_pure rfl
      · obtain rfl := LoadAnswer.found.inj (hload.symm.trans hentered)
        exact Session.meets_pure rfl
    | refused fault =>
      refine ⟨.ok (.error fault), meets_access_bind trivial fun answer hanswer => ?_⟩
      obtain rfl := not_cached_of_not_found hpre (by simp [hload]) hanswer
      refine meets_access_bind trivial ?_
      rintro _ ⟨common, rfl⟩
      simp only [Loader.fixed, hload]
      exact Session.meets_pure rfl
    | crashed message =>
      refine ⟨.error (.crashed message), meets_access_bind trivial fun answer hanswer => ?_⟩
      obtain rfl := not_cached_of_not_found hpre (by simp [hload]) hanswer
      refine meets_access_bind trivial ?_
      rintro _ ⟨common, rfl⟩
      simp only [Loader.fixed, hload]
      exact Session.meets_pure rfl

theorem settled_composes (P : Protocol τ) :
    Composes fun {α} (x : Resolving τ α) => x.run.Settled P where
  pure _ := settled_pure _
  bind h hf := settled_run_bind h hf

theorem findInherited_settled (c : ClassUnit) (find : ClassUnit → Option α) :
    (r.findInherited c find : Resolving τ _).run.Settled (r.protocol (.fixed load size)) :=
  (settled_composes _).findInherited lookup_settled c find

theorem namedClass_settled (owner : ClassName) (referrer : ClassUnit) (signature : String) :
    (r.namedClass owner referrer signature : Resolving τ _).run.Settled
      (r.protocol (.fixed load size)) := by
  unfold namedClass
  split
  · exact settled_pure _
  · refine settled_run_bind (lookup_settled owner) ?_
    rintro (fault | c)
    · exact settled_pure _
    · exact settled_pure _

variable {kind : MemberKind}

theorem resolveQualified_settled (signature : String) (parsed : Signature) (owner : ClassName)
    (referrer : ClassUnit) :
    (r.resolveQualified signature parsed owner referrer :
      Resolving τ (Reference kind)).run.Settled (r.protocol (.fixed load size)) := by
  unfold resolveQualified
  refine settled_run_bind (namedClass_settled owner referrer signature) fun c => ?_
  refine settled_run_bind (findInherited_settled c _) ?_
  rintro (_ | found)
  · exact settled_pure _
  · exact settled_pure _

/-- What is remembered of a signature is what it resolves to now. -/
theorem resolveUnqualified_settled {signature : String} {parsed : Signature}
    (hparsed : Signature.parse kind signature = .ok parsed) :
    (r.resolveUnqualified signature parsed : Resolving τ (Reference kind)).run.Settled
      (r.protocol (.fixed load size)) := by
  have hknown : ∀ answer, (r.protocol (.fixed load size : Loader τ)).answers
      (.known kind signature) answer → answer = none ∨
        ∃ reference, r.unqualified? kind parsed = some reference ∧ answer = some reference := by
    rintro (_ | reference) hanswer
    · exact .inl rfl
    · obtain ⟨parsed', hparsed', hfound⟩ := hanswer reference rfl
      obtain rfl := Except.ok.inj (hparsed.symm.trans hparsed')
      exact .inr ⟨reference, hfound, rfl⟩
  unfold resolveUnqualified
  cases hfound : r.unqualified? kind parsed with
  | none =>
    refine ⟨.error (.failed (.resolution (.noPublicMember signature))),
      meets_access_bind trivial fun answer hanswer => ?_⟩
    rcases hknown answer hanswer with rfl | ⟨reference, hsome, -⟩
    · exact Session.meets_pure rfl
    · rw [hfound] at hsome
      cases hsome
  | some reference =>
    refine ⟨.ok reference, meets_access_bind trivial fun answer hanswer => ?_⟩
    rcases hknown answer hanswer with rfl | ⟨entered, hsome, rfl⟩
    · exact meets_access_bind ⟨parsed, hparsed, hfound⟩ fun _ _ => Session.meets_pure rfl
    · obtain rfl := Option.some.inj (hfound.symm.trans hsome)
      exact Session.meets_pure rfl

theorem resolve_settled (signature : String) (referrer : ClassUnit) :
    (r.resolve kind signature referrer : Resolving τ _).run.Settled
      (r.protocol (.fixed load size)) := by
  unfold resolve parse
  cases hparsed : Signature.parse kind signature with
  | error fault => exact settled_pure _
  | ok parsed =>
    simp only [pure_bind]
    cases parsed.owner with
    | some owner => exact resolveQualified_settled signature parsed _ referrer
    | none => exact resolveUnqualified_settled hparsed

end Resolver

/-- The relation of sessions of which the first is settled. -/
def Congruence.settled {τ : Type} (P : Protocol τ) : Congruence τ where
  related s _ := s.Settled P
  related_pure := Session.settled_pure
  related_bind := Session.Settled.bind

theorem Congruence.resolves_settled {τ : Type} (r : Resolver) (load : ClassName → LoadAnswer)
    (size : Nat) : (settled (r.protocol (.fixed load size : Loader τ))).Resolves r r :=
  fun _ => Resolver.resolve_settled

namespace Bindings

open Session (Settled)

variable {τ : Type} {r : Resolver} {load : ClassName → LoadAnswer} {size : Nat}

theorem declaration_settled {α : Type} {P : Protocol τ} (read : Except DirectiveFault α) :
    (resolve.declaration read : Resolver.Resolving τ α).run.Settled P :=
  (Congruence.settled P).declaration_related read

theorem resolve_settled (c : ClassUnit) (kind : MemberKind) (d : Directive) :
    (resolve r c kind d : Resolver.Resolving τ _).run.Settled (r.protocol (.fixed load size)) :=
  (Congruence.settled _).resolve_related (Congruence.resolves_settled r load size) c kind d

theorem bindDirective_settled (c : ClassUnit) (d : Directive) :
    (bindDirective r c d : Resolver.Resolving τ _).run.Settled
      (r.protocol (.fixed load size)) :=
  (Congruence.settled _).bindDirective_related (Congruence.resolves_settled r load size) c d

end Bindings

theorem Source.link_settled {σ : Type} [CommonStore σ Unit] {load : ClassName → LoadAnswer}
    {size : Nat} (s : Source σ) (c : ClassUnit) (r : Resolver) (context : ClassName) :
    (s.link c r context).Settled (r.protocol (.fixed load size)) :=
  (Congruence.settled _).source_link_related (fun _ => ⟨(), trivial, fun _ _ => rfl⟩)
    (Congruence.resolves_settled r load size) s c context

end UnitLink
