import UnitLink.Link
import UnitLink.Proofs.Passes
/-! The task of a source with one resolver beside the same task with another. What a task asks of
its resolver are signatures, and all else that it does is the same with both. So a relation of
sessions that their parts hand on to the whole holds of the tasks if it holds of the resolutions
of signatures. -/
namespace UnitLink

variable {τ : Type}

/-- A relation that sessions stand in when their parts do. -/
structure Congruence (τ : Type) where
  related : {α : Type} → Session τ α → Session τ α → Prop
  related_pure : ∀ {α : Type} (value : α), related (pure value) (pure value)
  related_bind : ∀ {α β : Type} {s s' : Session τ α} {f f' : α → Session τ β}, related s s' →
    (∀ value, related (f value) (f' value)) → related (s >>= f) (s' >>= f')

namespace Congruence

open Resolver (Resolving)

variable (Q : Congruence τ) {α β : Type}

/-- Any signature is resolved alike. -/
def Resolves (r r' : Resolver) : Prop :=
  ∀ (kind : MemberKind) signature referrer,
    Q.related (r.resolve kind signature referrer).run (r'.resolve kind signature referrer).run

/-- Turns with the common store are taken alike. -/
def TakesTurns : Prop :=
  ∀ update : τ → τ,
    Q.related (Session.access (.exchange update)) (Session.access (.exchange update))

theorem related_run_bind {x x' : Resolving τ α} {f f' : α → Resolving τ β}
    (h : Q.related x.run x'.run) (hf : ∀ value, Q.related (f value).run (f' value).run) :
    Q.related (x >>= f).run (x' >>= f').run := by
  rw [ExceptT.run_bind, ExceptT.run_bind]
  apply Q.related_bind h
  rintro (stop | value)
  · exact Q.related_pure _
  · exact hf value

section Lines

variable {r r' : Resolver} (hresolves : Q.Resolves r r')

theorem declaration_related (read : Except DirectiveFault α) :
    Q.related (Bindings.resolve.declaration read : Resolving τ α).run
      (Bindings.resolve.declaration read : Resolving τ α).run := by
  cases read with
  | error fault => exact Q.related_pure _
  | ok value => exact Q.related_pure _

include hresolves

theorem resolve_related (c : ClassUnit) (kind : MemberKind) (d : Directive) :
    Q.related (Bindings.resolve r c kind d : Resolving τ _).run
      (Bindings.resolve r' c kind d).run := by
  unfold Bindings.resolve
  apply Q.related_run_bind (Q.declaration_related _)
  intro signature
  apply Q.related_run_bind (Q.declaration_related _)
  intro isLocal
  split
  · split
    · exact Q.related_pure _
    · exact Q.related_pure _
  · exact hresolves kind signature c

theorem bindDirective_related (c : ClassUnit) (d : Directive) :
    Q.related (Bindings.bindDirective r c d : Resolving τ _).run
      (Bindings.bindDirective r' c d).run := by
  have hbound : ∀ {value : Option Binding},
      Q.related (pure value : Resolving τ _).run (pure value : Resolving τ _).run :=
    Q.related_pure _
  unfold Bindings.bindDirective
  cases d.kind with
  | classHeader | field | method | glueFields | glueInit => exact hbound
  | invokeBegin => exact Q.related_run_bind (Q.declaration_related _) fun _ => hbound
  | invokeEnd => exact Q.related_run_bind (Q.resolve_related hresolves c _ d) fun _ => hbound
  | readField => exact Q.related_run_bind (Q.resolve_related hresolves c _ d) fun _ => hbound
  | classOf =>
    apply Q.related_run_bind (Q.declaration_related _)
    intro signature
    exact Q.related_run_bind (hresolves _ signature c) fun _ => hbound

theorem visit_related (c : ClassUnit) (line : Line) (b : Bindings) :
    Q.related (Bindings.visit r c line b) (Bindings.visit r' c line b) := by
  unfold Bindings.visit
  split
  · exact Q.related_pure _
  · rename_i d _
    have hdirective : Q.related (Bindings.visitDirective r c line.number d b).run
        (Bindings.visitDirective r' c line.number d b).run := by
      unfold Bindings.visitDirective
      apply Q.related_run_bind (Q.bindDirective_related hresolves c d)
      rintro (_ | binding)
      · exact Q.related_pure _
      · simp only
        split
        · exact Q.related_pure _
        · exact Q.related_pure _
    apply Q.related_bind hdirective
    rintro (stop | after)
    · exact Q.related_pure _
    · exact Q.related_pure _

end Lines

theorem visitLines_related {ε : Type} [Located ε] (source : String)
    {visit visit' : Line → α → Session τ (Except ε Unit × α)}
    (h : ∀ line state, Q.related (visit line state) (visit' line state)) (number : Nat)
    (lines : List (Except SystemFault String)) (state : α) :
    Q.related (visitLines source visit number lines state)
      (visitLines source visit' number lines state) := by
  induction lines generalizing number state with
  | nil => exact Q.related_pure _
  | cons text lines ih =>
    unfold visitLines
    split
    · exact Q.related_pure _
    · apply Q.related_bind (h _ state)
      rintro ⟨e | done, after⟩
      · exact Q.related_pure _
      · exact ih (number + 1) after

section Sources

variable {σ : Type} [CommonStore σ τ] (hturns : Q.TakesTurns)

include hturns

theorem inTurn_related (s : Source σ) (act : Source σ → α × Source σ) :
    Q.related (s.inTurn act) (s.inTurn act) :=
  Q.related_bind (hturns _) fun _ => Q.related_pure _

variable {r r' : Resolver} (hresolves : Q.Resolves r r')

include hresolves

theorem source_resolve_related (s : Source σ) (c : ClassUnit) (context : ClassName) :
    Q.related (s.resolve c r context) (s.resolve c r' context) := by
  unfold Source.resolve
  apply Q.related_bind (Q.inTurn_related hturns s Source.startInput)
  rintro ⟨failure | done, opened⟩
  · exact Q.related_pure _
  · rw [Source.visitStarted_reading, Source.visitStarted_reading, bind_assoc, bind_assoc]
    apply Q.related_bind (Q.visitLines_related _ (Q.visit_related hresolves c) 1 _ _)
    rintro ⟨stop | done, b⟩
    · exact Q.related_pure _
    · exact Q.related_pure _

theorem source_link_related (s : Source σ) (c : ClassUnit) (context : ClassName) :
    Q.related (s.link c r context) (s.link c r' context) := by
  unfold Source.link
  apply Q.related_bind (Q.source_resolve_related hturns hresolves s c context)
  rintro ⟨(failure | message) | resolution, resolved⟩
  · exact Q.related_pure _
  · exact Q.related_pure _
  · apply Q.related_bind (Q.inTurn_related hturns resolved _)
    rintro ⟨failure | done, rewritten⟩
    · exact Q.related_pure _
    · apply Q.related_bind (Q.inTurn_related hturns rewritten Source.close)
      rintro ⟨failure | done, closed⟩
      · exact Q.related_pure _
      · exact Q.related_pure _

end Sources
end Congruence
end UnitLink
