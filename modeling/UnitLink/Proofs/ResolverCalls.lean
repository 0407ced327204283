import UnitLink.Proofs.Settling
/-! Calls of a shared resolver. Threads look classes up and resolve signatures, each as many
times as it likes, and the accesses of their calls to the caches and the loader come in any
order. Where the loader's answer to a name never changes, every call is answered as it would be
had nobody asked the resolver anything before. -/
namespace UnitLink

/-- What a resolver can be asked. -/
inductive ResolverCall where
  | lookup (name : ClassName)
  | resolve (kind : MemberKind) (signature : String) (referrer : ClassUnit)
  | resolveLocal (kind : MemberKind) (signature : String) (referrer : ClassUnit)

inductive ResolverAnswer where
  | lookup (found : Except LookupFault ClassUnit)
  | reference {kind : MemberKind} (resolved : Reference kind)

namespace ResolverCall

open Resolver (Resolving)
open Session (Settled settled_pure settled_run_bind)

variable {τ : Type}

def ask (r : Resolver) : ResolverCall → Resolving τ ResolverAnswer
  | lookup name => do
    let found ← r.lookup name
    return .lookup found
  | resolve kind signature referrer => do
    let reference ← r.resolve kind signature referrer
    return .reference reference
  | resolveLocal kind signature referrer =>
    match Resolver.resolveLocal kind signature referrer with
    | .ok reference => return .reference reference
    | .error failure => Resolver.fail failure

/-- Makes calls one after the other. One that is stopped leaves the others to be made. -/
def askEach (r : Resolver) : List ResolverCall → Session τ (List (Except Stop ResolverAnswer))
  | [] => return []
  | call :: calls => do
    let first ← (call.ask r).run
    let others ← askEach r calls
    return first :: others

/-- The answer of a resolver that has not been asked anything. -/
def whenFresh (r : Resolver) (loader : Loader τ) (common : τ) (call : ResolverCall) :
    Except Stop ResolverAnswer :=
  ((call.ask r).run.run loader ⟨r.caches, common⟩).1

variable (r : Resolver) (load : ClassName → LoadAnswer) (size : Nat)

theorem ask_settled (call : ResolverCall) :
    (call.ask r : Resolving τ _).run.Settled (r.protocol (.fixed load size)) := by
  cases call with
  | lookup name => exact settled_run_bind (Resolver.lookup_settled name) fun _ => settled_pure _
  | resolve kind signature referrer =>
    exact settled_run_bind (Resolver.resolve_settled signature referrer) fun _ => settled_pure _
  | resolveLocal kind signature referrer =>
    simp only [ask]
    cases Resolver.resolveLocal kind signature referrer with
    | ok reference => exact settled_pure _
    | error failure => exact settled_pure _

/-- Within the protocol a call has one answer, and it is that of the fresh caches. -/
theorem ask_meets_whenFresh (common : τ) (call : ResolverCall) :
    (call.ask r : Resolving τ _).run.Meets (r.protocol (.fixed load size)) fun answer =>
      answer = call.whenFresh r (.fixed load size) common := by
  obtain ⟨result, hresult⟩ := ask_settled (τ := τ) r load size call
  have hfresh := (hresult.run (r.protocol_keeps (.fixed load size))
    (r.faithful_start (.fixed load size) common)).1
  rw [whenFresh, hfresh]
  exact hresult

theorem askEach_meets {P : Protocol τ} {calls : List ResolverCall}
    {post : ResolverCall → Except Stop ResolverAnswer → Prop}
    (h : ∀ call ∈ calls, (call.ask r : Resolving τ _).run.Meets P (post call)) :
    (askEach r calls : Session τ _).Meets P fun answers =>
      List.Forall₂ (fun answer call => post call answer) answers calls := by
  induction calls with
  | nil => exact Session.meets_pure .nil
  | cons call calls ih =>
    obtain ⟨hfirst, hothers⟩ := List.forall_mem_cons.1 h
    refine Session.Meets.bind hfirst fun first hanswer => ?_
    refine Session.Meets.bind (ih hothers) fun others hanswers => ?_
    exact Session.meets_pure (.cons hanswer hanswers)

theorem askEach_meets_whenFresh (common : τ) (calls : List ResolverCall) :
    (askEach r calls : Session τ _).Meets (r.protocol (.fixed load size)) fun answers =>
      answers = calls.map (whenFresh r (.fixed load size) common) := by
  refine (askEach_meets r fun call _ => ask_meets_whenFresh r load size common call).mono ?_
  intro answers hanswers
  rwa [← List.forall₂_eq_eq_eq, List.forall₂_map_right_iff]

/-- However the accesses of the threads interleave, each call of each thread is answered as if
it were the first that the resolver gets. -/
theorem interleaved_calls_answered_as_fresh (schedule : List Nat)
    (threads : List (List ResolverCall)) (common before : τ) :
    (Session.interleave (.fixed load size) schedule (threads.map (askEach r))
        ⟨r.caches, before⟩).1 =
      threads.map fun calls => calls.map (whenFresh r (.fixed load size) common) := by
  have hall := Session.meets_interleave_map (r.protocol_keeps (.fixed load size)) schedule
    (fun calls (_ : calls ∈ threads) => askEach_meets_whenFresh r load size common calls)
    ⟨r.caches, before⟩ (r.faithful_start _ before)
  rw [← List.forall₂_eq_eq_eq, List.forall₂_map_right_iff]
  exact hall

end ResolverCall
end UnitLink
