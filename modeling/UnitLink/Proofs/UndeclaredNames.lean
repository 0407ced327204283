import UnitLink.Proofs.CoherentLookups
/-! Names that no source declares. They are all that a resolver asks the loader about and keeps
classes under, in every run of sessions that make its calls; so it makes no difference what the
loader would answer about others. -/
namespace UnitLink

variable {τ α β : Type}

/-! ### Runs of sessions that keep to a protocol -/

namespace UnderWay

open Session (Keeps)

variable {P : Protocol τ} {loader loader' : Loader τ} {Inv : Shared τ → Prop} {u : UnderWay τ α}
  {items : List β} {post : β → α → Prop}

theorem meets_turn (hkeeps : Keeps P loader Inv)
    (h : List.Forall₂ (fun s x => s.Meets P (post x)) u.sessions items) (hshared : Inv u.shared)
    (i : Nat) :
    List.Forall₂ (fun s x => s.Meets P (post x)) (u.turn loader i).sessions items ∧
      Inv (u.turn loader i).shared ∧ ∀ a, u.access? loader i = some a → P.asks a.op := by
  unfold turn access?
  cases hsession : u.sessions[i]? with
  | none => exact ⟨h, hshared, by rintro a ⟨⟩⟩
  | some session =>
    obtain ⟨x, hx, hmeets⟩ := Session.exists_of_getElem? h hsession
    obtain ⟨hstep, hinv⟩ := hmeets.step hkeeps hshared
    refine ⟨Session.forall₂_set h fun y hy => ?_, hinv, ?_⟩
    · obtain rfl := Option.some.inj (hx.symm.trans hy)
      exact hstep
    · cases session with
      | done value => rintro a ⟨⟩
      | ask op next =>
        rintro a ⟨⟩
        exact hmeets.1

/-- In every run the sessions stay with the protocol, and what is shared keeps its invariant. -/
theorem meets_run (hkeeps : Keeps P loader Inv)
    (h : List.Forall₂ (fun s x => s.Meets P (post x)) u.sessions items) (hshared : Inv u.shared)
    (schedule : List Nat) :
    List.Forall₂ (fun s x => s.Meets P (post x)) (u.run loader schedule).sessions items ∧
      Inv (u.run loader schedule).shared ∧ ∀ a ∈ u.accesses loader schedule, P.asks a.op := by
  induction schedule generalizing u with
  | nil => exact ⟨h, hshared, by simp [accesses]⟩
  | cons i schedule ih =>
    obtain ⟨hturn, hinv, haccess⟩ := meets_turn hkeeps h hshared i
    obtain ⟨hrun, hinv, haccesses⟩ := ih hturn hinv
    refine ⟨hrun, hinv, fun a ha => ?_⟩
    rw [accesses, List.mem_append, Option.mem_toList] at ha
    rcases ha with ha | ha
    · exact haccess a ha
    · exact haccesses a ha

theorem post_of_done (h : List.Forall₂ (fun s x => s.Meets P (post x)) u.sessions items) {i : Nat}
    {x : β} {value : α} (hx : items[i]? = some x) (hdone : u.sessions[i]? = some (.done value)) :
    post x value := by
  obtain ⟨y, hy, hmeets⟩ := Session.exists_of_getElem? h hdone
  obtain rfl := Option.some.inj (hx.symm.trans hy)
  exact hmeets

theorem turn_congr {i : Nat}
    (h : ∀ a, u.access? loader i = some a → ∀ shared : Shared τ,
      shared.access loader' a.op = shared.access loader a.op) :
    u.turn loader' i = u.turn loader i := by
  unfold turn
  unfold access? at h
  cases hsession : u.sessions[i]? with
  | none => rfl
  | some session =>
    cases session with
    | done value => rfl
    | ask op next =>
      rw [hsession] at h
      have hsame := h _ rfl u.shared
      simp only [Session.step, hsame]

/-- A run makes no difference between loaders that answer alike what is asked in it. -/
theorem run_congr {schedule : List Nat}
    (h : ∀ a ∈ u.accesses loader schedule, ∀ shared : Shared τ,
      shared.access loader' a.op = shared.access loader a.op) :
    u.run loader' schedule = u.run loader schedule := by
  induction schedule generalizing u with
  | nil => rfl
  | cons i schedule ih =>
    rw [accesses] at h
    have hturn : u.turn loader' i = u.turn loader i :=
      turn_congr fun a ha => h a (List.mem_append_left _ (Option.mem_toList.2 ha))
    rw [run_cons, run_cons, hturn]
    exact ih fun a ha => h a (List.mem_append_right _ ha)

end UnderWay

theorem Shared.access_congr {loader loader' : Loader τ} {op : SharedOp τ}
    (h : ∀ name, op.className? = some name → loader'.load name = loader.load name)
    (shared : Shared τ) : shared.access loader' op = shared.access loader op := by
  cases op with
  | load name => simp only [access, h name rfl]
  | loaded | keep | known | remember | exchange => rfl

namespace Resolver

variable {r : Resolver} {loader : Loader τ} {discovered : List Discovered}
  {libraries : List ClassUnit} {unresolved : Option ClassName}

/-! ### Nobody asks for a declared name -/

/-- Accesses to the classes of other names than the sources declare, whatever the answers. -/
def undeclaredOnly (discovered : List Discovered) : Protocol τ where
  asks op := ∀ name, op.className? = some name → Undeclared discovered name
  answers _ _ := True

/-- No class is kept under a name that a source declares. -/
def KeepsUndeclared (discovered : List Discovered) (shared : Shared τ) : Prop :=
  ∀ name c, shared.caches.classes.lookup name = some c → Undeclared discovered name

theorem undeclaredOnly_keeps (discovered : List Discovered) (loader : Loader τ) :
    Session.Keeps (undeclaredOnly discovered) loader (KeepsUndeclared discovered) := by
  intro shared op h hasks
  refine ⟨trivial, ?_⟩
  cases op with
  | keep name c =>
    intro other d hd
    simp only [Shared.access, Caches.lookup_keep] at hd
    split at hd
    · rename_i heq
      exact heq ▸ hasks name rfl
    · exact h other d hd
  | remember kind signature reference =>
    cases kind with
    | method => exact h
    | field => exact h
  | loaded | load | known | exchange => exact h

theorem keepsUndeclared_start (hbuild : build discovered libraries unresolved loader = .ok r)
    (common : τ) : KeepsUndeclared discovered ⟨r.caches, common⟩ := by
  intro name c hc
  obtain ⟨hmem, rfl⟩ := of_preloaded hc
  exact (jobClass?_eq_none_iff hbuild).1 (jobClass?_eq_none_of_mem hbuild hmem)

theorem meets_composes (P : Protocol τ) :
    Composes fun {_} (x : Resolving τ _) => x.run.Meets P fun _ => True where
  pure _ := trivial
  bind h hf := by
    refine Session.meets_run_bind (h.mono ?_)
    rintro (stop | value) -
    · trivial
    · exact hf value

section Asking

variable (hbuild : build discovered libraries unresolved loader = .ok r)

include hbuild

theorem lookup_asks (name : ClassName) :
    (r.lookup name : Resolving τ _).run.Meets (undeclaredOnly discovered) fun _ => True := by
  unfold lookup
  cases hjob : r.jobClass? name with
  | some c => exact trivial
  | none =>
    have hundeclared := (jobClass?_eq_none_iff hbuild).1 hjob
    have hasks : ∀ other, some name = some other → Undeclared discovered other := by
      rintro _ ⟨⟩
      exact hundeclared
    refine meets_access_bind hasks ?_
    rintro (_ | c) -
    · refine meets_access_bind hasks ?_
      rintro (c | fault | message) -
      · exact meets_access_bind hasks fun _ _ => trivial
      · exact trivial
      · exact trivial
    · exact trivial

theorem resolve_asks {kind : MemberKind} (signature : String) (referrer : ClassUnit) :
    (r.resolve kind signature referrer : Resolving τ _).run.Meets (undeclaredOnly discovered)
      fun _ => True := by
  have hcomposes := meets_composes (undeclaredOnly (τ := τ) discovered)
  have hlookup := lookup_asks (τ := τ) hbuild
  have hnothing : ∀ {op : SharedOp τ}, op.className? = none →
      (undeclaredOnly discovered).asks op := by
    intro op hop name hname
    cases hop.symm.trans hname
  unfold resolve parse
  cases hparsed : Signature.parse kind signature with
  | error fault => exact trivial
  | ok parsed =>
    simp only [pure_bind]
    cases parsed.owner with
    | some written =>
      unfold resolveQualified namedClass
      refine hcomposes.bind ?_ fun c => hcomposes.bind (hcomposes.findInherited hlookup c _) ?_
      · split
        · exact trivial
        · refine hcomposes.bind (hlookup _) ?_
          rintro (fault | c) <;> exact trivial
      · rintro (_ | found) <;> exact trivial
    | none =>
      refine meets_access_bind (hnothing rfl) ?_
      rintro (_ | reference) -
      · cases r.unqualified? kind parsed with
        | none => exact trivial
        | some reference => exact meets_access_bind (hnothing rfl) fun _ _ => trivial
      · exact trivial

end Asking

end Resolver
end UnitLink
