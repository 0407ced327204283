import Mathlib.Data.List.Forall2
import UnitLink.Source.Common
/-! Reasoning about sessions. A session is run against something that answers its accesses:
a loader and the shared store, or those and other sessions that make their accesses in
between.

A protocol says which accesses a session may make and which answers it has to reckon with.
If what is shared has an invariant that every allowed access keeps, and under which the
answers are those of the protocol, then what each session gets to by itself it also gets to
in every interleaving. -/
namespace UnitLink

variable {τ α β γ : Type}

/-- The accesses that a session may make, and the answers that it may get. -/
structure Protocol (τ : Type) where
  asks : SharedOp τ → Prop
  answers : (op : SharedOp τ) → op.Answer → Prop

def Protocol.any : Protocol τ := ⟨fun _ => True, fun _ _ => True⟩

namespace Session

/-! ### Sessions against one answerer -/

/-- Runs a session against something that has a state of its own. -/
def against {S : Type} (answer : S → (op : SharedOp τ) → op.Answer × S) :
    Session τ α → S → α × S
  | done value, state => (value, state)
  | ask op next, state => (next (answer state op).1).against answer (answer state op).2

section Against

variable {S : Type} (answer : S → (op : SharedOp τ) → op.Answer × S)

@[simp] theorem against_pure (value : α) (state : S) :
    (pure value : Session τ α).against answer state = (value, state) := rfl

@[simp] theorem against_bind (s : Session τ α) (f : α → Session τ β) (state : S) :
    (s >>= f).against answer state =
      (f (s.against answer state).1).against answer (s.against answer state).2 := by
  show (s.bind f).against answer state = _
  induction s generalizing state with
  | done => rfl
  | ask op next ih => exact ih _ _

theorem run_eq_against (loader : Loader τ) (s : Session τ α) (shared : Shared τ) :
    s.run loader shared = s.against (fun shared op => shared.access loader op) shared := by
  induction s generalizing shared with
  | done => rfl
  | ask op next ih => exact ih _ _

end Against

/-! ### Sessions under a protocol -/

/-- However it is answered, the session keeps to the protocol and comes to a value with the
property. -/
def Meets (P : Protocol τ) : Session τ α → (α → Prop) → Prop
  | done value, post => post value
  | ask op next, post => P.asks op ∧ ∀ answer, P.answers op answer → (next answer).Meets P post

variable {P : Protocol τ} {post post' : α → Prop}

theorem meets_pure {value : α} (h : post value) : (pure value : Session τ α).Meets P post := h

theorem Meets.mono {s : Session τ α} (h : s.Meets P post)
    (himp : ∀ value, post value → post' value) : s.Meets P post' := by
  induction s with
  | done value => exact himp value h
  | ask op next ih => exact ⟨h.1, fun answer hanswer => ih answer (h.2 answer hanswer)⟩

theorem Meets.and {s : Session τ α} (h : s.Meets P post) (h' : s.Meets P post') :
    s.Meets P fun value => post value ∧ post' value := by
  induction s with
  | done value => exact ⟨h, h'⟩
  | ask op next ih =>
    exact ⟨h.1, fun answer hanswer => ih answer (h.2 answer hanswer) (h'.2 answer hanswer)⟩

theorem meets_bind_iff {s : Session τ α} {f : α → Session τ β} {post : β → Prop} :
    (s >>= f).Meets P post ↔ s.Meets P fun value => (f value).Meets P post := by
  show (s.bind f).Meets P post ↔ _
  induction s with
  | done value => exact Iff.rfl
  | ask op next ih =>
    exact and_congr_right fun _ => forall_congr' fun answer => imp_congr_right fun _ => ih answer

theorem Meets.bind {s : Session τ α} {f : α → Session τ β} {post' : β → Prop}
    (h : s.Meets P post) (hf : ∀ value, post value → (f value).Meets P post') :
    (s >>= f).Meets P post' :=
  meets_bind_iff.2 (h.mono hf)

theorem meets_any (s : Session τ α) : s.Meets Protocol.any fun _ => True := by
  induction s with
  | done => trivial
  | ask op next ih => exact ⟨trivial, fun answer _ => ih answer⟩

/-- What holds whatever the answers are holds against every answerer. -/
theorem Meets.against {S : Type} {s : Session τ α} (h : s.Meets Protocol.any post)
    (answer : S → (op : SharedOp τ) → op.Answer × S) (state : S) :
    post (s.against answer state).1 := by
  induction s generalizing state with
  | done => exact h
  | ask op next ih => exact ih _ (h.2 _ trivial) _

theorem meets_inTurn {σ : Type} [CommonStore σ τ] {s : Source σ} {act : Source σ → α × Source σ}
    {post : α × Source σ → Prop} (hasks : ∀ update, P.asks (.exchange update))
    (h : ∀ common, post (act { s with store := CommonStore.withCommon common s.store })) :
    (s.inTurn act).Meets P post :=
  ⟨hasks _, fun common _ => h common⟩

/-- A session that comes to one value, whichever of the admitted answers it gets. -/
def Settled (P : Protocol τ) (s : Session τ α) : Prop :=
  ∃ result, s.Meets P fun value => value = result

theorem settled_pure (value : α) : (pure value : Session τ α).Settled P := ⟨value, rfl⟩

theorem Settled.bind {s : Session τ α} {f : α → Session τ β} (h : s.Settled P)
    (hf : ∀ value, (f value).Settled P) : (s >>= f).Settled P := by
  obtain ⟨value, hvalue⟩ := h
  obtain ⟨result, hresult⟩ := hf value
  refine ⟨result, Meets.bind hvalue ?_⟩
  rintro _ rfl
  exact hresult

/-- Some answers lead the session to the value. -/
def Yields : Session τ α → α → Prop
  | done value, result => value = result
  | ask _ next, result => ∃ answer, (next answer).Yields result

theorem meets_yields (s : Session τ α) : s.Meets Protocol.any s.Yields := by
  induction s with
  | done value => rfl
  | ask op next ih =>
    exact ⟨trivial, fun answer _ => (ih answer).mono fun value h => ⟨answer, h⟩⟩

/-! ### Sessions that may stop -/

section Stopping

variable {ε : Type} {x : ExceptT ε (Session τ) α} {f : α → ExceptT ε (Session τ) β}

theorem meets_run_bind {post : Except ε β → Prop}
    (h : x.run.Meets P fun result =>
      match result with
      | .ok value => (f value).run.Meets P post
      | .error e => post (.error e)) : (x >>= f).run.Meets P post := by
  rw [ExceptT.run_bind]
  refine Meets.bind h ?_
  rintro (e | value) hresult
  · exact hresult
  · exact hresult

theorem settled_run_bind (h : x.run.Settled P) (hf : ∀ value, (f value).run.Settled P) :
    (x >>= f).run.Settled P := by
  rw [ExceptT.run_bind]
  refine Settled.bind h ?_
  rintro (e | value)
  · exact settled_pure _
  · exact hf value

end Stopping

/-! ### Interleavings -/

theorem forall₂_comp {R : α → β → Prop} {R' : β → γ → Prop} {as : List α} {bs : List β}
    {cs : List γ} (h : List.Forall₂ R as bs) (h' : List.Forall₂ R' bs cs) :
    List.Forall₂ (fun a c => ∃ b, R a b ∧ R' b c) as cs := by
  induction h generalizing cs with
  | nil =>
    cases h'
    exact .nil
  | cons hab _ ih =>
    cases h' with
    | cons hbc hrest => exact .cons ⟨_, hab, hbc⟩ (ih hrest)

section Interleaving

variable {loader : Loader τ} {Inv : Shared τ → Prop}

/-- What is shared keeps an invariant as long as nobody breaks the protocol, and answers as
the protocol says. -/
def Keeps (P : Protocol τ) (loader : Loader τ) (Inv : Shared τ → Prop) : Prop :=
  ∀ shared op, Inv shared → P.asks op →
    P.answers op (shared.access loader op).1 ∧ Inv (shared.access loader op).2

theorem Meets.step (hkeeps : Keeps P loader Inv) {s : Session τ α} (h : s.Meets P post)
    {shared : Shared τ} (hshared : Inv shared) :
    (s.step loader shared).1.Meets P post ∧ Inv (s.step loader shared).2 := by
  cases s with
  | done value => exact ⟨h, hshared⟩
  | ask op next =>
    obtain ⟨hasks, hnext⟩ := h
    obtain ⟨hanswer, hinv⟩ := hkeeps shared op hshared hasks
    exact ⟨hnext _ hanswer, hinv⟩

theorem Meets.run (hkeeps : Keeps P loader Inv) {s : Session τ α} (h : s.Meets P post)
    {shared : Shared τ} (hshared : Inv shared) :
    post (s.run loader shared).1 ∧ Inv (s.run loader shared).2 := by
  induction s generalizing shared with
  | done value => exact ⟨h, hshared⟩
  | ask op next ih =>
    obtain ⟨hasks, hnext⟩ := h
    obtain ⟨hanswer, hinv⟩ := hkeeps shared op hshared hasks
    exact ih _ (hnext _ hanswer) hinv

theorem meets_runEach (hkeeps : Keeps P loader Inv) {sessions : List (Session τ α)}
    {posts : List (α → Prop)} (h : List.Forall₂ (fun s post => s.Meets P post) sessions posts)
    {shared : Shared τ} (hshared : Inv shared) :
    List.Forall₂ (fun value post => post value) (runEach loader sessions shared).1 posts := by
  induction h generalizing shared with
  | nil => exact .nil
  | cons hfirst _ ih =>
    obtain ⟨hpost, hinv⟩ := hfirst.run hkeeps hshared
    exact .cons hpost (ih hinv)

theorem forall₂_set {R : α → β → Prop} {as : List α} {bs : List β} (h : List.Forall₂ R as bs)
    {i : Nat} {a : α} (ha : ∀ b, bs[i]? = some b → R a b) : List.Forall₂ R (as.set i a) bs := by
  induction h generalizing i with
  | nil => exact .nil
  | cons hfirst hrest ih =>
    cases i with
    | zero => exact .cons (ha _ rfl) hrest
    | succ i => exact .cons hfirst (ih fun b hb => ha b hb)

theorem exists_of_getElem? {R : α → β → Prop} {as : List α} {bs : List β}
    (h : List.Forall₂ R as bs) {i : Nat} {a : α} (ha : as[i]? = some a) :
    ∃ b, bs[i]? = some b ∧ R a b := by
  obtain ⟨hi, rfl⟩ := List.getElem?_eq_some_iff.1 ha
  have hi' : i < bs.length := h.length_eq ▸ hi
  exact ⟨bs[i], List.getElem?_eq_getElem hi', h.get hi hi'⟩

theorem meets_interleave (hkeeps : Keeps P loader Inv) (schedule : List Nat)
    {sessions : List (Session τ α)} {posts : List (α → Prop)}
    (h : List.Forall₂ (fun s post => s.Meets P post) sessions posts)
    {shared : Shared τ} (hshared : Inv shared) :
    List.Forall₂ (fun value post => post value) (interleave loader schedule sessions shared).1
      posts := by
  -- a turn is one step of one session; the others stay, and so does the invariant
  induction schedule generalizing sessions shared with
  | nil => exact meets_runEach hkeeps h hshared
  | cons turn schedule ih =>
    rw [interleave]
    split
    · exact ih h hshared
    · rename_i session hsession
      obtain ⟨post, hpost, hmeets⟩ := exists_of_getElem? h hsession
      obtain ⟨hstep, hinv⟩ := hmeets.step hkeeps hshared
      refine ih (forall₂_set h fun b hb => ?_) hinv
      obtain rfl := Option.some.inj (hpost.symm.trans hb)
      exact hstep

/-- In every interleaving of the tasks of some items, what the task of an item comes to has
that item's property. -/
theorem meets_interleave_map (hkeeps : Keeps P loader Inv) (schedule : List Nat) {items : List β}
    {task : β → Session τ α} {post : β → α → Prop}
    (h : ∀ x ∈ items, (task x).Meets P (post x)) (shared : Shared τ) (hshared : Inv shared) :
    List.Forall₂ (fun value x => post x value)
      (interleave loader schedule (items.map task) shared).1 items := by
  have hposts : List.Forall₂ (fun s post => s.Meets P post) (items.map task)
      (items.map post) := by
    rw [List.forall₂_map_left_iff, List.forall₂_map_right_iff, List.forall₂_same]
    exact h
  have := meets_interleave hkeeps schedule hposts hshared
  rwa [List.forall₂_map_right_iff] at this

/-- In every interleaving, tasks that are settled come to what they come to alone. -/
theorem settled_interleave_map (hkeeps : Keeps P loader Inv) (schedule : List Nat)
    {items : List β} {task : β → Session τ α} (h : ∀ x ∈ items, (task x).Settled P)
    (shared : Shared τ) (hshared : Inv shared) :
    (interleave loader schedule (items.map task) shared).1 =
      items.map fun x => ((task x).run loader shared).1 := by
  have halone : ∀ x ∈ items, (task x).Meets P fun value =>
      value = ((task x).run loader shared).1 := by
    intro x hx
    obtain ⟨result, hresult⟩ := h x hx
    refine hresult.mono ?_
    rintro value rfl
    exact ((hresult.run hkeeps hshared).1).symm
  have hall := meets_interleave_map hkeeps schedule halone shared hshared
  rw [← List.forall₂_eq_eq_eq, List.forall₂_map_right_iff]
  exact hall

theorem any_keeps (loader : Loader τ) : Keeps Protocol.any loader fun _ => True :=
  fun _ _ _ _ => ⟨trivial, trivial⟩

end Interleaving
end Session

end UnitLink
