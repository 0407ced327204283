import UnitLink.Proofs.SourceOrder
import UnitLink.Proofs.Turns
import UnitLink.Proofs.UnqualifiedSearch
/-! Lookups of classes, turn by turn. A lookup that goes beyond the job's classes reads the cache,
asks the loader and enters what that brings, and others may come in between. Whatever the loader
answers to whom, a name that has been entered keeps its class, a lookup that succeeds gives the
class that is entered by then, and nothing is entered under the name of a job's class. -/
namespace UnitLink

abbrev LookupResult := Except Stop (Except LookupFault ClassUnit)

/-- How far a lookup has come. -/
inductive LookupStage where
  | reading
  | loading
  | keeping (c : ClassUnit)
  | finished (result : LookupResult)

/-- Calls that look classes up with a new resolver, none of which has begun. -/
def Resolver.lookups {τ : Type} (r : Resolver) (names : List ClassName) (common : τ) :
    UnderWay τ LookupResult :=
  ⟨names.map fun name => (r.lookup name).run, ⟨r.caches, common⟩⟩

/-! ### The stages of a lookup -/

namespace LookupStage

variable {τ τ' : Type}

def afterLoad : LoadAnswer → LookupStage
  | .found c => keeping c
  | .refused fault => finished (.ok (.error fault))
  | .crashed message => finished (.error (.crashed message))

def entering (name : ClassName) (c : ClassUnit) : Session τ LookupResult :=
  .ask (.keep name c) fun entry => .done (.ok (.ok entry))

def asking (name : ClassName) : Session τ LookupResult :=
  .ask (.load name) fun
    | .found c => entering name c
    | .refused fault => .done (.ok (.error fault))
    | .crashed message => .done (.error (.crashed message))

/-- What is left of the lookup of a name. -/
def session (name : ClassName) : LookupStage → Session τ LookupResult
  | reading => .ask (.loaded name) fun
    | some c => .done (.ok (.ok c))
    | none => asking name
  | loading => asking name
  | keeping c => entering name c
  | finished result => .done result

def start (r : Resolver) (name : ClassName) : LookupStage :=
  match r.jobClass? name with
  | some c => finished (.ok (.ok c))
  | none => reading

theorem lookup_run (r : Resolver) (name : ClassName) :
    (r.lookup name : Resolver.Resolving τ _).run = (start r name).session name := by
  unfold Resolver.lookup start
  cases r.jobClass? name with
  | some c => rfl
  | none =>
    refine congrArg (Session.ask (.loaded name)) (funext fun cached => ?_)
    cases cached with
    | some c => rfl
    | none =>
      refine congrArg (Session.ask (.load name)) (funext fun answer => ?_)
      cases answer <;> rfl

def op? (name : ClassName) : LookupStage → Option (SharedOp τ)
  | reading => some (.loaded name)
  | loading => some (.load name)
  | keeping c => some (.keep name c)
  | finished _ => none

/-- The stage that a lookup comes to in its turn, and what is shared by then. -/
def next (loader : Loader τ) (name : ClassName) (shared : Shared τ) :
    LookupStage → LookupStage × Shared τ
  | reading =>
    match shared.caches.classes.lookup name with
    | some c => (finished (.ok (.ok c)), shared)
    | none => (loading, shared)
  | loading =>
    (afterLoad (loader.load name shared.common).1,
      { shared with common := (loader.load name shared.common).2 })
  | keeping c =>
    (finished (.ok (.ok (shared.caches.keep name c).1)),
      { shared with caches := (shared.caches.keep name c).2 })
  | finished result => (finished result, shared)

variable {loader : Loader τ} {u : UnderWay τ LookupResult} {i : Nat} {name : ClassName}

theorem step_session (stage : LookupStage) (shared : Shared τ) :
    (stage.session name).step loader shared =
      ((stage.next loader name shared).1.session name, (stage.next loader name shared).2) := by
  cases stage with
  | reading =>
    simp only [session, Session.step, Shared.access, next]
    cases shared.caches.classes.lookup name <;> rfl
  | loading =>
    simp only [session, asking, Session.step, Shared.access, next]
    cases (loader.load name shared.common).1 <;> rfl
  | keeping c => rfl
  | finished result => rfl

theorem turn_eq {stage : LookupStage} (h : u.sessions[i]? = some (stage.session name)) :
    u.turn loader i =
      ⟨u.sessions.set i ((stage.next loader name u.shared).1.session name),
        (stage.next loader name u.shared).2⟩ := by
  unfold UnderWay.turn
  rw [h]
  simp only [step_session]

theorem access?_eq {stage : LookupStage} (h : u.sessions[i]? = some (stage.session name)) :
    u.access? loader i =
      (stage.op? name).map fun op => ⟨i, op, (u.shared.access loader op).1⟩ := by
  unfold UnderWay.access?
  rw [h]
  cases stage <;> rfl

end LookupStage

/-! ### What every interleaving keeps -/

theorem Caches.lookup_keep (caches : Caches) (name other : ClassName) (c : ClassUnit) :
    (caches.keep name c).2.classes.lookup other =
      if other = name then some (caches.keep name c).1 else caches.classes.lookup other := by
  unfold keep
  cases hentered : caches.classes.lookup name with
  | some entered =>
    by_cases heq : other = name
    · simp [heq, hentered]
    · simp [heq]
  | none =>
    by_cases heq : other = name
    · simp [heq]
    · have hne : (other == name) = false := by simpa using heq
      simp [heq, List.lookup_cons, hne]

namespace LookupStage

variable {τ : Type} {loader : Loader τ} {shared : Shared τ} {name : ClassName}

theorem lookup_next {other : ClassName} {c : ClassUnit} (stage : LookupStage)
    (h : shared.caches.classes.lookup other = some c) :
    (stage.next loader name shared).2.caches.classes.lookup other = some c := by
  cases stage with
  | reading =>
    simp only [next]
    cases shared.caches.classes.lookup name <;> exact h
  | loading | finished => exact h
  | keeping d =>
    simp only [next, Caches.lookup_keep]
    split
    · rename_i heq
      subst heq
      simp [Caches.keep, h]
    · exact h

/-- What a lookup of a name can be, beside the given caches: that of a job's class is over from
the start, and any other gives what is entered. -/
structure Sound (r : Resolver) (supplied : ClassName → ClassUnit → Prop) (caches : Caches)
    (name : ClassName) (stage : LookupStage) : Prop where
  own : ∀ c, r.jobClass? name = some c → stage = finished (.ok (.ok c))
  found : ∀ c, r.jobClass? name = none → stage = finished (.ok (.ok c)) →
    caches.classes.lookup name = some c
  keeping : ∀ c, stage = keeping c → supplied name c

variable {r : Resolver} {supplied : ClassName → ClassUnit → Prop}

theorem sound_start (r : Resolver) (supplied : ClassName → ClassUnit → Prop) (caches : Caches)
    (name : ClassName) : (start r name).Sound r supplied caches name where
  own c h := by rw [start, h]
  found c h heq := by
    rw [start, h] at heq
    cases heq
  keeping c heq := by
    unfold start at heq
    split at heq <;> cases heq

/-- A lookup that has an access to make is not that of a job's class. -/
theorem Sound.undeclared {stage : LookupStage} {caches : Caches} {op : SharedOp τ}
    (h : stage.Sound r supplied caches name) (hop : stage.op? name = some op) :
    r.jobClass? name = none := by
  rw [Option.eq_none_iff_forall_ne_some]
  intro own hown
  cases h.own own hown
  cases hop

theorem Sound.mono {stage : LookupStage} {caches caches' : Caches}
    (h : stage.Sound r supplied caches name)
    (hgrown : ∀ c, caches.classes.lookup name = some c → caches'.classes.lookup name = some c) :
    stage.Sound r supplied caches' name :=
  ⟨h.own, fun c hjob heq => hgrown c (h.found c hjob heq), h.keeping⟩

theorem Sound.next (loader : Loader τ) {stage : LookupStage}
    (h : stage.Sound r supplied shared.caches name)
    (hloader : ∀ common c, (loader.load name common).1 = .found c → supplied name c) :
    (stage.next loader name shared).1.Sound r supplied (stage.next loader name shared).2.caches
      name := by
  have hnot : ∀ c, r.jobClass? name = some c → stage = finished (.ok (.ok c)) := h.own
  cases stage with
  | finished result => exact h
  | reading =>
    simp only [LookupStage.next]
    cases hcached : shared.caches.classes.lookup name with
    | some c =>
      refine ⟨fun d hd => (by cases hnot d hd), fun d _ heq => ?_, by rintro d ⟨⟩⟩
      cases heq
      exact hcached
    | none => exact ⟨fun d hd => (by cases hnot d hd), by rintro d - ⟨⟩, by rintro d ⟨⟩⟩
  | loading =>
    simp only [LookupStage.next]
    cases hanswer : (loader.load name shared.common).1 with
    | found c =>
      refine ⟨fun d hd => (by cases hnot d hd), by rintro d - ⟨⟩, fun d heq => ?_⟩
      cases heq
      exact hloader _ c hanswer
    | refused | crashed =>
      exact ⟨fun d hd => (by cases hnot d hd), by rintro d - ⟨⟩, by rintro d ⟨⟩⟩
  | keeping c =>
    refine ⟨fun d hd => (by cases hnot d hd), fun d _ heq => ?_, by rintro d ⟨⟩⟩
    cases heq
    simp [LookupStage.next, Caches.lookup_keep]

end LookupStage

namespace Resolver

variable {τ : Type} {loader : Loader τ} {r : Resolver} {names : List ClassName}
  {supplied : ClassName → ClassUnit → Prop} {u : UnderWay τ LookupResult}

/-- Lookups of the names are under way, each at a stage where it can be, and the cache holds
classes that were supplied, none of them under the name of a job's class. -/
structure Coherent (r : Resolver) (supplied : ClassName → ClassUnit → Prop)
    (names : List ClassName) (u : UnderWay τ LookupResult) : Prop where
  length : u.sessions.length = names.length
  calls : ∀ (i : Nat) (name : ClassName), names[i]? = some name →
    ∃ stage : LookupStage, u.sessions[i]? = some (stage.session name) ∧
      stage.Sound r supplied u.shared.caches name
  entries : ∀ name c, u.shared.caches.classes.lookup name = some c →
    r.jobClass? name = none ∧ supplied name c

/-- Whose turn it is: nobody's, or that of a lookup at a stage where it can be. -/
theorem Coherent.at_turn (h : r.Coherent supplied names u) (i : Nat) :
    u.sessions[i]? = none ∨
      ∃ (name : ClassName) (stage : LookupStage), names[i]? = some name ∧
        u.sessions[i]? = some (stage.session name) ∧
        stage.Sound r supplied u.shared.caches name := by
  cases hname : names[i]? with
  | none =>
    left
    rw [List.getElem?_eq_none_iff] at hname ⊢
    exact h.length ▸ hname
  | some name =>
    obtain ⟨stage, hstage, hsound⟩ := h.calls i name hname
    exact .inr ⟨name, stage, rfl, hstage, hsound⟩

theorem Coherent.lookup_turn (h : r.Coherent supplied names u) (i : Nat) {name : ClassName}
    {c : ClassUnit} (hentered : u.shared.caches.classes.lookup name = some c) :
    (u.turn loader i).shared.caches.classes.lookup name = some c := by
  rcases h.at_turn i with hnone | ⟨own, stage, -, hstage, -⟩
  · rw [UnderWay.turn, hnone]
    exact hentered
  · rw [LookupStage.turn_eq hstage]
    exact LookupStage.lookup_next stage hentered

theorem Coherent.turn (h : r.Coherent supplied names u)
    (hloader : ∀ name common c, (loader.load name common).1 = .found c → supplied name c)
    (i : Nat) : r.Coherent supplied names (u.turn loader i) := by
  rcases h.at_turn i with hnone | ⟨name, stage, hname, hstage, hsound⟩
  · rw [UnderWay.turn, hnone]
    exact h
  · have hnext := hsound.next loader (hloader name)
    rw [LookupStage.turn_eq hstage]
    refine ⟨List.length_set.trans h.length, fun k other hother => ?_, fun other c hc => ?_⟩
    · by_cases hk : i = k
      · subst hk
        cases hname.symm.trans hother
        have hi : i < u.sessions.length := (List.getElem?_eq_some_iff.mp hstage).1
        exact ⟨_, List.getElem?_set_self hi, hnext⟩
      · obtain ⟨stage', hstage', hsound'⟩ := h.calls k other hother
        exact ⟨stage', (List.getElem?_set_ne hk).trans hstage',
          hsound'.mono fun c => LookupStage.lookup_next stage⟩
    · cases stage with
      | reading =>
        refine h.entries other c ?_
        simp only [LookupStage.next] at hc
        cases hcached : u.shared.caches.classes.lookup name <;> rw [hcached] at hc <;> exact hc
      | loading | finished => exact h.entries other c hc
      | keeping d =>
        simp only [LookupStage.next, Caches.lookup_keep] at hc
        split at hc
        · rename_i heq
          subst heq
          refine ⟨hsound.undeclared (τ := τ) rfl, ?_⟩
          cases hentered : u.shared.caches.classes.lookup other with
          | some entered =>
            obtain rfl : entered = c := by simpa [Caches.keep, hentered] using hc
            exact (h.entries other entered hentered).2
          | none =>
            obtain rfl : d = c := by simpa [Caches.keep, hentered] using hc
            exact hsound.keeping d rfl
        · exact h.entries other c hc

theorem Coherent.run (h : r.Coherent supplied names u)
    (hloader : ∀ name common c, (loader.load name common).1 = .found c → supplied name c)
    (schedule : List Nat) : r.Coherent supplied names (u.run loader schedule) := by
  induction schedule generalizing u with
  | nil => exact h
  | cons i schedule ih => exact ih (h.turn hloader i)

theorem jobClass?_eq_none_of_mem {discovered : List Discovered} {libraries : List ClassUnit}
    {unresolved : Option ClassName}
    (hbuild : build discovered libraries unresolved loader = .ok r) {c : ClassUnit}
    (hc : c ∈ r.libraries) : r.jobClass? c.name = none := by
  rw [jobClass?_eq_none_iff hbuild]
  obtain ⟨-, rfl⟩ := build_eq_ok_iff.1 hbuild
  exact of_decide_eq_true (List.mem_filter.1 hc).2

theorem lookups_session (r : Resolver) {names : List ClassName} (common : τ) {i : Nat}
    {name : ClassName} (hname : names[i]? = some name) :
    (r.lookups names common).sessions[i]? = some ((LookupStage.start r name).session name) := by
  simp only [lookups, List.getElem?_map, hname, Option.map_some, LookupStage.lookup_run]

theorem coherent_lookups (supplied : ClassName → ClassUnit → Prop)
    {discovered : List Discovered} {libraries : List ClassUnit} {unresolved : Option ClassName}
    (hbuild : build discovered libraries unresolved loader = .ok r) (names : List ClassName)
    (common : τ) (hlibraries : ∀ c : ClassUnit, supplied c.name c) :
    r.Coherent supplied names (r.lookups names common) where
  length := List.length_map ..
  calls i name hname :=
    ⟨LookupStage.start r name, r.lookups_session common hname, LookupStage.sound_start ..⟩
  entries name c hc := by
    obtain ⟨hmem, rfl⟩ := of_preloaded hc
    exact ⟨jobClass?_eq_none_of_mem hbuild hmem, hlibraries c⟩

end Resolver
end UnitLink
