import Mathlib.Data.List.Basic
import UnitLink.Session
/-! Sessions that take turns, seen turn by turn. An interleaving is a run of turns that is
brought to its end session by session; here the sessions can be looked at after any of the
turns, together with a record of the accesses that were made. -/
namespace UnitLink

/-- Sessions on their way, and what they share. -/
structure UnderWay (τ α : Type) where
  sessions : List (Session τ α)
  shared : Shared τ

/-- An access that was made: by which of the sessions, and with what answer. -/
structure Access (τ : Type) where
  session : Nat
  op : SharedOp τ
  answer : op.Answer

namespace UnderWay

variable {τ α : Type} (loader : Loader τ)

def turn (u : UnderWay τ α) (i : Nat) : UnderWay τ α :=
  match u.sessions[i]? with
  | none => u
  | some session =>
    ⟨u.sessions.set i (session.step loader u.shared).1, (session.step loader u.shared).2⟩

/-- The access that a turn makes; a session that is done makes none. -/
def access? (u : UnderWay τ α) (i : Nat) : Option (Access τ) :=
  match u.sessions[i]? with
  | some (.ask op _) => some ⟨i, op, (u.shared.access loader op).1⟩
  | _ => none

def run (u : UnderWay τ α) (schedule : List Nat) : UnderWay τ α := schedule.foldl (turn loader) u

/-- The accesses of a run, in their order. -/
def accesses : UnderWay τ α → List Nat → List (Access τ)
  | _, [] => []
  | u, i :: schedule => (u.access? loader i).toList ++ (u.turn loader i).accesses schedule

variable {loader} {u : UnderWay τ α}

@[simp] theorem run_nil : u.run loader [] = u := rfl

@[simp] theorem run_cons (i : Nat) (schedule : List Nat) :
    u.run loader (i :: schedule) = (u.turn loader i).run loader schedule := rfl

theorem run_append (earlier later : List Nat) :
    u.run loader (earlier ++ later) = (u.run loader earlier).run loader later :=
  List.foldl_append

theorem accesses_append (earlier later : List Nat) :
    u.accesses loader (earlier ++ later) =
      u.accesses loader earlier ++ (u.run loader earlier).accesses loader later := by
  induction earlier generalizing u with
  | nil => rfl
  | cons i earlier ih => simp [accesses, ih]

theorem interleave_eq (schedule : List Nat) :
    Session.interleave loader schedule u.sessions u.shared =
      Session.runEach loader (u.run loader schedule).sessions
        (u.run loader schedule).shared := by
  induction schedule generalizing u with
  | nil => rfl
  | cons i schedule ih =>
    rw [run_cons, ← ih, Session.interleave, turn]
    cases u.sessions[i]? with
    | none => rfl
    | some session => rfl

theorem turn_sessions_ne {i k : Nat} (h : k ≠ i) :
    (u.turn loader i).sessions[k]? = u.sessions[k]? := by
  unfold turn
  split
  · rfl
  · exact List.getElem?_set_ne h.symm

theorem turn_sessions_length (i : Nat) :
    (u.turn loader i).sessions.length = u.sessions.length := by
  unfold turn
  split
  · rfl
  · exact List.length_set

theorem turn_done {i : Nat} {value : α} (h : u.sessions[i]? = some (.done value)) :
    u.turn loader i = u := by
  unfold turn
  rw [h]
  simp only [Session.step]
  obtain ⟨hi, hdone⟩ := List.getElem?_eq_some_iff.mp h
  rw [← hdone, List.set_getElem_self]

theorem turn_eq_self_of_no_access {i : Nat} (h : u.access? loader i = none) :
    u.turn loader i = u := by
  unfold access? at h
  cases hsession : u.sessions[i]? with
  | none => simp [turn, hsession]
  | some session =>
    cases session with
    | done value => exact turn_done hsession
    | ask op next =>
      rw [hsession] at h
      cases h

theorem session_of_access? {i : Nat} {a : Access τ} (h : u.access? loader i = some a) :
    a.session = i := by
  unfold access? at h
  split at h
  · obtain rfl := Option.some.inj h
    rfl
  · cases h

theorem run_done (loader : Loader τ) {i : Nat} {value : α} (h : u.sessions[i]? = some (.done value))
    (schedule : List Nat) :
    (u.run loader schedule).sessions[i]? = some (.done value) ∧
      ∀ a ∈ u.accesses loader schedule, a.session ≠ i := by
  induction schedule generalizing u with
  | nil => exact ⟨h, by simp [accesses]⟩
  | cons k schedule ih =>
    have hnext : (u.turn loader k).sessions[i]? = some (.done value) := by
      by_cases hk : i = k
      · rw [← hk, turn_done h, h]
      · rw [turn_sessions_ne hk, h]
    obtain ⟨hrun, hlog⟩ := ih hnext
    refine ⟨hrun, fun a ha => ?_⟩
    rw [accesses, List.mem_append, Option.mem_toList] at ha
    rcases ha with ha | ha
    · rw [session_of_access? ha]
      rintro rfl
      simp [access?, h] at ha
    · exact hlog a ha

theorem session_of_no_access {i : Nat} {schedule : List Nat}
    (h : ∀ a ∈ u.accesses loader schedule, a.session ≠ i) :
    (u.run loader schedule).sessions[i]? = u.sessions[i]? := by
  induction schedule generalizing u with
  | nil => rfl
  | cons k schedule ih =>
    simp only [accesses, List.mem_append, Option.mem_toList] at h
    rw [run_cons, ih fun a ha => h a (.inr ha)]
    by_cases hk : i = k
    · subst hk
      cases haccess : u.access? loader i with
      | none => rw [turn_eq_self_of_no_access haccess]
      | some a => exact absurd (session_of_access? haccess) (h a (.inl haccess))
    · exact turn_sessions_ne hk

/-! ### Interleavings -/

theorem turn_mid (before : List (Session τ α)) (s : Session τ α) (after : List (Session τ α))
    (shared : Shared τ) :
    (⟨before ++ s :: after, shared⟩ : UnderWay τ α).turn loader before.length =
      ⟨before ++ (s.step loader shared).1 :: after, (s.step loader shared).2⟩ := by
  unfold turn
  simp

/-- A session that has all the turns comes to its end. -/
theorem exists_run_mid (loader : Loader τ) (before : List (Session τ α)) (s : Session τ α)
    (after : List (Session τ α)) (shared : Shared τ) :
    ∃ schedule, (⟨before ++ s :: after, shared⟩ : UnderWay τ α).run loader schedule =
      ⟨before ++ .done (s.run loader shared).1 :: after, (s.run loader shared).2⟩ := by
  induction s generalizing shared with
  | done value => exact ⟨[], rfl⟩
  | ask op next ih =>
    obtain ⟨schedule, hschedule⟩ := ih (shared.access loader op).1 (shared.access loader op).2
    refine ⟨before.length :: schedule, ?_⟩
    rw [run_cons, turn_mid]
    exact hschedule

theorem exists_run_runEach (loader : Loader τ) (before sessions : List (Session τ α))
    (shared : Shared τ) :
    ∃ schedule, (⟨before ++ sessions, shared⟩ : UnderWay τ α).run loader schedule =
      ⟨before ++ (Session.runEach loader sessions shared).1.map .done,
        (Session.runEach loader sessions shared).2⟩ := by
  induction sessions generalizing before shared with
  | nil => exact ⟨[], by simp [Session.runEach]⟩
  | cons s sessions ih =>
    obtain ⟨first, hfirst⟩ := exists_run_mid loader before s sessions shared
    obtain ⟨rest, hrest⟩ := ih (before ++ [.done (s.run loader shared).1]) (s.run loader shared).2
    refine ⟨first ++ rest, ?_⟩
    rw [List.append_assoc, List.append_assoc] at hrest
    rw [run_append, hfirst]
    exact hrest

/-- An interleaving is a run of turns, the first of them those of its schedule, in which all
sessions come to their ends. -/
theorem exists_run_interleave (schedule : List Nat) :
    ∃ more, u.run loader (schedule ++ more) =
      ⟨(Session.interleave loader schedule u.sessions u.shared).1.map .done,
        (Session.interleave loader schedule u.sessions u.shared).2⟩ := by
  obtain ⟨more, hmore⟩ := exists_run_runEach loader []
    (u.run loader schedule).sessions (u.run loader schedule).shared
  refine ⟨more, ?_⟩
  rw [run_append, interleave_eq]
  exact hmore

theorem run_sessions_length (schedule : List Nat) :
    (u.run loader schedule).sessions.length = u.sessions.length := by
  induction schedule generalizing u with
  | nil => rfl
  | cons i schedule ih => rw [run_cons, ih, turn_sessions_length]

theorem exists_run_done (loader : Loader τ) (u : UnderWay τ α) :
    ∃ more, ∀ i < u.sessions.length, ∃ value,
      (u.run loader more).sessions[i]? = some (.done value) := by
  obtain ⟨more, hmore⟩ : ∃ more, u.run loader ([] ++ more) = _ := exists_run_interleave []
  have hlength : (u.run loader more).sessions.length = u.sessions.length :=
    run_sessions_length more
  rw [List.nil_append] at hmore
  rw [hmore, List.length_map] at hlength
  refine ⟨more, fun i hi => ?_⟩
  rw [← hlength] at hi
  exact ⟨_, by rw [hmore, List.getElem?_map, List.getElem?_eq_getElem hi, Option.map_some]⟩

end UnderWay
end UnitLink
