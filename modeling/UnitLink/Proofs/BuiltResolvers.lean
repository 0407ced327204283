import Mathlib.Data.List.Nodup
import UnitLink.Resolver
/-! What a resolver is built from. Two sources cannot declare one name, and the first class that
repeats a name is the one that is told of. A name that a source declares is that source's alone:
libraries of the name are left out. -/
namespace UnitLink

variable {τ : Type}

namespace Resolver

variable {discovered earlier ds : List Discovered} {first again : Discovered}

/-! ### Declared names -/

/-- No source declares a class of the name. -/
def Undeclared (discovered : List Discovered) (name : ClassName) : Prop :=
  ∀ d ∈ discovered, d.declared.name ≠ name

instance : DecidablePred (Undeclared discovered) := fun name =>
  inferInstanceAs (Decidable (∀ d ∈ discovered, d.declared.name ≠ name))

theorem isNone_declaredBy (name : ClassName) :
    (declaredBy discovered name).isNone = true ↔ Undeclared discovered name := by
  simp [declaredBy, Undeclared]

theorem exists_of_declaredBy {name : ClassName} {source : String}
    (h : declaredBy discovered name = some source) :
    ∃ d ∈ discovered, d.declared.name = name ∧ d.source = source := by
  obtain ⟨d, hd, rfl⟩ := Option.map_eq_some_iff.1 h
  exact ⟨d, List.mem_of_find?_eq_some hd, by simpa using List.find?_some hd, rfl⟩

/-! ### Classes that are declared twice -/

/-- The names differ up to a class that repeats the name of an earlier one. -/
def FirstRepeat (discovered : List Discovered) (first again : Discovered) : Prop :=
  ∃ earlier later, discovered = earlier ++ again :: later ∧
    (earlier.map fun d => d.declared.name).Nodup ∧
      first ∈ earlier ∧ first.declared.name = again.declared.name

theorem not_nodup_of_repeat {before after : List Discovered} (hfirst : first ∈ before)
    (hname : first.declared.name = again.declared.name) :
    ¬((before ++ again :: after).map fun d => d.declared.name).Nodup := by
  rw [List.map_append, List.nodup_append]
  rintro ⟨-, -, hdiffer⟩
  exact hdiffer _ (List.mem_map_of_mem hfirst) _ (List.mem_map_of_mem List.mem_cons_self) hname

theorem FirstRepeat.not_nodup (h : FirstRepeat discovered first again) :
    ¬(discovered.map fun d => d.declared.name).Nodup := by
  obtain ⟨earlier, later, rfl, -, hfirst, hname⟩ := h
  exact not_nodup_of_repeat hfirst hname

theorem FirstRepeat.unique {first' again' : Discovered} (h : FirstRepeat discovered first again)
    (h' : FirstRepeat discovered first' again') : first = first' ∧ again = again' := by
  obtain ⟨earlier, later, heq, hnodup, hfirst, hname⟩ := h
  obtain ⟨earlier', later', heq', hnodup', hfirst', hname'⟩ := h'
  obtain ⟨rfl, rfl⟩ : earlier = earlier' ∧ again = again' := by
    -- where one of the two comes later, the other is a repetition among the names before it
    rcases List.append_eq_append_iff.1 (heq.symm.trans heq') with
      ⟨between, rfl, hrest⟩ | ⟨between, rfl, hrest⟩
    · cases between with
      | nil => exact ⟨(List.append_nil _).symm, (List.cons.inj hrest).1⟩
      | cons d between =>
        obtain ⟨rfl, -⟩ := List.cons.inj hrest
        exact absurd hnodup' (not_nodup_of_repeat hfirst hname)
    · cases between with
      | nil => exact ⟨List.append_nil _, (List.cons.inj hrest).1.symm⟩
      | cons d between =>
        obtain ⟨rfl, -⟩ := List.cons.inj hrest
        exact absurd hnodup (not_nodup_of_repeat hfirst' hname')
  exact ⟨List.inj_on_of_nodup_map hnodup hfirst hfirst' (hname.trans hname'.symm), rfl⟩

theorem nodup_concat {d : Discovered} (hearlier : (earlier.map fun d => d.declared.name).Nodup)
    (hnew : declaredBy earlier d.declared.name = none) :
    ((earlier ++ [d]).map fun d => d.declared.name).Nodup := by
  rw [← Option.isNone_iff_eq_none, isNone_declaredBy] at hnew
  rw [List.map_append, List.nodup_append]
  refine ⟨hearlier, List.nodup_singleton _, fun name hname other hother => ?_⟩
  obtain ⟨e, he, rfl⟩ := List.mem_map.1 hname
  obtain rfl := List.mem_singleton.1 hother
  exact hnew e he

theorem nodup_of_duplicate?_eq_none (hearlier : (earlier.map fun d => d.declared.name).Nodup)
    (h : duplicate? earlier ds = none) : ((earlier ++ ds).map fun d => d.declared.name).Nodup := by
  induction ds generalizing earlier with
  | nil => rwa [List.append_nil]
  | cons d ds ih =>
    rw [duplicate?] at h
    cases hdeclared : declaredBy earlier d.declared.name with
    | some source =>
      rw [hdeclared] at h
      cases h
    | none =>
      rw [hdeclared] at h
      have hnodup := ih (nodup_concat hearlier hdeclared) h
      rwa [List.append_assoc, List.singleton_append] at hnodup

theorem duplicate?_eq_some_iff {cause : Cause}
    (hearlier : (earlier.map fun d => d.declared.name).Nodup) :
    duplicate? earlier ds = some cause ↔ ∃ first again, FirstRepeat (earlier ++ ds) first again ∧
      cause = .duplicateClass again.declared.name first.source again.source := by
  induction ds generalizing earlier with
  | nil =>
    rw [List.append_nil]
    refine ⟨fun h => (by cases h), ?_⟩
    rintro ⟨first, again, hrepeat, -⟩
    exact absurd hearlier hrepeat.not_nodup
  | cons d ds ih =>
    rw [duplicate?]
    cases hdeclared : declaredBy earlier d.declared.name with
    | some source =>
      obtain ⟨first, hfirst, hname, rfl⟩ := exists_of_declaredBy hdeclared
      have hrepeat : FirstRepeat (earlier ++ d :: ds) first d :=
        ⟨earlier, ds, rfl, hearlier, hfirst, hname⟩
      constructor
      · intro h
        exact ⟨first, d, hrepeat, (Option.some.inj h).symm⟩
      · rintro ⟨first', again, hrepeat', rfl⟩
        obtain ⟨rfl, rfl⟩ := hrepeat.unique hrepeat'
        rfl
    | none =>
      rw [ih (nodup_concat hearlier hdeclared), List.append_assoc, List.singleton_append]

theorem duplicate?_nil_eq_some_iff {cause : Cause} :
    duplicate? [] discovered = some cause ↔ ∃ first again, FirstRepeat discovered first again ∧
      cause = .duplicateClass again.declared.name first.source again.source :=
  @duplicate?_eq_some_iff [] discovered cause List.nodup_nil

/-! ### Built resolvers -/

variable {r : Resolver} {loader : Loader τ} {libraries : List ClassUnit}
  {unresolved : Option ClassName}

/-- There is no resolver for classes of which one repeats an earlier one's name. What is told of
them is the first that does, and both sources. -/
theorem build_eq_error_iff {failure : Failure} :
    build discovered libraries unresolved loader = .error failure ↔
      ∃ first again, FirstRepeat discovered first again ∧ failure = Failure.ofCause
        (.duplicateClass again.declared.name first.source again.source) := by
  unfold build
  cases hfound : duplicate? [] discovered with
  | some cause =>
    obtain ⟨first, again, hrepeat, rfl⟩ := duplicate?_nil_eq_some_iff.1 hfound
    constructor
    · intro h
      exact ⟨first, again, hrepeat, (Except.error.inj h).symm⟩
    · rintro ⟨first', again', hrepeat', rfl⟩
      obtain ⟨rfl, rfl⟩ := hrepeat.unique hrepeat'
      rfl
  | none =>
    refine ⟨fun h => (by cases h), ?_⟩
    rintro ⟨first, again, hrepeat, -⟩
    have hsome := duplicate?_nil_eq_some_iff.2 ⟨first, again, hrepeat, rfl⟩
    cases hfound.symm.trans hsome

theorem build_eq_ok_iff :
    build discovered libraries unresolved loader = .ok r ↔
      (discovered.map fun d => d.declared.name).Nodup ∧
        r = ⟨discovered.map Discovered.declared,
          libraries.filter fun c => Undeclared discovered c.name, unresolved,
          discovered.length + libraries.length + loader.size⟩ := by
  have hfilter : (fun c : ClassUnit => (declaredBy discovered c.name).isNone) =
      fun c => decide (Undeclared discovered c.name) := by
    funext c
    rw [Bool.eq_iff_iff, isNone_declaredBy, decide_eq_true_iff]
  constructor
  · intro h
    unfold build at h
    split at h
    · cases h
    · rename_i hnone
      refine ⟨@nodup_of_duplicate?_eq_none [] discovered List.nodup_nil hnone, ?_⟩
      rw [← hfilter]
      exact (Except.ok.inj h).symm
  · rintro ⟨hnodup, rfl⟩
    unfold build
    split
    · rename_i cause hfound
      obtain ⟨first, again, hrepeat, -⟩ := duplicate?_nil_eq_some_iff.1 hfound
      exact absurd hnodup hrepeat.not_nodup
    · rw [hfilter]

theorem exists_build_error_iff :
    (∃ failure, build discovered libraries unresolved loader = .error failure) ↔
      ¬(discovered.map fun d => d.declared.name).Nodup := by
  constructor
  · rintro ⟨failure, h⟩
    obtain ⟨first, again, hrepeat, -⟩ := build_eq_error_iff.1 h
    exact hrepeat.not_nodup
  · intro hrepeated
    cases hbuild : build discovered libraries unresolved loader with
    | error failure => exact ⟨failure, rfl⟩
    | ok r => exact absurd (build_eq_ok_iff.1 hbuild).1 hrepeated

section Built

variable (hbuild : build discovered libraries unresolved loader = .ok r)

include hbuild

theorem nodup_of_build_ok : (discovered.map fun d => d.declared.name).Nodup :=
  (build_eq_ok_iff.1 hbuild).1

theorem jobClasses_eq : r.jobClasses = discovered.map Discovered.declared := by
  obtain ⟨-, rfl⟩ := build_eq_ok_iff.1 hbuild
  rfl

theorem jobClass?_eq_none_iff {name : ClassName} :
    r.jobClass? name = none ↔ Undeclared discovered name := by
  rw [jobClass?, jobClasses_eq hbuild, List.find?_eq_none]
  simp [Undeclared]

theorem searchOrder_eq :
    r.searchOrder = discovered.map Discovered.declared ++
      libraries.filter fun c => Undeclared discovered c.name := by
  obtain ⟨-, rfl⟩ := build_eq_ok_iff.1 hbuild
  rfl

end Built

end Resolver
end UnitLink
