import UnitLink.Proofs.MemoryLinks
import UnitLink.Proofs.UnqualifiedSearch
/-! More libraries and a place for what resolves nowhere do not change a job that links without
them. The classes of further libraries stand last in the search order, and where a loader has a
class under its own name it makes no difference whether the class was loaded beforehand. A
catch-all target is what remains when a search has failed, and in such a job none has. -/
namespace UnitLink

variable {σ τ : Type} {load : ClassName → LoadAnswer} {size : Nat}

namespace Resolver

variable {r r' : Resolver}

/-- Where the loader has the libraries under their own names, a lookup cannot tell what has been
loaded beforehand. -/
theorem lookedUp_eq_of_named (h : ∀ c ∈ r.libraries, load c.name = .found c) (name : ClassName) :
    r.lookedUp load name =
      match r.jobClass? name with
      | some c => .ok (.ok c)
      | none => ofAnswer (load name) := by
  unfold lookedUp
  cases r.jobClass? name with
  | some c => rfl
  | none =>
    cases hpre : r.preloaded name with
    | some c =>
      obtain ⟨hc, rfl⟩ := of_preloaded hpre
      rw [h c hc]
      rfl
    | none => rfl

/-- A resolver with further libraries behind its own. -/
structure Appends (r r' : Resolver) (further : List ClassUnit) : Prop where
  jobClasses_eq : r'.jobClasses = r.jobClasses
  libraries_eq : r'.libraries = r.libraries ++ further
  reach_le : r.reach ≤ r'.reach

variable {further : List ClassUnit}

theorem Appends.searchOrder_eq (h : r.Appends r' further) :
    r'.searchOrder = r.searchOrder ++ further := by
  rw [searchOrder, searchOrder, h.jobClasses_eq, h.libraries_eq, List.append_assoc]

theorem Appends.extends (h : r.Appends r' further)
    (hnamed : ∀ c ∈ r'.libraries, load c.name = .found c) : r.Extends load r' where
  lookedUp_eq name := by
    have hnamed' : ∀ c ∈ r.libraries, load c.name = .found c := fun c hc =>
      hnamed c (h.libraries_eq ▸ List.mem_append_left _ hc)
    rw [lookedUp_eq_of_named hnamed, lookedUp_eq_of_named hnamed', jobClass?, h.jobClasses_eq]
    rfl
  reach_le := h.reach_le

theorem firstPublic?_append (kind : MemberKind) (parsed : Signature) (cs ds : List ClassUnit) :
    firstPublic? kind parsed (cs ++ ds) =
      (firstPublic? kind parsed cs).or (firstPublic? kind parsed ds) :=
  List.findSome?_append

/-- What is found in the search order is found before all that is appended to it, and before the
catch-all target. -/
theorem Appends.unqualified? (h : r.Appends r' further) (hnone : r.unresolved = none)
    {kind : MemberKind} {parsed : Signature} {reference : Reference kind}
    (hfound : r.unqualified? kind parsed = some reference) :
    r'.unqualified? kind parsed = some reference := by
  unfold Resolver.unqualified? at hfound ⊢
  rw [hnone, Option.map_none] at hfound
  have hfirst : firstPublic? kind parsed r.searchOrder = some reference := by simpa using hfound
  have happend : firstPublic? kind parsed r'.searchOrder = some reference := by
    rw [h.searchOrder_eq, firstPublic?_append, hfirst]
    rfl
  rw [happend]
  rfl

theorem unresolved_of_build {loader : Loader τ} {discovered : List Discovered}
    {libraries : List ClassUnit} {unresolved : Option ClassName}
    (h : build discovered libraries unresolved loader = .ok r) : r.unresolved = unresolved := by
  obtain ⟨-, rfl⟩ := build_eq_ok_iff.1 h
  rfl

end Resolver

namespace Job

variable {job : Job Unit MemoryStore} {discovered : List (Source MemoryStore × ClassUnit)}
  {r : Resolver}

def asking : ClassUnit :=
  ⟨⟨.ofString "A", .empty, some (.ofString "java/lang/Object"), []⟩, [], []⟩

end Job
end UnitLink
