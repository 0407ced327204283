import UnitLink.ClassName
import UnitLink.Text.LowerCase
/-! Glue fields: the fields through which a class reaches the instances of the classes that
it depends on, in the order in which the dependencies were recorded. -/
namespace UnitLink

structure GlueFields where
  context : ClassName
  /-- Owners with their field names. -/
  fields : List (ClassName × String)
  /-- The field names that are taken. -/
  issued : List String
  deriving DecidableEq, Repr

namespace GlueFields

def find? (g : GlueFields) (owner : ClassName) : Option String := g.fields.lookup owner

def size (g : GlueFields) : Nat := g.fields.length

/-- The part of a field name before its number. -/
def stem (owner : ClassName) : String :=
  "glue$" ++ String.ofList (Text.lower owner.simple.toList)

/-- The first name from `counter` on that is not taken. Of as many candidates as there are
names taken, and one more, one is free. -/
def freshName (stem : String) (issued : List String) : (tries counter : Nat) → String
  | 0, counter => stem ++ toString counter
  | tries + 1, counter =>
    let candidate := stem ++ toString counter
    if candidate ∈ issued then freshName stem issued tries (counter + 1) else candidate

/-- Records a dependency, unless it already is recorded. A new field's number is the count
of earlier dependencies, or the next one that makes the name unused. -/
def record (g : GlueFields) (owner : ClassName) : GlueFields :=
  if (g.find? owner).isSome then g
  else
    let name := freshName (stem owner) g.issued g.issued.length g.size
    { g with fields := g.fields ++ [(owner, name)], issued := name :: g.issued }

/-- The execution context is always the first dependency. -/
def start (context : ClassName) : GlueFields := record ⟨context, [], []⟩ context

theorem record_of_isSome {g : GlueFields} {owner : ClassName} (h : (g.find? owner).isSome) :
    g.record owner = g := by
  simp [record, h]

theorem fields_record_of_eq_none {g : GlueFields} {owner : ClassName} (h : g.find? owner = none) :
    ∃ name, (g.record owner).fields = g.fields ++ [(owner, name)] := by
  simp [record, h]

@[simp] theorem context_record (g : GlueFields) (owner : ClassName) :
    (g.record owner).context = g.context := by
  unfold record
  split <;> rfl

@[simp] theorem isSome_find?_record (g : GlueFields) (owner : ClassName) :
    ((g.record owner).find? owner).isSome := by
  unfold record
  split
  · assumption
  · simp [find?, List.lookup_append]

end GlueFields
end UnitLink
