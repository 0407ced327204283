import UnitLink.Text.Blank
/-! Names of class-like units. A name is written with `.` or `/` between packages; the
slashed form is the one that is kept, so that both spellings are one name. -/
namespace UnitLink

def slashed (cs : List Char) : List Char := cs.map fun c => if c = '.' then '/' else c

structure ClassName where
  text : String
  dotFree : '.' ∉ text.toList
  deriving DecidableEq, Hashable, Repr

namespace ClassName

theorem dot_not_mem_slashed (cs : List Char) : '.' ∉ slashed cs := by
  intro h
  obtain ⟨c, _, hc⟩ := List.mem_map.1 h
  split at hc <;> simp_all

def ofChars (cs : List Char) : ClassName :=
  ⟨String.ofList (slashed cs), by simpa using dot_not_mem_slashed cs⟩

def ofString (s : String) : ClassName := ofChars s.toList

def chars (name : ClassName) : List Char := name.text.toList

/-- The name without its package. -/
def simple (name : ClassName) : String :=
  match Text.cutLast (· == '/') name.chars with
  | some (_, simple) => String.ofList simple
  | none => name.text

/-- The package, empty for a name without one. -/
def package (name : ClassName) : String :=
  match Text.cutLast (· == '/') name.chars with
  | some (package, _) => String.ofList package
  | none => ""

/-- The field type of the class's instances. -/
def descriptor (name : ClassName) : String := "L" ++ name.text ++ ";"

instance : ToString ClassName := ⟨text⟩

instance : Inhabited ClassName := ⟨ofString ""⟩

/-- Names are ordered by their characters, as their UTF-8 bytes are. -/
instance : Ord ClassName := ⟨fun a b => compare a.text b.text⟩

@[ext] theorem ext {a b : ClassName} (h : a.text = b.text) : a = b := by
  cases a; cases b; simp_all

@[simp] theorem chars_ofChars (cs : List Char) : (ofChars cs).chars = slashed cs := by
  simp [ofChars, chars]

theorem slashed_eq_self {cs : List Char} (h : '.' ∉ cs) : slashed cs = cs := by
  refine (List.map_congr_left fun c hc => ?_).trans (List.map_id cs)
  have : c ≠ '.' := fun hdot => h (by rwa [hdot] at hc)
  simp [this]

end ClassName
end UnitLink
