import UnitLink.Text.Blank
/-! Modifier flags of classes and members, and the keywords that spell them. -/
namespace UnitLink

inductive Keyword where
  | isPublic | isPrivate | isProtected | isStatic | isFinal | isSynchronized | isVolatile
  | isTransient | isNative | isInterface | isAbstract | isStrict | isSynthetic
  | isAnnotation | isEnum
  deriving DecidableEq, Repr

namespace Keyword

/-- The order in which the assembler expects keywords. -/
def all : List Keyword :=
  [isPublic, isPrivate, isProtected, isStatic, isFinal, isSynchronized, isVolatile,
    isTransient, isNative, isInterface, isAbstract, isStrict, isSynthetic, isAnnotation, isEnum]

def text : Keyword → String
  | isPublic => "public"
  | isPrivate => "private"
  | isProtected => "protected"
  | isStatic => "static"
  | isFinal => "final"
  | isSynchronized => "synchronized"
  | isVolatile => "volatile"
  | isTransient => "transient"
  | isNative => "native"
  | isInterface => "interface"
  | isAbstract => "abstract"
  | isStrict => "strict"
  | isSynthetic => "synthetic"
  | isAnnotation => "annotation"
  | isEnum => "enum"

/-- The keyword's bit in a class file's access flags. -/
def bit (k : Keyword) : Nat := k.ctorIdx

def ofText? (word : String) : Option Keyword := all.find? fun k => k.text == word

@[simp] theorem mem_all (k : Keyword) : k ∈ all := by cases k <;> decide

theorem bit_lt (k : Keyword) : k.bit < 15 := by cases k <;> decide

@[simp] theorem ofText?_text (k : Keyword) : ofText? k.text = some k := by cases k <;> decide

end Keyword

/-- A set of keywords, one bit for each. -/
structure Modifiers where
  bits : BitVec 15
  deriving DecidableEq, Repr

namespace Modifiers

def empty : Modifiers := ⟨0⟩

/-- The sixteenth access flag has no meaning and is dropped. -/
def ofAccessFlags (flags : BitVec 16) : Modifiers := ⟨flags.setWidth 15⟩

def has (m : Modifiers) (k : Keyword) : Bool := m.bits.getLsbD k.bit

def union (a b : Modifiers) : Modifiers := ⟨a.bits ||| b.bits⟩

def without (a b : Modifiers) : Modifiers := ⟨a.bits &&& ~~~b.bits⟩

def single (k : Keyword) : Modifiers := ⟨BitVec.twoPow 15 k.bit⟩

/-- Reads a list of keywords between white space; fails with the first other word. -/
def parse (cs : List Char) : Except String Modifiers :=
  (Text.words cs).foldlM (fun m word =>
    match Keyword.ofText? (String.ofList word) with
    | some k => .ok (m.union (single k))
    | none => .error (String.ofList word)) empty

/-- The keywords in the assembler's order, with single spaces. -/
def keywords (m : Modifiers) : String :=
  " ".intercalate ((Keyword.all.filter m.has).map Keyword.text)

instance : Inhabited Modifiers := ⟨empty⟩

@[simp] theorem has_empty (k : Keyword) : empty.has k = false := by simp [empty, has]

@[simp] theorem has_union (a b : Modifiers) (k : Keyword) :
    (a.union b).has k = (a.has k || b.has k) := by simp [union, has]

@[simp] theorem has_single (k l : Keyword) : (single k).has l = decide (k = l) := by
  cases k <;> cases l <;> rfl

@[simp] theorem has_without (a b : Modifiers) (k : Keyword) :
    (a.without b).has k = (a.has k && !b.has k) := by
  have := k.bit_lt
  simp [without, has, this]

end Modifiers
end UnitLink
