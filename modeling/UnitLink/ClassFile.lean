import UnitLink.ClassUnit
import UnitLink.Text.Utf8
/-! Declarations in binary class files: the constant pool, the class header, and the names,
types and access flags of fields and methods. Attributes, method bodies among them, are
skipped, and so is whatever follows the class. -/
namespace UnitLink

inductive ClassFileFault where
  | badMagic (magic : Nat)
  | truncated (offset : Nat)
  | unknownTag (tag index : Nat)
  | notUtf8 (index : Nat)
  | notClass (index : Nat)
  | badMember (kind : MemberKind) (owner : ClassName) (fault : MemberFault)
  | otherClass (found : ClassName)
  deriving DecidableEq, Repr

/-- Eight hexadecimal digits. -/
def hexWord (n : Nat) : String :=
  let digits := Nat.toDigits 16 n
  String.ofList (List.replicate (8 - digits.length) '0' ++ digits)

/-- The messages of a fault, outermost first. -/
def ClassFileFault.chain : ClassFileFault → List String
  | badMagic magic => ["Not a class file: bad magic 0x" ++ hexWord magic]
  | truncated offset => [s!"Truncated class file at offset {offset}"]
  | unknownTag tag index => [s!"Unknown constant pool tag {tag} at index {index}"]
  | notUtf8 index => [s!"Constant pool index {index} isn't a UTF-8 entry"]
  | notClass index => [s!"Constant pool index {index} isn't a class entry"]
  | badMember kind owner fault =>
    ("Invalid " ++ kind.text ++ s!" in class `{owner}`") :: fault.chain
  | otherClass found => [s!"File declares class `{found}` instead"]

namespace ClassFile

/-- Bytes still to be read, and how many were read before them. -/
structure Input where
  offset : Nat
  rest : List UInt8
  deriving DecidableEq, Repr

abbrev Reader := StateT Input (Except ClassFileFault)

def takeExactly : Nat → List UInt8 → Option (List UInt8 × List UInt8)
  | 0, rest => some ([], rest)
  | _ + 1, [] => none
  | n + 1, b :: rest => (takeExactly n rest).map fun (taken, rest) => (b :: taken, rest)

/-- Taking bytes loses none and makes none up. -/
theorem takeExactly_eq_some_iff {n : Nat} {data taken rest : List UInt8} :
    takeExactly n data = some (taken, rest) ↔ taken.length = n ∧ data = taken ++ rest := by
  induction n generalizing data taken rest with
  | zero => constructor <;> grind [takeExactly]
  | succ n ih =>
    cases data with
    | nil =>
      refine ⟨fun h => by simp [takeExactly] at h, fun ⟨hlength, hdata⟩ => ?_⟩
      have := congrArg List.length hdata
      simp only [List.length_nil, List.length_append] at this
      omega
    | cons b data =>
      simp only [takeExactly, Option.map_eq_some_iff, Prod.exists, Prod.mk.injEq, ih]
      constructor
      · rintro ⟨taken, rest, ⟨hlength, hdata⟩, rfl, rfl⟩
        exact ⟨by rw [List.length_cons, hlength], by rw [hdata, List.cons_append]⟩
      · rintro ⟨hlength, hdata⟩
        obtain ⟨tail, rfl⟩ : ∃ tail, taken = b :: tail := by cases taken <;> simp_all
        exact ⟨tail, rest, ⟨by simpa using hlength, by simpa using hdata⟩, rfl, rfl⟩

def bytes (n : Nat) : Reader (List UInt8) := fun input =>
  match takeExactly n input.rest with
  | some (taken, rest) => .ok (taken, ⟨input.offset + n, rest⟩)
  | none => .error (.truncated input.offset)

def skip (n : Nat) : Reader Unit := discard (bytes n)

/-- The value of a big-endian byte sequence. -/
def bigEndian (bs : List UInt8) : Nat := bs.foldl (fun n b => 256 * n + b.toNat) 0

def u8 : Reader Nat := bigEndian <$> bytes 1
def u16 : Reader Nat := bigEndian <$> bytes 2
def u32 : Reader Nat := bigEndian <$> bytes 4

/-- Runs a reader a number of times. -/
def repeated {α : Type} (reader : Reader α) : Nat → Reader (List α)
  | 0 => pure []
  | n + 1 => do
    let first ← reader
    let others ← repeated reader n
    return first :: others

inductive Constant where
  | utf8 (text : List Char)
  | classRef (name : Nat)
  /-- An entry that declarations do not refer to, or the second index of a wide one. -/
  | other
  deriving DecidableEq, Repr

abbrev ConstantPool := Array Constant

/-- One entry, and whether it takes two indices. `index` is the entry's own. -/
def constant (index : Nat) : Reader (Constant × Bool) := do
  match ← u8 with
  | 1 => do
    let length ← u16
    let text ← bytes length
    return (.utf8 (Text.utf8Lossy text), false)
  | 7 => do
    let name ← u16
    return (.classRef name, false)
  | 8 | 16 | 19 | 20 => do skip 2; return (.other, false)
  | 15 => do skip 3; return (.other, false)
  | 3 | 4 | 9 | 10 | 11 | 12 | 17 | 18 => do skip 4; return (.other, false)
  | 5 | 6 => do skip 8; return (.other, true)
  | tag => throw (.unknownTag tag index)

/-- Reads entries until `count` indices are taken. -/
def constantsFrom (count : Nat) (pool : ConstantPool) : Reader ConstantPool :=
  if pool.size < count then do
    let (entry, wide) ← constant pool.size
    if wide then constantsFrom count ((pool.push entry).push .other)
    else constantsFrom count (pool.push entry)
  else pure pool
termination_by count - pool.size
decreasing_by all_goals simp only [Array.size_push]; omega

/-- Index 0 is never valid and holds a placeholder. -/
def constantPool : Reader ConstantPool := do constantsFrom (← u16) #[.other]

def utf8At (pool : ConstantPool) (index : Nat) : Reader (List Char) :=
  match pool[index]? with
  | some (.utf8 text) => pure text
  | _ => throw (.notUtf8 index)

def classAt (pool : ConstantPool) (index : Nat) : Reader ClassName :=
  match pool[index]? with
  | some (.classRef name) => return ClassName.ofChars (← utf8At pool name)
  | _ => throw (.notClass index)

def accessFlags : Reader Modifiers := do
  return Modifiers.ofAccessFlags (BitVec.ofNat 16 (← u16))

def skipAttributes : Reader Unit := do
  let count ← u16
  discard <| repeated (do skip 2; skip (← u32)) count

/-- A member's name and descriptor are put together and read as its signature is. -/
def member (kind : MemberKind) (pool : ConstantPool) (owner : ClassName) :
    Reader (Member kind) := do
  let modifiers ← accessFlags
  let name ← utf8At pool (← u16)
  let descriptor ← utf8At pool (← u16)
  skipAttributes
  match Member.parse owner (kind.signature (String.ofList name) (String.ofList descriptor))
      modifiers with
  | .ok member => return member
  | .error fault => throw (.badMember kind owner fault)

def magic : Nat := 0xCAFEBABE

def classUnit : Reader ClassUnit := do
  let found ← u32
  if found ≠ magic then throw (.badMagic found)
  skip 2
  skip 2
  let pool ← constantPool
  let modifiers ← accessFlags
  let name ← classAt pool (← u16)
  let superIndex ← u16
  let superclass ← if superIndex = 0 then pure none else some <$> classAt pool superIndex
  let interfaces ← repeated (do classAt pool (← u16)) (← u16)
  let fields ← repeated (member .field pool name) (← u16)
  let methods ← repeated (member .method pool name) (← u16)
  skipAttributes
  return { name, modifiers, superclass, interfaces, methods, fields }

/-- The class that a byte sequence starts with. -/
def parse (data : List UInt8) : Except ClassFileFault ClassUnit :=
  (classUnit.run ⟨0, data⟩).map Prod.fst

/-- The class of a name; a file may hold another one than its path says. -/
def parseNamed (name : ClassName) (data : List UInt8) : Except ClassFileFault ClassUnit := do
  let found ← parse data
  if found.name = name then return found else throw (.otherClass found.name)

end ClassFile
end UnitLink
