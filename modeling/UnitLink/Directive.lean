import UnitLink.Text.Blank
import UnitLink.Text.Decimal
import UnitLink.Text.Utf8
/-! Linker directives in assembly text.

A directive is a whole line: indentation, `;@`, a name, and any number of `|key=value`
attributes. To the assembler it is a comment. -/
namespace UnitLink

inductive DirectiveKind where
  | classHeader | field | method | invokeBegin | invokeEnd | readField | classOf
  | glueFields | glueInit
  deriving DecidableEq, Repr

namespace DirectiveKind

def all : List DirectiveKind :=
  [classHeader, field, method, invokeBegin, invokeEnd, readField, classOf, glueFields, glueInit]

def text : DirectiveKind → String
  | classHeader => "class"
  | field => "field"
  | method => "method"
  | invokeBegin => "invoke-begin"
  | invokeEnd => "invoke-end"
  | readField => "read-field"
  | classOf => "class-of"
  | glueFields => "glue-fields"
  | glueInit => "glue-init"

def ofText? (name : String) : Option DirectiveKind := all.find? fun k => k.text == name

@[simp] theorem ofText?_text (k : DirectiveKind) : ofText? k.text = some k := by
  cases k <;> decide

end DirectiveKind

inductive DirectiveFault where
  /-- Text that is no directive from byte `offset` of `rest` on. -/
  | malformed (body rest : String) (offset : Nat)
  | unknownName (name : String)
  | repeatedKey (key body : String)
  | missingAttribute (kind : DirectiveKind) (key : String)
  | notFlag (kind : DirectiveKind) (key value : String)
  | notNumber (kind : DirectiveKind) (key value : String)
  | badPending (value : Nat)
  deriving DecidableEq, Repr

def DirectiveFault.message : DirectiveFault → String
  | malformed body rest offset =>
    let column := String.ofList (List.replicate offset ' ')
    s!"malformed directive `{body}`:\n{rest}\n{column}^\n"
  | unknownName name => s!"unknown directive `;@{name}`"
  | repeatedKey key body => s!"attribute `{key}` given more than once in `{body}`"
  | missingAttribute kind key =>
    "directive `;@" ++ kind.text ++ s!"` requires attribute `{key}`"
  | notFlag kind key value =>
    s!"attribute `{key}` of `;@" ++ kind.text ++ s!"` must be true or false, got `{value}`"
  | notNumber kind key value =>
    s!"attribute `{key}` of `;@" ++ kind.text ++ s!"` must be a number, got `{value}`"
  | badPending value => s!"`pending` must be 0 or 1, got {value}"

structure Directive where
  kind : DirectiveKind
  /-- The white space before `;@`. -/
  indent : String
  attributes : List (String × String)
  deriving DecidableEq, Repr

namespace Directive

/-- Characters of directive names and attribute keys. -/
def isNameChar (c : Char) : Bool :=
  ('a' ≤ c && c ≤ 'z') || ('A' ≤ c && c ≤ 'Z') || ('0' ≤ c && c ≤ '9') || c == '-' || c == '_'

/-- One `|key=value` off the front. A value ends at the next `|`. -/
def takeAttribute (cs : List Char) : Option ((List Char × List Char) × List Char) :=
  match cs with
  | '|' :: cs =>
    if cs.takeWhile isNameChar = [] then none
    else match cs.dropWhile isNameChar with
      | '=' :: value =>
        some ((cs.takeWhile isNameChar, value.takeWhile (· != '|')), value.dropWhile (· != '|'))
      | _ => none
  | _ => none

private theorem length_dropWhile_le (p : Char → Bool) (cs : List Char) :
    (cs.dropWhile p).length ≤ cs.length :=
  (List.dropWhile_suffix p).sublist.length_le

theorem length_lt_of_takeAttribute {cs rest : List Char} {a : List Char × List Char}
    (h : takeAttribute cs = some (a, rest)) : rest.length < cs.length := by
  unfold takeAttribute at h
  split at h
  · rename_i tail
    split at h
    · simp at h
    · split at h
      · rename_i value hvalue
        simp only [Option.some.injEq, Prod.mk.injEq] at h
        have h₁ := length_dropWhile_le isNameChar tail
        have h₂ := length_dropWhile_le (· != '|') value
        rw [hvalue] at h₁
        rw [← h.2]
        simp only [List.length_cons] at h₁ ⊢
        omega
      · simp at h
  · simp at h

/-- As many attributes as stand at the front, and what follows them. -/
def takeAttributes (cs : List Char) : List (List Char × List Char) × List Char :=
  match _h : takeAttribute cs with
  | none => ([], cs)
  | some (first, rest) =>
    let (others, rest) := takeAttributes rest
    (first :: others, rest)
termination_by cs.length
decreasing_by exact length_lt_of_takeAttribute _h

theorem takeAttributes_of_none {cs : List Char} (h : takeAttribute cs = none) :
    takeAttributes cs = ([], cs) := by
  rw [takeAttributes.eq_def]
  split
  · rfl
  · rename_i heq
    rw [h] at heq
    cases heq

theorem takeAttributes_of_some {cs rest : List Char} {first : List Char × List Char}
    (h : takeAttribute cs = some (first, rest)) :
    takeAttributes cs = (first :: (takeAttributes rest).1, (takeAttributes rest).2) := by
  rw [takeAttributes.eq_def]
  split
  · rename_i heq
    rw [h] at heq
    cases heq
  · rename_i heq
    rw [h] at heq
    obtain ⟨rfl, rfl⟩ := Prod.mk.inj (Option.some.inj heq)
    rfl

/-- The first key that an earlier attribute already has. -/
def repeatedKey? : (seen : List (List Char)) → List (List Char × List Char) → Option (List Char)
  | _, [] => none
  | seen, (key, _) :: rest => if key ∈ seen then some key else repeatedKey? (key :: seen) rest

/-- Reads what follows `;@`. -/
def parseBody (indent body rest : List Char) : Except DirectiveFault Directive :=
  let name := rest.takeWhile isNameChar
  let (attributes, unread) := takeAttributes (rest.dropWhile isNameChar)
  if name = [] then
    .error (.malformed (String.ofList body) (String.ofList rest) 0)
  else if unread ≠ [] then
    .error (.malformed (String.ofList body) (String.ofList rest)
      (Text.utf8Length rest - Text.utf8Length unread))
  else match DirectiveKind.ofText? (String.ofList name) with
    | none => .error (.unknownName (String.ofList name))
    | some kind =>
      match repeatedKey? [] attributes with
      | some key => .error (.repeatedKey (String.ofList key) (String.ofList body))
      | none => .ok {
          kind
          indent := String.ofList indent
          attributes := attributes.map fun (key, value) =>
            (String.ofList key, String.ofList (Text.trim value)) }

/-- Reads a line; `none` if it is no directive at all. -/
def parse (line : String) : Except DirectiveFault (Option Directive) :=
  let line := Text.trimEnd line.toList
  let body := line.dropWhile Text.isBlank
  match body with
  | ';' :: '@' :: rest => (parseBody (line.takeWhile Text.isBlank) body rest).map some
  | _ => .ok none

/-- The value of an attribute, without the white space around it. -/
def value? (d : Directive) (key : String) : Option String := d.attributes.lookup key

def required (d : Directive) (key : String) : Except DirectiveFault String :=
  match d.value? key with
  | none | some "" => .error (.missingAttribute d.kind key)
  | some value => .ok value

/-- A truth value; an absent attribute is false. -/
def flag (d : Directive) (key : String) : Except DirectiveFault Bool :=
  match d.value? key with
  | none | some "false" | some "0" => .ok false
  | some "true" | some "1" => .ok true
  | some value => .error (.notFlag d.kind key value)

/-- A number of at most sixteen bits; an absent attribute has the default. -/
def number (d : Directive) (key : String) (default : Nat) : Except DirectiveFault Nat :=
  match d.value? key with
  | none => .ok default
  | some value =>
    match Text.numeral 0xFFFF value.toList with
    | .ok n => .ok n
    | .error _ => .error (.notNumber d.kind key value)

/-- Whether an operand was pushed before the receiver of an invocation is loaded. -/
def pending (d : Directive) : Except DirectiveFault Bool := do
  match ← d.number "pending" 0 with
  | 0 => return false
  | 1 => return true
  | n => throw (.badPending n)

end Directive
end UnitLink
