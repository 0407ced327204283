/-! Field types and method descriptors.

A field type is any number of `[` before a type code or before `L`, a class name and
`;`. A method descriptor is a list of field types between parentheses and then a field
type or `V`. -/
namespace UnitLink

inductive DescriptorFault where
  | noParameterList (descriptor : String)
  | unterminatedParameters (descriptor : String)
  | afterReturnType (descriptor : String)
  | missingType (descriptor : String)
  | badTypeCode (code : Char) (descriptor : String)
  | unterminatedClass (descriptor : String)
  | emptyClass (descriptor : String)
  deriving DecidableEq, Repr

def DescriptorFault.message : DescriptorFault → String
  | noParameterList d => s!"method descriptor `{d}` doesn't start with `(`"
  | unterminatedParameters d => s!"unterminated parameter list in `{d}`"
  | afterReturnType d => s!"trailing characters after return type in `{d}`"
  | missingType d => s!"missing type in `{d}`"
  | badTypeCode code d => s!"invalid type code `{code}` in `{d}`"
  | unterminatedClass d => s!"unterminated class type in `{d}`"
  | emptyClass d => s!"empty class type in `{d}`"

namespace Descriptor

/-- The codes of the types that are not references. -/
def isTypeCode (c : Char) : Bool :=
  match c with
  | 'B' | 'C' | 'D' | 'F' | 'I' | 'J' | 'S' | 'Z' => true
  | _ => false

/-- Takes one field type off the front; the second part is what follows it. -/
def takeType (d : List Char) : Except DescriptorFault (List Char × List Char) :=
  match d.dropWhile (· == '[') with
  | [] => .error (.missingType (String.ofList d))
  | code :: rest =>
    if isTypeCode code then .ok (d.takeWhile (· == '[') ++ [code], rest)
    else if code = 'L' then
      match rest.dropWhile (· != ';') with
      | [] => .error (.unterminatedClass (String.ofList d))
      | close :: after =>
        if rest.takeWhile (· != ';') = [] then .error (.emptyClass (String.ofList d))
        else .ok (d.takeWhile (· == '[') ++ code :: rest.takeWhile (· != ';') ++ [close], after)
    else .error (.badTypeCode code (String.ofList d))

/-- A type is cut off, not changed, and is never empty. -/
theorem takeType_append {d type rest : List Char} (h : takeType d = .ok (type, rest)) :
    d = type ++ rest ∧ type ≠ [] := by
  unfold takeType at h
  have hd := List.takeWhile_append_dropWhile (p := (· == '[')) (l := d)
  split at h
  · simp at h
  · rename_i code tail hdrop
    rw [hdrop] at hd
    split at h
    · simp only [Except.ok.injEq, Prod.mk.injEq] at h
      obtain ⟨rfl, rfl⟩ := h
      exact ⟨by simpa using hd.symm, by simp⟩
    · split at h
      · have ht := List.takeWhile_append_dropWhile (p := (· != ';')) (l := tail)
        split at h
        · simp at h
        · rename_i close after hclose
          rw [hclose] at ht
          split at h
          · simp at h
          · simp only [Except.ok.injEq, Prod.mk.injEq] at h
            obtain ⟨rfl, rfl⟩ := h
            refine ⟨?_, by simp⟩
            generalize List.takeWhile (· == '[') d = depth at hd ⊢
            generalize List.takeWhile (· != ';') tail = name at ht ⊢
            simp [← hd, ← ht]
      · simp at h

theorem length_lt_of_takeType {d type rest : List Char} (h : takeType d = .ok (type, rest)) :
    rest.length < d.length := by
  obtain ⟨rfl, hne⟩ := takeType_append h
  have := List.length_pos_iff.2 hne
  simp only [List.length_append]
  omega

/-- Reads parameter types up to the closing parenthesis and checks the return type;
`whole` is the descriptor for messages. -/
def parametersFrom (whole : String) (d : List Char) :
    Except DescriptorFault (List (List Char)) :=
  match d with
  | [] => .error (.unterminatedParameters whole)
  | ')' :: result =>
    if result = ['V'] then .ok []
    else match takeType result with
      | .error fault => .error fault
      | .ok (_, []) => .ok []
      | .ok (_, _ :: _) => .error (.afterReturnType whole)
  | c :: cs =>
    match _h : takeType (c :: cs) with
    | .error fault => .error fault
    | .ok (type, rest) => (parametersFrom whole rest).map (type :: ·)
termination_by d.length
decreasing_by exact length_lt_of_takeType _h

/-- The parameter types of a well-formed method descriptor. -/
def parameterTypes (d : List Char) : Except DescriptorFault (List (List Char)) :=
  match d with
  | '(' :: rest => parametersFrom (String.ofList d) rest
  | _ => .error (.noParameterList (String.ofList d))

/-- Operand stack slots of one argument: two for the bare wide types, one for all
others, arrays of wide types among them. -/
def typeSlots (type : List Char) : Nat :=
  match type.head? with
  | some 'J' | some 'D' => 2
  | _ => 1

/-- Sixteen bits hold the sum up to 65535. -/
def slots (types : List (List Char)) : Nat := types.foldr (fun type n => typeSlots type + n) 0

end Descriptor
end UnitLink
