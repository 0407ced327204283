import UnitLink.Descriptor
/-! The grammar of descriptors. Whatever is built by its rules is read back in the parts that it
was built from, and what follows a type is left alone. Nothing else is read. -/
namespace UnitLink

/-- Field types: a code, a class, or an array of a field type. -/
inductive FieldType : List Char → Prop
  | code {c : Char} : Descriptor.isTypeCode c → FieldType [c]
  | object {name : List Char} : name ≠ [] → ';' ∉ name → FieldType ('L' :: (name ++ [';']))
  | array {type : List Char} : FieldType type → FieldType ('[' :: type)

/-- Method descriptors, with the types of their parameters. -/
inductive MethodType : List Char → List (List Char) → Prop
  | void {parameters : List (List Char)} : (∀ type ∈ parameters, FieldType type) →
      MethodType ('(' :: (parameters.flatten ++ [')', 'V'])) parameters
  | returns {parameters : List (List Char)} {result : List Char} :
      (∀ type ∈ parameters, FieldType type) → FieldType result →
      MethodType ('(' :: (parameters.flatten ++ ')' :: result)) parameters

namespace Descriptor

theorem takeType_array {d type rest : List Char} (h : takeType d = .ok (type, rest)) :
    takeType ('[' :: d) = .ok ('[' :: type, rest) := by
  unfold takeType at h ⊢
  rw [List.dropWhile_cons_of_pos rfl, List.takeWhile_cons_of_pos rfl]
  split at h
  · cases h
  · split at h
    · rename_i hcode
      obtain ⟨rfl, rfl⟩ := Prod.mk.inj (Except.ok.inj h)
      simp only [if_pos hcode]
      rfl
    · rename_i hcode
      split at h
      · rename_i hobject
        split at h
        · cases h
        · rename_i hclosed
          split at h
          · cases h
          · rename_i hname
            obtain ⟨rfl, rfl⟩ := Prod.mk.inj (Except.ok.inj h)
            simp only [if_neg hcode, if_pos hobject, if_neg hname]
            rfl
      · cases h

end Descriptor

namespace FieldType

open Descriptor

theorem takeType_append {type : List Char} (h : FieldType type) (rest : List Char) :
    takeType (type ++ rest) = .ok (type, rest) := by
  induction h with
  | @code c hcode =>
    have hbracket : (c == '[') = false := by
      cases hc : c == '[' with
      | false => rfl
      | true =>
        rw [eq_of_beq hc] at hcode
        cases hcode
    unfold takeType
    simp [hbracket, hcode]
  | @object name hname hclose =>
    have hopen : ∀ c ∈ name, (c != ';') = true := by
      intro c hc
      exact bne_iff_ne.2 fun heq => hclose (heq ▸ hc)
    unfold takeType
    simp [isTypeCode, List.takeWhile_append_of_pos hopen, List.dropWhile_append_of_pos hopen, hname]
  | array _ ih => exact takeType_array ih

theorem exists_head {type : List Char} (h : FieldType type) :
    ∃ c cs, type = c :: cs ∧ (isTypeCode c = true ∨ c = 'L' ∨ c = '[') := by
  cases h with
  | code hcode => exact ⟨_, _, rfl, .inl hcode⟩
  | object => exact ⟨_, _, rfl, .inr (.inl rfl)⟩
  | array => exact ⟨_, _, rfl, .inr (.inr rfl)⟩

theorem exists_last {type : List Char} (h : FieldType type) :
    ∃ cs c, type = cs ++ [c] ∧ (isTypeCode c = true ∨ c = ';') := by
  induction h with
  | code hcode => exact ⟨[], _, rfl, .inl hcode⟩
  | @object name => exact ⟨'L' :: name, ';', rfl, .inr rfl⟩
  | array _ ih =>
    obtain ⟨cs, c, rfl, hc⟩ := ih
    exact ⟨'[' :: cs, c, rfl, hc⟩

end FieldType

namespace Descriptor

theorem parametersFrom_append (whole : String) {parameters : List (List Char)}
    (h : ∀ type ∈ parameters, FieldType type) {result : List Char}
    (hresult : result = ['V'] ∨ FieldType result) :
    parametersFrom whole (parameters.flatten ++ ')' :: result) = .ok parameters := by
  induction parameters with
  | nil =>
    rw [List.flatten_nil, List.nil_append, parametersFrom]
    rcases hresult with rfl | hresult
    · rfl
    · split
      · rfl
      · have htake := hresult.takeType_append []
        rw [List.append_nil] at htake
        rw [htake]
  | cons type parameters ih =>
    have htype := h type List.mem_cons_self
    have hothers := ih fun other hother => h other (List.mem_cons_of_mem _ hother)
    have htake := htype.takeType_append (parameters.flatten ++ ')' :: result)
    obtain ⟨c, cs, rfl, hc⟩ := htype.exists_head
    have hopen : c ≠ ')' := by
      rintro rfl
      simp [isTypeCode] at hc
    rw [List.flatten_cons, List.append_assoc, List.cons_append]
    rw [List.cons_append] at htake
    rw [parametersFrom.eq_3 _ _ _ hopen]
    split
    · rename_i hfails
      rw [htake] at hfails
      cases hfails
    · rename_i taken rest htaken
      rw [htake] at htaken
      obtain ⟨rfl, rfl⟩ := Prod.mk.inj (Except.ok.inj htaken)
      rw [hothers]
      rfl

end Descriptor

theorem MethodType.parameterTypes {descriptor : List Char} {parameters : List (List Char)}
    (h : MethodType descriptor parameters) :
    Descriptor.parameterTypes descriptor = .ok parameters := by
  cases h with
  | void htypes => exact Descriptor.parametersFrom_append _ htypes (.inl rfl)
  | returns htypes hresult => exact Descriptor.parametersFrom_append _ htypes (.inr hresult)

/-! ### What is read -/

theorem FieldType.arrays {depth type : List Char} (hdepth : ∀ c ∈ depth, c = '[')
    (h : FieldType type) : FieldType (depth ++ type) := by
  induction depth with
  | nil => exact h
  | cons c depth ih =>
    obtain ⟨rfl, hothers⟩ := List.forall_mem_cons.1 hdepth
    exact .array (ih hothers)

namespace Descriptor

theorem fieldType_of_takeType {d type rest : List Char} (h : takeType d = .ok (type, rest)) :
    FieldType type := by
  have hdepth : ∀ c ∈ d.takeWhile (· == '['), c = '[' := fun c hc => by
    simpa using List.all_eq_true.1 List.all_takeWhile c hc
  unfold takeType at h
  split at h
  · cases h
  · rename_i code tail _
    split at h
    · rename_i hcode
      obtain ⟨rfl, rfl⟩ := Prod.mk.inj (Except.ok.inj h)
      exact .arrays hdepth (.code hcode)
    · split at h
      · rename_i hobject
        split at h
        · cases h
        · rename_i close after hclose
          split at h
          · cases h
          · rename_i hname
            obtain ⟨rfl, rfl⟩ := Prod.mk.inj (Except.ok.inj h)
            have hfree : ';' ∉ tail.takeWhile (· != ';') := fun hmem => by
              simpa using List.all_eq_true.1 List.all_takeWhile _ hmem
            obtain rfl : close = ';' := by
              have := List.head?_dropWhile_not (· != ';') tail
              simpa [hclose] using this
            rw [hobject, List.append_assoc, List.cons_append]
            exact .arrays hdepth (.object hname hfree)
      · cases h

theorem takeType_eq_whole_iff {d type : List Char} :
    takeType d = .ok (type, []) ↔ d = type ∧ FieldType d := by
  constructor
  · intro h
    obtain ⟨rfl, -⟩ := takeType_append h
    rw [List.append_nil]
    exact ⟨rfl, fieldType_of_takeType h⟩
  · rintro ⟨rfl, h⟩
    simpa using h.takeType_append []

theorem parts_of_parametersFrom {whole : String} {d : List Char} {parameters : List (List Char)}
    (h : parametersFrom whole d = .ok parameters) :
    ∃ result, d = parameters.flatten ++ ')' :: result ∧ (result = ['V'] ∨ FieldType result) ∧
      ∀ type ∈ parameters, FieldType type := by
  fun_induction parametersFrom whole d generalizing parameters with
  | case1 => cases h
  | case2 =>
    obtain rfl := Except.ok.inj h
    exact ⟨_, rfl, .inl rfl, by simp⟩
  | case3 => cases h
  | case4 result hvoid type hresult =>
    obtain rfl := Except.ok.inj h
    obtain ⟨-, htype⟩ := takeType_eq_whole_iff.1 hresult
    exact ⟨result, rfl, .inr htype, by simp⟩
  | case5 => cases h
  | case6 => cases h
  | case7 c cs hopen type rest htype ih =>
    cases hmore : parametersFrom whole rest with
    | error fault =>
      rw [hmore] at h
      cases h
    | ok others =>
      rw [hmore] at h
      obtain rfl := Except.ok.inj h
      obtain ⟨result, rfl, hresult, hothers⟩ := ih hmore
      refine ⟨result, ?_, hresult, List.forall_mem_cons.2 ⟨fieldType_of_takeType htype, hothers⟩⟩
      rw [(takeType_append htype).1, List.flatten_cons, List.append_assoc]

end Descriptor

theorem MethodType.of_parameterTypes {descriptor : List Char} {parameters : List (List Char)}
    (h : Descriptor.parameterTypes descriptor = .ok parameters) :
    MethodType descriptor parameters := by
  unfold Descriptor.parameterTypes at h
  split at h
  · obtain ⟨result, rfl, rfl | hresult, htypes⟩ := Descriptor.parts_of_parametersFrom h
    · exact .void htypes
    · exact .returns htypes hresult
  · cases h

end UnitLink
