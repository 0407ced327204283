import Mathlib.Algebra.GroupWithZero.Nat
import UnitLink.Proofs.MemberSignatures
import UnitLink.Proofs.ResolverCalls
/-! What method descriptors are made of, and what the arguments of a method weigh. A descriptor
is taken apart in one way, and each parameter takes up the slots of its type. A method that a
resolver refers to has the descriptor of the signature that it was asked for, so that the weight
of its arguments is known. -/
namespace UnitLink

namespace Descriptor

/-- Types as they are written: brackets, and after them a code, or a name from `L` to the first
semicolon. -/
inductive TypeText : List Char → Prop
  | code (depth : Nat) {c : Char} : c ∈ ['B', 'C', 'D', 'F', 'I', 'J', 'S', 'Z'] →
      TypeText (List.replicate depth '[' ++ [c])
  | object (depth : Nat) {name : List Char} : name ≠ [] → ';' ∉ name →
      TypeText (List.replicate depth '[' ++ 'L' :: (name ++ [';']))

/-- A descriptor is these parameters in parentheses and this result after them. -/
structure Decomposes (d : List Char) (parameters : List (List Char)) (result : List Char) :
    Prop where
  text_eq : d = '(' :: (parameters.flatten ++ ')' :: result)
  parameters : ∀ type ∈ parameters, TypeText type
  result : result = ['V'] ∨ TypeText result

/-- The slots that an argument of the type takes up. -/
def width (type : List Char) : Nat := if type = ['J'] ∨ type = ['D'] then 2 else 1

theorem isTypeCode_iff {c : Char} :
    isTypeCode c = true ↔ c ∈ ['B', 'C', 'D', 'F', 'I', 'J', 'S', 'Z'] := by
  unfold isTypeCode
  split <;> simp_all

theorem TypeText.array {type : List Char} (h : TypeText type) : TypeText ('[' :: type) := by
  cases h with
  | code depth hcode => exact .code (depth + 1) hcode
  | object depth hname hfree => exact .object (depth + 1) hname hfree

theorem fieldType_iff_typeText {type : List Char} : FieldType type ↔ TypeText type := by
  constructor
  · intro h
    induction h with
    | code hcode => exact .code 0 (isTypeCode_iff.1 hcode)
    | object hname hfree => exact .object 0 hname hfree
    | array _ ih => exact ih.array
  · intro h
    cases h with
    | code depth hcode =>
      exact .arrays (fun c hc => List.eq_of_mem_replicate hc) (.code (isTypeCode_iff.2 hcode))
    | object depth hname hfree =>
      exact .arrays (fun c hc => List.eq_of_mem_replicate hc) (.object hname hfree)

theorem methodType_iff_decomposes {d : List Char} {parameters : List (List Char)} :
    MethodType d parameters ↔ ∃ result, Decomposes d parameters result := by
  constructor
  · intro h
    cases h with
    | void htypes =>
      exact ⟨_, rfl, fun type hmem => fieldType_iff_typeText.1 (htypes type hmem), .inl rfl⟩
    | returns htypes hresult =>
      exact ⟨_, rfl, fun type hmem => fieldType_iff_typeText.1 (htypes type hmem),
        .inr (fieldType_iff_typeText.1 hresult)⟩
  · rintro ⟨result, rfl, hparameters, hresult⟩
    have htypes : ∀ type ∈ parameters, FieldType type :=
      fun type hmem => fieldType_iff_typeText.2 (hparameters type hmem)
    rcases hresult with rfl | hresult
    · exact .void htypes
    · exact .returns htypes (fieldType_iff_typeText.2 hresult)

theorem parameterTypes_eq_ok_iff {d : List Char} {parameters : List (List Char)} :
    parameterTypes d = .ok parameters ↔ ∃ result, Decomposes d parameters result := by
  rw [← methodType_iff_decomposes]
  exact ⟨MethodType.of_parameterTypes, MethodType.parameterTypes⟩

/-- The parameters are what is read of the descriptor, and the result is what is left of it. -/
theorem Decomposes.unique {d result result' : List Char} {parameters parameters' : List (List Char)}
    (h : Decomposes d parameters result) (h' : Decomposes d parameters' result') :
    parameters = parameters' ∧ result = result' := by
  have hread := parameterTypes_eq_ok_iff.2 ⟨result, h⟩
  rw [parameterTypes_eq_ok_iff.2 ⟨result', h'⟩] at hread
  obtain rfl := Except.ok.inj hread
  have hrest := List.append_cancel_left (List.cons.inj (h.text_eq.symm.trans h'.text_eq)).2
  exact ⟨rfl, (List.cons.inj hrest).2⟩

theorem TypeText.typeSlots_eq {type : List Char} (h : TypeText type) :
    typeSlots type = width type := by
  -- without brackets the slots go by the code, and a bracket or an `L` at the start makes it one
  cases h with
  | code depth hcode =>
    cases depth with
    | zero =>
      simp only [List.mem_cons, List.not_mem_nil, or_false] at hcode
      rcases hcode with rfl | rfl | rfl | rfl | rfl | rfl | rfl | rfl <;> decide
    | succ depth => simp [List.replicate_succ, typeSlots, width]
  | object depth =>
    cases depth with
    | zero => simp [typeSlots, width]
    | succ depth => simp [List.replicate_succ, typeSlots, width]

theorem slots_eq_sum {types : List (List Char)} (h : ∀ type ∈ types, TypeText type) :
    slots types = (types.map width).sum := by
  induction types with
  | nil => rfl
  | cons type types ih =>
    obtain ⟨htype, hothers⟩ := List.forall_mem_cons.1 h
    have hcons : slots (type :: types) = typeSlots type + slots types := rfl
    rw [hcons, htype.typeSlots_eq, ih hothers, List.map_cons, List.sum_cons]

end Descriptor

/-! ### References to methods -/

namespace Reference

/-- A reference to a method weighs its arguments: its text holds the descriptor that it has, the
descriptor decomposes, and the receiver is counted with the parameters. -/
structure Weighed (reference : Reference .method) (descriptor : String) : Prop where
  descriptor_eq : reference.descriptor = descriptor
  descriptorText_eq : reference.descriptorText = descriptor
  argumentCount_eq : ∃ parameters result,
    Descriptor.Decomposes descriptor.toList parameters result ∧
      reference.argumentCount = .ok ((parameters.map Descriptor.width).sum + 1)

theorem descriptorText_eq {reference : Reference .method}
    (hname : '(' ∉ reference.name.toList) (hopens : reference.descriptor.toList.head? = some '(') :
    reference.descriptorText = reference.descriptor := by
  have hopen : ∀ c ∈ reference.name.toList, (c != '(') = true :=
    fun c hc => bne_iff_ne.2 fun heq => hname (heq ▸ hc)
  have hmember :
      reference.member.toList = reference.name.toList ++ reference.descriptor.toList := by
    rw [member, MemberKind.toList_signature, MemberKind.gap, List.append_nil]
  obtain ⟨tail, htail⟩ := List.head?_eq_some_iff.1 hopens
  have hdrop : reference.descriptor.toList.dropWhile (· != '(') = reference.descriptor.toList := by
    rw [htail]
    rfl
  rw [descriptorText, hmember, List.dropWhile_append_of_pos hopen, hdrop, String.ofList_toList]

end Reference

theorem Resolver.SpelledBy.weighed {reference : Reference .method} {signature : String}
    (h : SpelledBy reference signature) :
    ∃ parsed, Signature.parse .method signature = .ok parsed ∧
      reference.Weighed parsed.descriptor := by
  obtain ⟨parsed, hparsed, hname, hdescriptor⟩ := h
  have hwrites := Signature.parse_eq_ok_iff.1 hparsed
  obtain ⟨parameters, htype⟩ := hwrites.describes
  obtain ⟨result, hdecomposes⟩ := Descriptor.methodType_iff_decomposes.1 htype
  -- a name holds no parenthesis, so the first one of the text is that of the descriptor
  have htext : reference.descriptorText = reference.descriptor := by
    refine Reference.descriptorText_eq (fun hopen => ?_) ?_
    · have hkept := hwrites.name.2.1 '(' (hname ▸ hopen)
      cases hkept
    · rw [hdescriptor, hdecomposes.text_eq]
      rfl
  refine ⟨parsed, hparsed, hdescriptor, htext.trans hdescriptor, parameters, result,
    hdecomposes, ?_⟩
  rw [Reference.argumentCount, hdescriptor, htype.parameterTypes,
    ← Descriptor.slots_eq_sum hdecomposes.parameters]
  rfl

namespace ResolverCall

open Resolver (Resolving SpelledBy)

def signature? : ResolverCall → Option (MemberKind × String)
  | lookup _ => none
  | resolve kind signature _ => some (kind, signature)
  | resolveLocal kind signature _ => some (kind, signature)

variable {τ : Type} (r : Resolver) (loader : Loader τ)

theorem ask_spelled (call : ResolverCall) :
    (call.ask r : Resolving τ _).run.Meets (r.protocol loader) fun answer =>
      ∀ {kind : MemberKind} (reference : Reference kind), answer = .ok (.reference reference) →
        ∃ signature, call.signature? = some (kind, signature) ∧ SpelledBy reference signature := by
  cases call with
  | lookup name =>
    have hlookup : r.Delivers loader (ask r (lookup name)) fun answer =>
        ∃ found, answer = .lookup found :=
      (Resolver.lookup_delivers name).bind fun found _ => Resolver.delivers_pure ⟨found, rfl⟩
    refine Session.Meets.mono hlookup ?_
    rintro _ hfound kind reference rfl
    obtain ⟨found, hfound⟩ := hfound
    cases hfound
  | resolve kind signature referrer =>
    have hresolve : r.Delivers loader (ask r (resolve kind signature referrer)) fun answer =>
        ∃ reference : Reference kind, answer = .reference reference ∧
          SpelledBy reference signature :=
      (Resolver.resolve_delivers signature referrer).bind fun reference hspelled =>
        Resolver.delivers_pure ⟨reference, rfl, hspelled⟩
    refine Session.Meets.mono hresolve ?_
    rintro _ hfound kind' reference rfl
    obtain ⟨found, hfound, hspelled⟩ := hfound
    cases hfound
    exact ⟨signature, rfl, hspelled⟩
  | resolveLocal kind signature referrer =>
    simp only [ask]
    cases hlocal : Resolver.resolveLocal kind signature referrer with
    | ok found =>
      rintro kind' reference hanswer
      cases hanswer
      exact ⟨signature, rfl, Resolver.spelledBy_of_resolveLocal hlocal⟩
    | error failure =>
      rintro kind' reference hanswer
      cases hanswer

/-- An answer that refers to a method weighs its arguments by the descriptor of the signature that
the call resolves. -/
def AnsweredWeighed (answer : Except Stop ResolverAnswer) (call : ResolverCall) : Prop :=
  ∀ reference : Reference .method, answer = .ok (.reference reference) →
    ∃ signature parsed, call.signature? = some (.method, signature) ∧
      Signature.parse .method signature = .ok parsed ∧ reference.Weighed parsed.descriptor

theorem interleaved_answers_weighed (schedule : List Nat) (threads : List (List ResolverCall))
    (common : τ) :
    List.Forall₂ (List.Forall₂ AnsweredWeighed)
      (Session.interleave loader schedule (threads.map (askEach r)) ⟨r.caches, common⟩).1
      threads := by
  refine Session.meets_interleave_map (r.protocol_keeps loader) schedule (fun calls _ => ?_)
    ⟨r.caches, common⟩ (r.faithful_start loader common)
  refine askEach_meets r fun call _ => (ask_spelled r loader call).mono ?_
  intro answer hspelled reference hanswer
  obtain ⟨signature, hcall, hreference⟩ := hspelled reference hanswer
  obtain ⟨parsed, hparsed, hweighed⟩ := hreference.weighed
  exact ⟨signature, parsed, hcall, hparsed, hweighed⟩

end ResolverCall

/-- A text is read as the parameters of a method just if it decomposes into these and a result. It
does so in one way at most, and the slots of the parameters are the widths of their types. However
threads ask a resolver, and whatever the loader answers, each reference to a method has the
descriptor of the signature that was resolved, which gives the weight of its arguments. -/
theorem method_descriptors_decompose_and_weigh :
    (∀ d parameters, Descriptor.parameterTypes d = .ok parameters ↔
      ∃ result, Descriptor.Decomposes d parameters result) ∧
    (∀ d parameters parameters' result result', Descriptor.Decomposes d parameters result →
      Descriptor.Decomposes d parameters' result' →
        parameters = parameters' ∧ result = result') ∧
    (∀ d parameters result, Descriptor.Decomposes d parameters result →
      Descriptor.slots parameters = (parameters.map Descriptor.width).sum) ∧
    ∀ {τ : Type} (r : Resolver) (loader : Loader τ) (schedule : List Nat)
      (threads : List (List ResolverCall)) (common : τ),
      List.Forall₂ (List.Forall₂ ResolverCall.AnsweredWeighed)
        (Session.interleave loader schedule (threads.map (ResolverCall.askEach r))
          ⟨r.caches, common⟩).1
        threads :=
  ⟨fun _ _ => Descriptor.parameterTypes_eq_ok_iff, fun _ _ _ _ _ h h' => h.unique h',
    fun _ _ _ h => Descriptor.slots_eq_sum h.parameters,
    fun r loader schedule threads common =>
      ResolverCall.interleaved_answers_weighed r loader schedule threads common⟩

/-- A type among the parameters may hold what looks like their end. The resolver has no class to
look into, and sends what it is asked for to another. -/
theorem method_descriptors_decompose_and_weigh_nested :
    let d := "([[JDLp(J)V;J)[Lq;".toList
    let parameters := ["[[J".toList, "D".toList, "Lp(J)V;".toList, "J".toList]
    let r : Resolver := ⟨[], [], some (.ofString "X"), 0⟩
    let loader : Loader Unit := .fixed (fun name => .refused (.notFound name)) 0
    let calls : List ResolverCall :=
      [.resolve .method " f([[JDLp(J)V;J)[Lq;" ⟨⟨.ofString "A", .empty, none, []⟩, [], []⟩]
    Descriptor.Decomposes d parameters "[Lq;".toList ∧
      Descriptor.parameterTypes d = .ok parameters ∧ Descriptor.slots parameters = 6 ∧
      ∃ reference : Reference .method,
        (Session.interleave loader [0] ([calls].map (ResolverCall.askEach r)) ⟨r.caches, ()⟩).1 =
          [[.ok (.reference reference)]] ∧ reference.Weighed (String.ofList d) := by
  intro d parameters r loader calls
  have hdecomposes : Descriptor.Decomposes d parameters "[Lq;".toList := by
    refine ⟨by decide, ?_, .inr (@Descriptor.TypeText.object 1 ['q'] (by decide) (by decide))⟩
    intro type htype
    simp only [parameters, List.mem_cons, List.not_mem_nil, or_false] at htype
    rcases htype with rfl | rfl | rfl | rfl
    · exact @Descriptor.TypeText.code 2 'J' (by decide)
    · exact @Descriptor.TypeText.code 0 'D' (by decide)
    · exact @Descriptor.TypeText.object 0 "p(J)V".toList (by decide) (by decide)
    · exact @Descriptor.TypeText.code 0 'J' (by decide)
  have hown : Signature.parse .method " f([[JDLp(J)V;J)[Lq;" =
      .ok ⟨none, "f", String.ofList d⟩ := by
    decide +kernel
  have hanswered : (Session.interleave loader [0] ([calls].map (ResolverCall.askEach r))
      ⟨r.caches, ()⟩).1 = [[.ok (.reference
        (⟨.ofString "X", "f", String.ofList d, .invokestatic, false⟩ : Reference .method))]] := by
    simp only [calls, List.map_cons, ResolverCall.askEach, ResolverCall.ask, Resolver.resolve,
      Resolver.parse, hown]
    rfl
  obtain ⟨hread, -, hslots, hweighed⟩ := method_descriptors_decompose_and_weigh
  refine ⟨hdecomposes, (hread d parameters).2 ⟨_, hdecomposes⟩,
    (hslots _ _ _ hdecomposes).trans (by decide), _, hanswered, ?_⟩
  have hall := hweighed r loader [0] [calls] ()
  rw [hanswered] at hall
  obtain ⟨hfirst, -⟩ := List.forall₂_cons.1 hall
  obtain ⟨hanswer, -⟩ := List.forall₂_cons.1 hfirst
  obtain ⟨signature, parsed, hcall, hparsed, hreference⟩ := hanswer _ rfl
  obtain rfl := (Prod.mk.inj (Option.some.inj hcall)).2
  rw [hown] at hparsed
  obtain rfl := Except.ok.inj hparsed
  exact hreference

end UnitLink
