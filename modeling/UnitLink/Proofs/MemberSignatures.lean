import UnitLink.Member
import UnitLink.Proofs.DescriptorGrammar
import UnitLink.Proofs.Trimming
/-! What texts are read as signatures of members, and as which. Blanks around a signature are left
out of account, the name ends before the first parenthesis or the first blank, and what stands
before it up to the last separator is its owner. What is put together from a name and a descriptor,
as class files have them, is read back as these, with no owner. -/
namespace UnitLink

theorem exists_of_bind_eq_ok {ε α β : Type} {x : Except ε α} {f : α → Except ε β} {b : β}
    (h : (x >>= f) = .ok b) : ∃ a, x = .ok a ∧ f a = .ok b := by
  cases x with
  | error e => cases h
  | ok a => exact ⟨a, rfl, h⟩

/-! ### Cuts -/

namespace Text

variable {cs before after : List Char}

theorem cutLast_eq_some_iff {cut : Char → Bool} :
    cutLast cut cs = some (before, after) ↔
      (∀ c ∈ after, cut c = false) ∧ ∃ c, cut c = true ∧ cs = before ++ c :: after := by
  unfold cutLast
  simp only [Option.map_eq_some_iff, Prod.exists, Prod.mk.injEq, cutFirst_eq_some_iff]
  constructor
  · rintro ⟨last, first, ⟨hlast, c, hc, hcs⟩, rfl, rfl⟩
    refine ⟨by simpa using hlast, c, hc, ?_⟩
    simpa using congrArg List.reverse hcs
  · rintro ⟨hafter, c, hc, rfl⟩
    exact ⟨after.reverse, before.reverse, ⟨by simpa using hafter, c, hc, by simp⟩, by simp, by simp⟩

end Text

/-! ### What stands at the ends of a descriptor -/

def MemberKind.Describes : MemberKind → List Char → Prop
  | method, descriptor => ∃ parameters, MethodType descriptor parameters
  | field, descriptor => FieldType descriptor

theorem Descriptor.not_blank_of_isTypeCode {c : Char} (h : isTypeCode c = true) :
    Text.isBlank c = false := by
  unfold isTypeCode at h
  split at h <;> first | rfl | cases h

namespace FieldType

theorem not_blank_head {type : List Char} (h : FieldType type) {c : Char}
    (hc : type.head? = some c) : Text.isBlank c = false := by
  obtain ⟨first, cs, rfl, hfirst⟩ := h.exists_head
  obtain rfl := Option.some.inj hc
  rcases hfirst with hcode | rfl | rfl
  · exact Descriptor.not_blank_of_isTypeCode hcode
  · rfl
  · rfl

theorem not_blank_last {type : List Char} (h : FieldType type) {c : Char}
    (hc : type.getLast? = some c) : Text.isBlank c = false := by
  obtain ⟨cs, last, rfl, hlast⟩ := h.exists_last
  rw [List.getLast?_concat] at hc
  obtain rfl := Option.some.inj hc
  rcases hlast with hcode | rfl
  · exact Descriptor.not_blank_of_isTypeCode hcode
  · rfl

end FieldType

theorem MethodType.not_blank_last {descriptor : List Char} {parameters : List (List Char)}
    (h : MethodType descriptor parameters) {c : Char} (hc : descriptor.getLast? = some c) :
    Text.isBlank c = false := by
  cases h with
  | void =>
    rw [show '(' :: (parameters.flatten ++ [')', 'V']) =
      ('(' :: (parameters.flatten ++ [')'])) ++ ['V'] by simp, List.getLast?_concat] at hc
    obtain rfl := Option.some.inj hc
    rfl
  | @returns _ result _ hresult =>
    obtain ⟨cs, last, rfl, hlast⟩ := hresult.exists_last
    rw [show '(' :: (parameters.flatten ++ ')' :: (cs ++ [last])) =
      ('(' :: (parameters.flatten ++ ')' :: cs)) ++ [last] by simp, List.getLast?_concat] at hc
    obtain rfl := Option.some.inj hc
    exact hresult.not_blank_last (by simp)

theorem MethodType.exists_tail {descriptor : List Char} {parameters : List (List Char)}
    (h : MethodType descriptor parameters) : ∃ cs, descriptor = '(' :: cs := by
  cases h with
  | void => exact ⟨_, rfl⟩
  | returns => exact ⟨_, rfl⟩

theorem MemberKind.Describes.not_blank_last {kind : MemberKind} {descriptor : List Char}
    (h : kind.Describes descriptor) :
    descriptor ≠ [] ∧ ∀ c ∈ descriptor.getLast?, Text.isBlank c = false := by
  cases kind with
  | method =>
    obtain ⟨parameters, htype⟩ := h
    obtain ⟨tail, hdescriptor⟩ := htype.exists_tail
    exact ⟨by simp [hdescriptor], fun c hc => htype.not_blank_last hc⟩
  | field =>
    obtain ⟨first, tail, hdescriptor, -⟩ := FieldType.exists_head h
    exact ⟨by simp [hdescriptor], fun c hc => FieldType.not_blank_last h hc⟩

/-! ### Reading -/

/-- What a name ends before. -/
def MemberKind.endsName : MemberKind → Char → Bool
  | method, c => c == '('
  | field, c => Text.isBlank c

/-- What can stand between a name and a descriptor. -/
def MemberKind.Gap : MemberKind → List Char → Prop
  | method, gap => gap = []
  | field, gap => gap ≠ [] ∧ ∀ c ∈ gap, Text.isBlank c

namespace Signature

theorem checkName_eq_ok_iff {text : String} {name : List Char} :
    checkName text name = .ok () ↔ name ≠ [] ∧ ∀ c ∈ name, isReserved c = false := by
  unfold checkName
  split
  · simp_all
  · rename_i hne
    cases hfind : name.find? isReserved with
    | none => simpa [hne] using hfind
    | some c =>
      have hc := List.find?_some hfind
      have hmem := List.mem_of_find?_eq_some hfind
      simp only [reduceCtorEq, false_iff, not_and, not_forall]
      exact fun _ => ⟨c, hmem, by simp [hc]⟩

theorem checkDescriptor_eq_ok_iff {kind : MemberKind} {text : String} {descriptor : List Char} :
    checkDescriptor kind text descriptor = .ok () ↔ kind.Describes descriptor := by
  cases kind with
  | method =>
    simp only [checkDescriptor, MemberKind.Describes]
    constructor
    · intro h
      split at h
      · cases h
      · rename_i parameters hparameters
        exact ⟨parameters, .of_parameterTypes hparameters⟩
    · rintro ⟨parameters, hparameters⟩
      rw [hparameters.parameterTypes]
  | field =>
    simp only [checkDescriptor, MemberKind.Describes]
    constructor
    · intro h
      split at h
      · cases h
      · rename_i type htype
        exact (Descriptor.takeType_eq_whole_iff.1 htype).2
      · cases h
    · intro h
      rw [Descriptor.takeType_eq_whole_iff.2 ⟨rfl, h⟩]

/-- What separates an owner from a member. -/
def isSeparator (c : Char) : Bool := c == '/' || c == '.'

theorem splitOwner_eq_ok_iff {text : String} {qualified name : List Char} {owner : Option String} :
    splitOwner text qualified = .ok (owner, name) ↔
      (Text.cutLast isSeparator qualified = none ∧ owner = none ∧ name = qualified) ∨
        ∃ written, written ≠ [] ∧ Text.cutLast isSeparator qualified = some (written, name) ∧
          owner = some (String.ofList written) := by
  have hcut : Text.cutLast (fun c => c == '/' || c == '.') qualified =
      Text.cutLast isSeparator qualified := rfl
  unfold splitOwner
  rw [hcut]
  rcases Text.cutLast isSeparator qualified with _ | ⟨_ | ⟨c, written⟩, member⟩
  · simp [eq_comm]
  · simp
  · simp
    grind

/-- What is written before a name: nothing, or an owner and a separator. -/
inductive Qualifies : Option String → List Char → Prop
  | unqualified : Qualifies none []
  | owner {written : List Char} {c : Char} : written ≠ [] → isSeparator c →
      Qualifies (some (String.ofList written)) (written ++ [c])

theorem Qualifies.owner_eq_none {owner : Option String} (h : Qualifies owner []) :
    owner = none := by
  generalize hnone : ([] : List Char) = qualifier at h
  cases h with
  | unqualified => rfl
  | owner => simp at hnone

theorem splitOwner_iff_qualifies {text : String} {qualified name : List Char}
    {owner : Option String} :
    splitOwner text qualified = .ok (owner, name) ↔
      (∀ c ∈ name, isSeparator c = false) ∧
        ∃ qualifier, Qualifies owner qualifier ∧ qualified = qualifier ++ name := by
  rw [splitOwner_eq_ok_iff]
  constructor
  · rintro (⟨hcut, rfl, rfl⟩ | ⟨written, hne, hcut, rfl⟩)
    · rw [Text.cutLast, Option.map_eq_none_iff, Text.cutFirst_eq_none_iff] at hcut
      exact ⟨by simpa using hcut, [], .unqualified, rfl⟩
    · obtain ⟨hname, c, hc, rfl⟩ := Text.cutLast_eq_some_iff.1 hcut
      exact ⟨hname, written ++ [c], .owner hne hc, by simp⟩
  · rintro ⟨hname, qualifier, hqualifies, rfl⟩
    cases hqualifies with
    | unqualified =>
      left
      rw [Text.cutLast, Option.map_eq_none_iff, Text.cutFirst_eq_none_iff]
      exact ⟨by simpa using hname, rfl, rfl⟩
    | @owner written c hne hc =>
      right
      exact ⟨written, hne, Text.cutLast_eq_some_iff.2 ⟨hname, c, hc, by simp⟩, rfl⟩

theorem splitDescriptor_eq_ok_iff {kind : MemberKind} {cs qualified descriptor : List Char}
    (hlast : ∀ c ∈ cs.getLast?, Text.isBlank c = false) (hkind : kind.Describes descriptor) :
    splitDescriptor kind cs = .ok (qualified, descriptor) ↔
      (∀ c ∈ qualified, kind.endsName c = false) ∧
        ∃ gap, kind.Gap gap ∧ cs = qualified ++ gap ++ descriptor := by
  cases kind with
  | method =>
    obtain ⟨parameters, htype⟩ := hkind
    obtain ⟨tail, rfl⟩ := htype.exists_tail
    simp only [splitDescriptor, MemberKind.endsName, MemberKind.Gap, exists_eq_left,
      List.append_nil, beq_eq_false_iff_ne]
    constructor
    · intro h
      split at h
      · cases h
      · obtain ⟨rfl, hdrop⟩ := Prod.mk.inj (Except.ok.inj h)
        refine ⟨fun c hc => by simpa using List.all_eq_true.1 List.all_takeWhile c hc, ?_⟩
        rw [← hdrop, List.takeWhile_append_dropWhile]
    · rintro ⟨hname, rfl⟩
      have hopen : ∀ c ∈ qualified, (c != '(') = true := fun c hc => bne_iff_ne.2 (hname c hc)
      rw [List.dropWhile_append_of_pos hopen, List.takeWhile_append_of_pos hopen]
      simp
  | field =>
    have htype : FieldType descriptor := hkind
    simp only [splitDescriptor, MemberKind.endsName, MemberKind.Gap]
    constructor
    · intro h
      split at h
      · cases h
      · rename_i name rest hcut
        obtain ⟨rfl, hdescriptor⟩ := Prod.mk.inj (Except.ok.inj h)
        obtain ⟨hname, c, hc, rfl⟩ := Text.cutFirst_eq_some_iff.1 hcut
        obtain ⟨before, after, hrest, hbefore, hafter, -, -⟩ := Text.exists_trim rest
        rw [hdescriptor] at hrest
        -- the text would end with a blank if any stood after the type
        obtain rfl : after = [] := by
          rcases List.eq_nil_or_concat after with rfl | ⟨others, last, rfl⟩
          · rfl
          · have hblank := hafter last (by simp)
            rw [hlast last (by simp [hrest, List.getLast?_cons])] at hblank
            cases hblank
        refine ⟨hname, c :: before, ⟨by simp, ?_⟩, by simp [hrest]⟩
        exact List.forall_mem_cons.2 ⟨hc, hbefore⟩
    · rintro ⟨hname, gap, ⟨hne, hgap⟩, rfl⟩
      obtain ⟨c, before, rfl⟩ := List.exists_cons_of_ne_nil hne
      obtain ⟨hc, hbefore⟩ := List.forall_mem_cons.1 hgap
      have hcut : Text.cutFirst Text.isBlank (qualified ++ c :: before ++ descriptor) =
          some (qualified, before ++ descriptor) :=
        Text.cutFirst_eq_some_iff.2 ⟨hname, c, hc, by simp⟩
      have htrim : Text.trim (before ++ descriptor) = descriptor := by
        have hcore := Text.trim_append hbefore (List.forall_mem_nil _)
          (fun c hc => htype.not_blank_head hc) (fun c hc => htype.not_blank_last hc)
        rwa [List.append_nil] at hcore
      simp only [hcut, htrim]

/-- The texts that a signature can be written as. -/
inductive Writes (kind : MemberKind) : List Char → Signature → Prop
  | intro {before qualifier name gap descriptor after : List Char} {owner : Option String} :
      (∀ c ∈ before, Text.isBlank c) → (∀ c ∈ after, Text.isBlank c) →
      (∀ c ∈ (qualifier ++ name).head?, Text.isBlank c = false) →
      Qualifies owner qualifier → name ≠ [] → (∀ c ∈ name, isReserved c = false) →
      (∀ c ∈ qualifier ++ name, kind.endsName c = false) → kind.Gap gap →
      kind.Describes descriptor →
      Writes kind (before ++ (qualifier ++ name ++ gap ++ descriptor) ++ after)
        ⟨owner, String.ofList name, String.ofList descriptor⟩

theorem Writes.describes {kind : MemberKind} {cs : List Char} {s : Signature}
    (h : Writes kind cs s) : kind.Describes s.descriptor.toList := by
  cases h with
  | intro _ _ _ _ _ _ _ _ hkind => simpa using hkind

theorem Writes.name {kind : MemberKind} {cs : List Char} {s : Signature} (h : Writes kind cs s) :
    s.name.toList ≠ [] ∧ (∀ c ∈ s.name.toList, isReserved c = false) ∧
      (∀ c ∈ s.name.toList, kind.endsName c = false) ∧
      (s.owner = none → ∀ c ∈ s.name.toList.head?, Text.isBlank c = false) := by
  cases h with
  | @intro before qualifier name _ _ _ owner _ _ hfirst hqualifies hne hunreserved hends =>
    rw [String.toList_ofList]
    refine ⟨hne, hunreserved, fun c hc => hends c (List.mem_append_right _ hc), ?_⟩
    rintro rfl
    cases hqualifies
    exact hfirst

theorem not_separator_of_not_reserved {c : Char} (h : isReserved c = false) :
    isSeparator c = false := by
  unfold isReserved at h
  split at h <;> simp_all [isSeparator]

/-- A text is read as the signature that it writes, and no other text is read. -/
theorem parse_eq_ok_iff {kind : MemberKind} {text : String} {s : Signature} :
    parse kind text = .ok s ↔ Writes kind text.toList s := by
  constructor
  · intro h
    unfold parse at h
    obtain ⟨⟨qualified, descriptor⟩, hsplit, h⟩ := exists_of_bind_eq_ok h
    obtain ⟨⟨owner, name⟩, howner, h⟩ := exists_of_bind_eq_ok h
    obtain ⟨_, hname, h⟩ := exists_of_bind_eq_ok h
    obtain ⟨_, hdescriptor, h⟩ := exists_of_bind_eq_ok h
    obtain rfl := Except.ok.inj h
    obtain ⟨hne, hunreserved⟩ := checkName_eq_ok_iff.1 hname
    have hkind := checkDescriptor_eq_ok_iff.1 hdescriptor
    obtain ⟨-, qualifier, hqualifies, rfl⟩ := splitOwner_iff_qualifies.1 howner
    obtain ⟨before, after, htext, hbefore, hafter, hfirst, hlast⟩ := Text.exists_trim text.toList
    obtain ⟨hends, gap, hgap, htrim⟩ := (splitDescriptor_eq_ok_iff hlast hkind).1 hsplit
    rw [htrim] at htext hfirst
    rw [htext]
    refine .intro hbefore hafter (fun c hc => hfirst c ?_) hqualifies hne hunreserved hends hgap
      hkind
    rw [Option.mem_def, List.append_assoc, List.head?_append, Option.mem_def.1 hc, Option.some_or]
  · intro h
    generalize hchars : text.toList = chars at h
    cases h with
    | @intro before qualifier name gap descriptor after owner hbefore hafter hfirst hqualifies hne
        hunreserved hends hgap hkind =>
      obtain ⟨hfull, hend⟩ := hkind.not_blank_last
      have hlast : ∀ c ∈ (qualifier ++ name ++ gap ++ descriptor).getLast?,
          Text.isBlank c = false := by
        intro c hc
        rw [List.getLast?_append_of_ne_nil _ hfull] at hc
        exact hend c hc
      have hhead : ∀ c ∈ (qualifier ++ name ++ gap ++ descriptor).head?,
          Text.isBlank c = false := by
        intro c hc
        rw [List.append_assoc, List.head?_append_of_ne_nil _ (by simp [hne])] at hc
        exact hfirst c hc
      have htrim : Text.trim text.toList = qualifier ++ name ++ gap ++ descriptor := by
        rw [hchars, Text.trim_append hbefore hafter hhead hlast]
      have hsplit := (splitDescriptor_eq_ok_iff hlast hkind).2 ⟨hends, gap, hgap, rfl⟩
      have howner (text : String) : splitOwner text (qualifier ++ name) = .ok (owner, name) :=
        splitOwner_iff_qualifies.2
          ⟨fun c hc => not_separator_of_not_reserved (hunreserved c hc), qualifier, hqualifies, rfl⟩
      have hname (text : String) : checkName text name = .ok () :=
        checkName_eq_ok_iff.2 ⟨hne, hunreserved⟩
      have hdescriptor (text : String) : checkDescriptor kind text descriptor = .ok () :=
        checkDescriptor_eq_ok_iff.2 hkind
      simp only [parse, htrim, hsplit, howner, hname, hdescriptor, bind, Except.bind, pure,
        Except.pure]

end Signature

/-! ### Names and descriptors that are put together -/

def MemberKind.gap : MemberKind → List Char
  | method => []
  | field => [' ']

/-- Names that end where a descriptor is put after them. -/
structure MemberKind.Names (kind : MemberKind) (name : List Char) : Prop where
  nonempty : name ≠ []
  unreserved : ∀ c ∈ name, Signature.isReserved c = false
  unended : ∀ c ∈ name, kind.endsName c = false
  starts : ∀ c ∈ name.head?, Text.isBlank c = false

variable {kind : MemberKind} {name descriptor : String}

theorem MemberKind.toList_signature :
    (kind.signature name descriptor).toList = name.toList ++ kind.gap ++ descriptor.toList := by
  cases kind <;> simp [signature, gap]

theorem MemberKind.gap_gap (kind : MemberKind) : kind.Gap kind.gap := by
  cases kind with
  | method => rfl
  | field => exact ⟨List.cons_ne_nil _ _, List.forall_mem_singleton.2 rfl⟩

theorem MemberKind.Gap.length_le {gap : List Char} (h : kind.Gap gap) :
    kind.gap.length ≤ gap.length := by
  cases kind with
  | method => exact Nat.zero_le _
  | field => exact List.length_pos_iff.2 h.1

namespace Signature

/-- A signature is put together from its own parts only if these are a name and a descriptor on
their own, and then it has no owner. -/
theorem writes_signature_iff {owner : Option String} :
    Writes kind (kind.signature name descriptor).toList ⟨owner, name, descriptor⟩ ↔
      owner = none ∧ kind.Names name.toList ∧ kind.Describes descriptor.toList := by
  rw [MemberKind.toList_signature]
  constructor
  · intro h
    generalize hchars : name.toList ++ kind.gap ++ descriptor.toList = chars at h
    generalize hsignature : (⟨owner, name, descriptor⟩ : Signature) = s at h
    cases h with
    | @intro before qualifier name' gap descriptor' after owner' _ _ hfirst hqualifies hne
        hunreserved hends hgap hkind =>
      obtain ⟨rfl, rfl, rfl⟩ := Signature.mk.inj hsignature
      -- no room is left for blanks around the signature or for an owner
      have hlength := congrArg List.length hchars
      simp only [String.toList_ofList, List.length_append] at hlength
      have hroom := hgap.length_le
      have hqualifier : qualifier = [] := List.eq_nil_of_length_eq_zero (by omega)
      subst hqualifier
      rw [String.toList_ofList, String.toList_ofList]
      exact ⟨hqualifies.owner_eq_none, ⟨hne, hunreserved, hends, hfirst⟩, hkind⟩
  · rintro ⟨rfl, hname, hkind⟩
    have hwrites := Writes.intro (List.forall_mem_nil _) (List.forall_mem_nil _) hname.starts
      .unqualified hname.nonempty hname.unreserved hname.unended kind.gap_gap hkind
    simpa using hwrites

end Signature

namespace Member

variable {owner : ClassName} {modifiers : Modifiers} {m : Member kind}

theorem parse_eq_ok {signature : String}
    (h : Member.parse owner signature modifiers = .ok m) :
    ∃ parsed, Signature.parse kind signature = .ok parsed ∧
      (∀ written, parsed.owner = some written → ClassName.ofString written = owner) ∧
      m = ⟨owner, parsed.name, parsed.descriptor, modifiers⟩ := by
  unfold parse at h
  split at h
  · cases h
  rename_i parsed hparsed
  split at h
  · rename_i hnames
    refine ⟨parsed, hparsed, fun written hwritten => ?_, (Except.ok.inj h).symm⟩
    rw [hwritten] at hnames
    exact eq_of_beq hnames
  · cases h

/-- The member is what two texts are read as when they are put together. An owner that they turn
out to name is that of the member. -/
def ReadAs (m : Member kind) (name descriptor : String) : Prop :=
  ∃ written, Signature.Writes kind (kind.signature name descriptor).toList
      ⟨written, m.name, m.descriptor⟩ ∧
    ∀ owner ∈ written, ClassName.ofString owner = m.owner

theorem parse_eq_ok_iff_writes {text : String} : parse owner text modifiers = .ok m ↔
    m.owner = owner ∧ m.modifiers = modifiers ∧ ∃ written,
      Signature.Writes kind text.toList ⟨written, m.name, m.descriptor⟩ ∧
        ∀ named ∈ written, ClassName.ofString named = m.owner := by
  constructor
  · intro h
    obtain ⟨parsed, hparsed, hnames, rfl⟩ := parse_eq_ok h
    exact ⟨rfl, rfl, parsed.owner, Signature.parse_eq_ok_iff.1 hparsed, hnames⟩
  · rintro ⟨rfl, rfl, written, hwrites, hnames⟩
    have hall : written.all (fun named => ClassName.ofString named == m.owner) = true := by
      cases written with
      | none => rfl
      | some named => simpa using hnames named rfl
    unfold parse
    rw [Signature.parse_eq_ok_iff.2 hwrites]
    simp only [hall, if_true]

theorem parse_eq_ok_iff : parse owner (kind.signature name descriptor) modifiers = .ok m ↔
    m.owner = owner ∧ m.modifiers = modifiers ∧ m.ReadAs name descriptor :=
  parse_eq_ok_iff_writes

theorem ReadAs.of_own (hown : kind.Names m.name.toList ∧ kind.Describes m.descriptor.toList) :
    m.ReadAs m.name m.descriptor :=
  ⟨none, Signature.writes_signature_iff.2 ⟨rfl, hown⟩, nofun⟩

/-- The texts are those of the member just if they are a name and a descriptor on their own. -/
theorem ReadAs.own_iff (h : m.ReadAs name descriptor) :
    m.name = name ∧ m.descriptor = descriptor ↔
      kind.Names name.toList ∧ kind.Describes descriptor.toList := by
  obtain ⟨written, hwrites, -⟩ := h
  constructor
  · rintro ⟨rfl, rfl⟩
    exact (Signature.writes_signature_iff.1 hwrites).2
  · intro hown
    have hplain := Signature.parse_eq_ok_iff.2 (Signature.writes_signature_iff.2 ⟨rfl, hown⟩)
    rw [Signature.parse_eq_ok_iff.2 hwrites] at hplain
    obtain ⟨-, hname, hdescriptor⟩ := Signature.mk.inj (Except.ok.inj hplain)
    exact ⟨hname, hdescriptor⟩

end Member

/-- Names that members can have. -/
structure MemberName (name : List Char) : Prop where
  nonempty : name ≠ []
  not_blank : ∀ c ∈ name, Text.isBlank c = false
  unreserved : ∀ c ∈ name, c ∉ [';', '[', '(', ')', '/', '.']

theorem MemberName.names {name : List Char} (h : MemberName name) (kind : MemberKind) :
    kind.Names name where
  nonempty := h.nonempty
  unreserved c hc := by
    have hblank := h.not_blank c hc
    have := h.unreserved c hc
    unfold Signature.isReserved
    split
    all_goals simp_all [Text.isBlank]
  unended c hc := by
    have := h.unreserved c hc
    cases kind with
    | method => simp_all [MemberKind.endsName]
    | field => exact h.not_blank c hc
  starts c hc := h.not_blank c (List.mem_of_head? hc)

end UnitLink
