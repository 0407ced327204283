import UnitLink.Proofs.DeclaredMembers
import UnitLink.Proofs.DirectiveGrammar
import UnitLink.Proofs.SingleLines
import UnitLink.Proofs.Spelling
/-! What a directive declares. A class directive is valid if it has a name, no flags but keywords and
no empty superclass, and then it declares one header. A member directive is valid if it has a
signature that can be read, no flags but keywords, and no owner but its class, and then it declares
one member. -/
namespace UnitLink

/-! ### Values -/

namespace Text

section

variable {α : Type} {cut : α → Bool}

/-- The pieces between the items that are cut out. -/
inductive Cuts (cut : α → Bool) : List α → List (List α) → Prop
  | whole {piece : List α} : (∀ c ∈ piece, cut c = false) → Cuts cut piece [piece]
  | cut {piece rest : List α} {c : α} {others : List (List α)} : (∀ c ∈ piece, cut c = false) →
      cut c = true → Cuts cut rest others → Cuts cut (piece ++ c :: rest) (piece :: others)

theorem Cuts.cons {cs first : List α} {others : List (List α)} (h : Cuts cut cs (first :: others))
    {c : α} (hc : cut c = false) : Cuts cut (c :: cs) ((c :: first) :: others) := by
  cases h with
  | whole hfirst => exact .whole (List.forall_mem_cons.2 ⟨hc, hfirst⟩)
  | cut hfirst hcut hothers =>
    have hmore : ∀ e ∈ c :: first, cut e = false := List.forall_mem_cons.2 ⟨hc, hfirst⟩
    exact .cut hmore hcut hothers

theorem cuts_pieces (cs : List α) : Cuts cut cs (pieces cut cs) := by
  induction cs with
  | nil => exact .whole nofun
  | cons c cs ih =>
    rw [pieces]
    split
    · exact .cut (List.forall_mem_nil _) ‹_› ih
    · obtain ⟨first, others, hpieces⟩ := List.exists_cons_of_ne_nil (pieces_ne_nil cut cs)
      rw [hpieces] at ih ⊢
      exact ih.cons (by simpa using ‹¬ cut c = true›)

theorem cuts_iff {cs : List α} {found : List (List α)} :
    Cuts cut cs found ↔ found = pieces cut cs := by
  constructor
  · intro h
    induction h with
    | whole hpiece => rw [pieces_uncut hpiece]
    | cut hpiece hcut _ ih => rw [pieces_append hpiece hcut, ih]
  · rintro rfl
    exact cuts_pieces cs

end

theorem trim_trim (cs : List Char) : trim (trim cs) = trim cs := by
  obtain ⟨-, -, -, -, -, hfirst, hlast⟩ := exists_trim cs
  have htrim := trim_append (List.forall_mem_nil _) (List.forall_mem_nil _) hfirst hlast
  rwa [List.append_nil, List.nil_append] at htrim

end Text

theorem Keyword.ofText?_eq_some_iff {word : String} {k : Keyword} :
    ofText? word = some k ↔ word = k.text := by
  constructor
  · intro h
    have hfound : (all.find? fun k => k.text == word) = some k := h
    have htext := List.find?_some hfound
    exact (eq_of_beq htext).symm
  · rintro rfl
    exact ofText?_text k

theorem Keyword.text_inj {k l : Keyword} : k.text = l.text ↔ k = l := by
  rw [← ofText?_eq_some_iff, ofText?_text, Option.some.injEq]

namespace Modifiers

theorem eq_of_has {a b : Modifiers} (h : ∀ k, a.has k = b.has k) : a = b := by
  have hbits : ∀ i < 15, ∃ k ∈ Keyword.all, k.bit = i := by decide
  obtain ⟨a⟩ := a
  obtain ⟨b⟩ := b
  refine congrArg mk (BitVec.eq_of_getLsbD_eq fun i hi => ?_)
  obtain ⟨k, -, rfl⟩ := hbits i hi
  exact h k

/-- Words are read if all are keywords, and then they and no others are added. -/
theorem foldlM_eq_ok_iff {words : List (List Char)} {a m : Modifiers} :
    words.foldlM (fun m word => match Keyword.ofText? (String.ofList word) with
      | some k => Except.ok (m.union (single k))
      | none => .error (String.ofList word)) a = .ok m ↔
    (∀ word ∈ words, ∃ k : Keyword, word = k.text.toList) ∧
      ∀ k, m.has k = (a.has k || decide (k.text.toList ∈ words)) := by
  induction words generalizing a with
  | nil =>
    constructor
    · intro h
      obtain rfl : a = m := Except.ok.inj h
      simp
    · rintro ⟨-, hhas⟩
      exact congrArg Except.ok (eq_of_has fun k => by simp [hhas])
  | cons word words ih =>
    rw [List.foldlM_cons]
    cases hkeyword : Keyword.ofText? (String.ofList word) with
    | none =>
      refine ⟨nofun, fun hall => ?_⟩
      obtain ⟨k, rfl⟩ := hall.1 word List.mem_cons_self
      simp at hkeyword
    | some k =>
      have hword : word = k.text.toList := by
        rw [← Keyword.ofText?_eq_some_iff.1 hkeyword, String.toList_ofList]
      have hsame (l : Keyword) : decide (l.text.toList ∈ word :: words) =
          (decide (k = l) || decide (l.text.toList ∈ words)) := by
        simp only [hword, List.mem_cons, String.toList_inj, Keyword.text_inj, Bool.decide_or,
          eq_comm]
      simp only [hsame, List.forall_mem_cons, ← Bool.or_assoc]
      refine (ih (a := a.union (single k))).trans ?_
      simp only [has_union, has_single]
      exact and_congr_left fun _ => (and_iff_right ⟨k, hword⟩).symm

theorem parse_eq_ok_iff {cs : List Char} {m : Modifiers} : parse cs = .ok m ↔
    (∀ word ∈ Text.words cs, ∃ k : Keyword, word = k.text.toList) ∧
      ∀ k, m.has k = true ↔ k.text.toList ∈ Text.words cs := by
  refine Iff.trans foldlM_eq_ok_iff (and_congr_right fun _ => forall_congr' fun k => ?_)
  rw [has_empty, Bool.false_or, Bool.eq_iff_iff, decide_eq_true_eq]

end Modifiers

namespace Directive

variable {d : Directive}

theorem declared_eq_ok_iff {key value : String} :
    d.declared key = .ok value ↔ d.value? key = some value ∧ value ≠ "" := by
  unfold declared
  rw [mapError_eq_ok_iff, required_eq_ok_iff]

/-- The modifiers whose keywords stand between the blanks of the flags; nothing else stands there. -/
def Flags (d : Directive) (m : Modifiers) : Prop :=
  ∃ runs, Text.Cuts Text.isBlank ((d.value? "flags").getD "").toList runs ∧
    (∀ run ∈ runs, run = [] ∨ ∃ k : Keyword, run = k.text.toList) ∧
    ∀ k : Keyword, m.has k = true ↔ k.text.toList ∈ runs

theorem modifiers_eq_ok_iff {m : Modifiers} : d.modifiers = .ok m ↔ d.Flags m := by
  have hne (k : Keyword) : k.text.toList ≠ [] := by cases k <;> decide
  have hmem (cs run : List Char) :
      run ∈ Text.words cs ↔ run ∈ Text.pieces Text.isBlank cs ∧ run ≠ [] := by
    simp [Text.words]
  unfold modifiers Flags
  simp only [mapError_eq_ok_iff, Modifiers.parse_eq_ok_iff, Text.cuts_iff, exists_eq_left, hmem, hne,
    and_true, ne_eq, not_false_eq_true, and_imp]
  refine and_congr_left fun _ => forall₂_congr fun run _ => ?_
  tauto

/-- The superclass is the one that is named, which has to have a name. -/
def Extends (d : Directive) (superclass : ClassName) : Prop :=
  (d.value? "super" = none ∧ superclass = .ofString "java/lang/Object") ∨
    ∃ text, d.value? "super" = some text ∧ text ≠ "" ∧ superclass = .ofString text

theorem superclass_eq_ok_iff {name superclass : ClassName} :
    d.superclass name = .ok superclass ↔ d.Extends superclass := by
  unfold Directive.superclass Extends
  generalize d.value? "super" = value
  split
  · simp [defaultSuperclass, eq_comm]
  · simp
  · rename_i text hne
    simp [show text ≠ "" from hne, eq_comm]

/-- The interfaces are named between commas, with or without blanks around the names. -/
def Implements (d : Directive) (interfaces : List ClassName) : Prop :=
  ∃ parts, Text.Cuts (· == ',') ((d.value? "implements").getD "").toList parts ∧
    interfaces = ((parts.map Text.trim).filter (· ≠ [])).map .ofChars

theorem implements_iff {interfaces : List ClassName} :
    d.Implements interfaces ↔ interfaces = d.interfaces := by
  unfold Implements Directive.interfaces
  simp only [Text.cuts_iff, exists_eq_left]
  rw [List.filter_congr fun name _ => ?_]
  cases name <;> rfl

/-- The directive is valid as that of a class, and declares the header. -/
structure Heads (d : Directive) (header : ClassHeader) : Prop where
  names : ∃ name, d.value? "name" = some name ∧ name ≠ "" ∧ header.name = .ofString name
  flags : d.Flags header.modifiers
  extends_one : ∃ superclass, d.Extends superclass ∧ header.superclass = some superclass
  implements_all : d.Implements header.interfaces

theorem classHeader_eq_ok_iff {header : ClassHeader} :
    d.classHeader = .ok header ↔ d.Heads header := by
  unfold classHeader
  constructor
  · intro h
    obtain ⟨name, hname, h⟩ := exists_of_bind_eq_ok h
    obtain ⟨modifiers, hmodifiers, h⟩ := exists_of_bind_eq_ok h
    obtain ⟨superclass, hsuperclass, h⟩ := exists_of_bind_eq_ok h
    obtain rfl := Except.ok.inj h
    obtain ⟨hvalue, hne⟩ := declared_eq_ok_iff.1 hname
    exact ⟨⟨name, hvalue, hne, rfl⟩, modifiers_eq_ok_iff.1 hmodifiers,
      ⟨superclass, superclass_eq_ok_iff.1 hsuperclass, rfl⟩, implements_iff.2 rfl⟩
  · rintro ⟨⟨name, hvalue, hne, hname⟩, hflags, ⟨superclass, hextends, hsuper⟩, himplements⟩
    rw [declared_eq_ok_iff.2 ⟨hvalue, hne⟩, modifiers_eq_ok_iff.2 hflags]
    show (d.superclass (.ofString name) >>= fun superclass => _) = _
    obtain ⟨_, _, _, _⟩ := header
    obtain rfl : _ = ClassName.ofString name := hname
    obtain rfl : _ = some superclass := hsuper
    obtain rfl : _ = d.interfaces := implements_iff.1 himplements
    rw [superclass_eq_ok_iff.2 hextends]
    rfl

theorem Heads.unique {header other : ClassHeader} (h : d.Heads header) (h' : d.Heads other) :
    header = other :=
  Except.ok.inj ((classHeader_eq_ok_iff.2 h).symm.trans (classHeader_eq_ok_iff.2 h'))

end Directive

/-! ### Members -/

/-- The part of a written declaration that is its signature; a field may have a value after it. -/
def MemberKind.signaturePart : MemberKind → List Char → List Char
  | method, written => written
  | field, written => written.takeWhile (· ≠ '=')

theorem splitInitialValue_fst (written : String) :
    (splitInitialValue written).1 =
      String.ofList (Text.trim (written.toList.takeWhile (· ≠ '='))) := by
  unfold splitInitialValue
  split
  · rename_i before value hcut
    obtain ⟨hbefore, c, hc, heq⟩ := Text.cutFirst_eq_some_iff.1 hcut
    rw [heq, List.takeWhile_append_of_pos (by simpa using hbefore),
      List.takeWhile_cons_of_neg (by simpa using hc), List.append_nil]
  · rename_i hcut
    rw [List.takeWhile_eq_self_iff.2 (by simpa using Text.cutFirst_eq_none_iff.1 hcut)]

variable {kind : MemberKind}

theorem Signature.writes_trim_iff {cs : List Char} {s : Signature} :
    Writes kind (Text.trim cs) s ↔ Writes kind cs s := by
  have hsame : parse kind (String.ofList (Text.trim cs)) = parse kind (String.ofList cs) := by
    unfold parse
    simp only [String.toList_ofList, Text.trim_trim]
  rw [← String.toList_ofList (l := Text.trim cs), ← parse_eq_ok_iff, hsame, parse_eq_ok_iff,
    String.toList_ofList]

theorem MemberKind.writes_splitWritten_iff {written : String} {s : Signature} :
    Signature.Writes kind (kind.splitWritten written).1.toList s ↔
      Signature.Writes kind (kind.signaturePart written.toList) s := by
  cases kind with
  | method => rfl
  | field =>
    rw [splitWritten, splitInitialValue_fst, String.toList_ofList, Signature.writes_trim_iff]
    rfl

/-- The directive is valid as that of a member of the class, and declares the member. An owner that
is written has to be the class. -/
structure Directive.Makes (d : Directive) (owner : ClassName) (m : Member kind) : Prop where
  writes : ∃ written named, d.value? "sig" = some written ∧ written ≠ "" ∧
    Signature.Writes kind (kind.signaturePart written.toList) ⟨named, m.name, m.descriptor⟩ ∧
    ∀ text ∈ named, ClassName.ofString text = owner
  flags : d.Flags m.modifiers
  owner_eq : m.owner = owner

namespace Declarations

variable {declarations : Declarations} {d : Directive} {m : Member kind}

theorem member_eq_ok_iff : declarations.member kind d = .ok m ↔
    ∃ header, declarations.header = some header ∧ d.Makes header.name m := by
  constructor
  · intro h
    obtain ⟨header, written, parsed, hheader, hreads⟩ := reads_of_member h
    obtain ⟨hvalue, hne⟩ := Directive.declared_eq_ok_iff.1 hreads.written_eq
    refine ⟨header, hheader, ⟨written, parsed.owner, hvalue, hne, ?_, fun text htext => ?_⟩,
      Directive.modifiers_eq_ok_iff.1 hreads.modifiers_eq, hreads.owner_eq⟩
    · rw [← MemberKind.writes_splitWritten_iff, hreads.name_eq, hreads.descriptor_eq]
      exact Signature.parse_eq_ok_iff.1 hreads.parsed_eq
    · exact hreads.names_owner text htext
  · rintro ⟨header, hheader, ⟨written, named, hvalue, hne, hwrites, hnames⟩, hflags, howner⟩
    have hparse := Member.parse_eq_ok_iff_writes.2
      ⟨howner, rfl, named, MemberKind.writes_splitWritten_iff.2 hwrites, howner ▸ hnames⟩
    rw [member_eq, owner, hheader]
    show (d.declared "sig" >>= fun written => _) = _
    rw [Directive.declared_eq_ok_iff.2 ⟨hvalue, hne⟩]
    show (d.modifiers >>= fun modifiers => _) = _
    rw [Directive.modifiers_eq_ok_iff.2 hflags]
    exact mapError_eq_ok_iff.2 hparse

end Declarations

theorem Directive.Makes.unique {d : Directive} {owner : ClassName} {m other : Member kind}
    (h : d.Makes owner m) (h' : d.Makes owner other) : m = other := by
  have hmember {m : Member kind} (hm : d.Makes owner m) :
      ({ header := some ⟨owner, .empty, none, []⟩ } : Declarations).member kind d = .ok m :=
    Declarations.member_eq_ok_iff.2 ⟨_, rfl, hm⟩
  exact Except.ok.inj ((hmember h).symm.trans (hmember h'))

end UnitLink
