import UnitLink.Proofs.CanonicalSignatures
import UnitLink.Proofs.ClassFileLayout
import UnitLink.Proofs.DeclaredMembers
/-! Which declaration a lookup comes to. A class is asked for a member by one text, in which the
name and the descriptor of a signature are put together. The two can be told apart again: no name
has the character in it that its descriptor starts with, or that stands between them. So members
that were read share a text only if they share both, and the one that is found is the first that is
declared with this name and this descriptor, whether the list is searched or the positions of its
texts were entered in an index beforehand. -/
namespace UnitLink

variable {kind : MemberKind}

/-! ### Indexes -/

/-- Enters the keys with their positions, counted from a start. A key that has a position keeps
it. -/
def enterPositions (start : Nat) (keys : List String) (index : Std.HashMap String Nat) :
    Std.HashMap String Nat :=
  match keys with
  | [] => index
  | key :: keys => enterPositions (start + 1) keys (index.insertIfNew key start)

/-- The positions of a class's members of a kind, by their signatures. -/
def ClassUnit.index (c : ClassUnit) (kind : MemberKind) : Std.HashMap String Nat :=
  enterPositions 0 ((c.members kind).map Member.signature) ∅

section

variable {index : Std.HashMap String Nat} {key : String}

theorem getElem?_insertIfNew_eq_or (entered : String) (position : Nat) :
    (index.insertIfNew entered position)[key]? =
      index[key]?.or (if entered = key then some position else none) := by
  rw [Std.HashMap.getElem?_insertIfNew]
  by_cases hsame : entered = key
  · subst hsame
    cases hindex : index[entered]? with
    | none => simp [Std.HashMap.mem_iff_isSome_getElem?, hindex]
    | some known => simp [Std.HashMap.mem_iff_isSome_getElem?, hindex]
  · simp [hsame]

theorem enterPositions_getElem? (start : Nat) (keys : List String) :
    (enterPositions start keys index)[key]? =
      index[key]?.or ((keys.idxOf? key).map (start + ·)) := by
  induction keys generalizing start index with
  | nil => simp [enterPositions]
  | cons first keys ih =>
    rw [enterPositions, ih, getElem?_insertIfNew_eq_or, Option.or_assoc, List.idxOf?_cons]
    congr 1
    by_cases hsame : first = key
    · simp [hsame]
    · simp [hsame, Function.comp_def, Nat.add_assoc, Nat.add_comm 1]

end

namespace ClassUnit

variable {c : ClassUnit} {key : String}

theorem index_getElem? :
    (c.index kind)[key]? = (c.members kind).findIdx? fun m => m.signature == key := by
  rw [index, enterPositions_getElem?, Std.HashMap.getElem?_empty, Option.none_or, List.idxOf?,
    List.findIdx?_map]
  simp [Function.comp_def]

/-- A lookup through the index comes to the same as a search. -/
theorem find?_eq_index : c.find? kind key =
    (c.index kind)[key]?.bind fun i => (c.members kind)[i]? := by
  rw [index_getElem?]
  exact List.find?_eq_bind_findIdx?_getElem?

end ClassUnit

/-! ### Keys -/

theorem Signature.Writes.splitDescriptor_unqualified {cs : List Char} {s : Signature}
    (h : Writes kind cs s) : splitDescriptor kind (s.unqualified kind).toList =
      .ok (s.name.toList, s.descriptor.toList) := by
  obtain ⟨-, -, hunended, -⟩ := h.name
  obtain ⟨hne, hlast⟩ := h.describes.not_blank_last
  refine (splitDescriptor_eq_ok_iff ?_ h.describes).2 ⟨hunended, kind.gap, kind.gap_gap,
    toList_unqualified⟩
  -- the key ends as the descriptor does, which is not with a blank
  rwa [toList_unqualified, List.getLast?_append_of_ne_nil _ hne]

/-- Two signatures have one key just if they have one name and one descriptor. -/
theorem Signature.Writes.unqualified_eq_iff {cs cs' : List Char} {s t : Signature}
    (h : Writes kind cs s) (h' : Writes kind cs' t) :
    t.unqualified kind = s.unqualified kind ↔ t.name = s.name ∧ t.descriptor = s.descriptor := by
  constructor
  · intro hkey
    -- one text is split in one way only
    have hsplit := h'.splitDescriptor_unqualified
    rw [hkey, h.splitDescriptor_unqualified, Except.ok.injEq, Prod.mk.injEq] at hsplit
    exact ⟨(String.toList_inj.1 hsplit.1).symm, (String.toList_inj.1 hsplit.2).symm⟩
  · rintro ⟨hname, hdescriptor⟩
    rw [unqualified, unqualified, hname, hdescriptor]

namespace Member

/-- The member is what some text is read as, in some class. -/
def Parsed (m : Member kind) : Prop :=
  ∃ owner text modifiers, Member.parse owner text modifiers = .ok m

/-- The member has the name and the descriptor of the signature. -/
def NamedBy (m : Member kind) (s : Signature) : Prop :=
  m.name = s.name ∧ m.descriptor = s.descriptor

theorem Parsed.signature_eq_iff {m : Member kind} (h : m.Parsed) {cs : List Char} {s : Signature}
    (hwrites : Signature.Writes kind cs s) :
    m.signature = s.unqualified kind ↔ m.NamedBy s := by
  obtain ⟨owner, text, modifiers, hparse⟩ := h
  obtain ⟨parsed, hparsed, -, rfl⟩ := parse_eq_ok hparse
  exact hwrites.unqualified_eq_iff (Signature.parse_eq_ok_iff.1 hparsed)

end Member

/-! ### Lookups -/

namespace ClassUnit

/-- The member is declared at the position, and it is the first with the name and the descriptor of
the signature. -/
structure DeclaresFirstAt (c : ClassUnit) (s : Signature) (i : Nat) (m : Member kind) : Prop where
  declared : (c.members kind)[i]? = some m
  named : m.NamedBy s
  earlier : ∀ j < i, ∀ other : Member kind, (c.members kind)[j]? = some other → ¬ other.NamedBy s

variable {c : ClassUnit} {cs : List Char} {s : Signature} {m : Member kind} {i : Nat}

variable (hparsed : ∀ m ∈ c.members kind, m.Parsed) (hwrites : Signature.Writes kind cs s)

include hparsed hwrites

theorem index_eq_some_iff : (c.index kind)[s.unqualified kind]? = some i ↔
    ∃ m : Member kind, c.DeclaresFirstAt s i m := by
  -- at every position, texts may be compared in place of names and descriptors
  have hkey {j : Nat} (hj : j < (c.members kind).length) :
      ((c.members kind)[j].signature == s.unqualified kind) = true ↔
        (c.members kind)[j].NamedBy s := by
    rw [beq_iff_eq]
    exact (hparsed _ (List.getElem_mem hj)).signature_eq_iff hwrites
  rw [index_getElem?, List.findIdx?_eq_some_iff_getElem]
  constructor
  · rintro ⟨hi, hfound, hbefore⟩
    refine ⟨_, List.getElem?_eq_getElem hi, (hkey hi).1 hfound, fun j hj other hother => ?_⟩
    obtain ⟨hlength, rfl⟩ := List.getElem?_eq_some_iff.1 hother
    exact fun hnamed => hbefore j hj ((hkey hlength).2 hnamed)
  · rintro ⟨m, hdeclared, hnamed, hearlier⟩
    obtain ⟨hi, rfl⟩ := List.getElem?_eq_some_iff.1 hdeclared
    refine ⟨hi, (hkey hi).2 hnamed, fun j hj hsame => ?_⟩
    have hlength : j < (c.members kind).length := hj.trans hi
    exact hearlier j hj _ (List.getElem?_eq_getElem hlength) ((hkey hlength).1 hsame)

theorem find?_eq_some_iff_declaresFirstAt :
    c.find? kind (s.unqualified kind) = some m ↔ ∃ i, c.DeclaresFirstAt s i m := by
  rw [find?_eq_index, Option.bind_eq_some_iff]
  constructor
  · rintro ⟨i, hindex, hdeclared⟩
    obtain ⟨first, hfirst⟩ := (index_eq_some_iff hparsed hwrites).1 hindex
    obtain rfl : m = first := Option.some.inj (hdeclared.symm.trans hfirst.declared)
    exact ⟨i, hfirst⟩
  · rintro ⟨i, hfirst⟩
    exact ⟨i, (index_eq_some_iff hparsed hwrites).2 ⟨m, hfirst⟩, hfirst.declared⟩

theorem find?_eq_none_iff :
    c.find? kind (s.unqualified kind) = none ↔ ∀ m ∈ c.members kind, ¬ m.NamedBy s := by
  rw [find?, List.find?_eq_none]
  refine forall₂_congr fun m hm => ?_
  rw [beq_iff_eq, (hparsed m hm).signature_eq_iff hwrites]

theorem findPublic?_eq_some_iff_declaresFirstAt :
    c.findPublic? kind (s.unqualified kind) = some m ↔
      (∃ i, c.DeclaresFirstAt s i m) ∧ m.isPublic = true := by
  rw [findPublic?, Option.filter_eq_some_iff, find?_eq_some_iff_declaresFirstAt hparsed hwrites]

/-- Where the first declaration is hidden, those after it do not count. -/
theorem DeclaresFirstAt.findPublic?_eq_none (h : c.DeclaresFirstAt s i m)
    (hhidden : m.isPublic = false) : c.findPublic? kind (s.unqualified kind) = none := by
  have hfound := (find?_eq_some_iff_declaresFirstAt hparsed hwrites).2 ⟨i, h⟩
  rw [findPublic?, hfound, Option.filter_some, hhidden]
  rfl

end ClassUnit

/-! ### Classes that are read -/

theorem Source.parsed_of_discover {σ : Type} {s : Source σ} {c : ClassUnit}
    (h : s.discover.1 = .ok c) : ∀ m ∈ c.members kind, m.Parsed := by
  have hdiscover : s.discover = (.ok c, s.discover.2) := Prod.ext h rfl
  obtain ⟨opened, hopened⟩ := opens_of_discover_ok hdiscover
  obtain ⟨lines, -, hreads⟩ := reads_of_discover hopened hdiscover
  refine ((List.forall₂_and_left _ _).1 ((hreads kind).imp fun m d hread => ⟨?_, hread⟩)).1
  obtain ⟨written, parsed, hread⟩ := hread
  refine ⟨c.name, (kind.splitWritten written).1, m.modifiers, Member.parse_eq_ok_iff_writes.2
    ⟨hread.owner_eq, rfl, parsed.owner, ?_, fun named hnamed => ?_⟩⟩
  · rw [hread.name_eq, hread.descriptor_eq]
    exact Signature.parse_eq_ok_iff.1 hread.parsed_eq
  · rw [hread.owner_eq]
    exact hread.names_owner named hnamed

theorem ClassFile.parsed_of_parse {data : List UInt8} {c : ClassUnit} (h : parse data = .ok c) :
    ∀ m ∈ c.members kind, m.Parsed := by
  obtain ⟨layout, rest, rfl⟩ := exists_layout h
  have hgives := (Layout.parse_eq_ok_iff.1 h).members kind
  refine ((List.forall₂_and_left _ _).1 (List.Forall₂.flip
    (hgives.imp fun info m hgiven => (⟨?_, hgiven⟩ : m.Parsed ∧ _)))).1
  obtain ⟨name, descriptor, -, -, hread⟩ := hgiven.readAs
  exact ⟨_, _, _, Member.parse_eq_ok_iff.2 ⟨rfl, rfl, hread⟩⟩

/-! ### First declarations -/

/-- A class whose members were read is asked for a member by the unqualified text of any signature
that is read. It finds the first member declared with the name and the descriptor of the signature,
and its index has the position of this one; if no member has both, nothing is found. Among the
public members it is found just if it is public itself, so that no later declaration comes in for
one that is hidden. Signatures of other names or descriptors have other texts. -/
theorem ClassUnit.lookups_find_first_declared {c : ClassUnit}
    (hparsed : ∀ m ∈ c.members kind, m.Parsed) {text : String} {s : Signature}
    (hread : Signature.parse kind text = .ok s) :
    (∀ i, (c.index kind)[s.unqualified kind]? = some i ↔
      ∃ m : Member kind, c.DeclaresFirstAt s i m) ∧
    (∀ m : Member kind, c.find? kind (s.unqualified kind) = some m ↔
      ∃ i, c.DeclaresFirstAt s i m) ∧
    (c.find? kind (s.unqualified kind) = none ↔ ∀ m ∈ c.members kind, ¬ m.NamedBy s) ∧
    (∀ m : Member kind, c.findPublic? kind (s.unqualified kind) = some m ↔
      (∃ i, c.DeclaresFirstAt s i m) ∧ m.isPublic = true) ∧
    (∀ (i : Nat) (m : Member kind), c.DeclaresFirstAt s i m → m.isPublic = false →
      c.findPublic? kind (s.unqualified kind) = none) ∧
    ∀ (other : String) (t : Signature), Signature.parse kind other = .ok t →
      (t.unqualified kind = s.unqualified kind ↔
        t.name = s.name ∧ t.descriptor = s.descriptor) := by
  have hwrites := Signature.parse_eq_ok_iff.1 hread
  refine ⟨fun _ => index_eq_some_iff hparsed hwrites,
    fun _ => find?_eq_some_iff_declaresFirstAt hparsed hwrites, find?_eq_none_iff hparsed hwrites,
    fun _ => findPublic?_eq_some_iff_declaresFirstAt hparsed hwrites,
    fun _ _ hfirst hhidden => hfirst.findPublic?_eq_none hparsed hwrites hhidden, ?_⟩
  intro other t hother
  exact hwrites.unqualified_eq_iff (Signature.parse_eq_ok_iff.1 hother)

/-- A source declares a private method and then a public one, under one signature that is spelled in
two ways. -/
theorem ClassUnit.lookups_find_first_declared_hidden :
    let hidden : Member .method := ⟨.ofString "p.A", "f", "()V", .single .isPrivate⟩
    let c : ClassUnit := {
      name := .ofString "p.A", modifiers := .empty, superclass := some defaultSuperclass
      interfaces := [], fields := []
      methods := [⟨.ofString "p.A", "f", "(I)V", .single .isPublic⟩, hidden,
        { hidden with modifiers := .single .isPublic }] }
    (∀ m ∈ c.methods, m.Parsed) ∧
      Signature.parse .method " p/A/f()V" = .ok ⟨some "p/A", "f", "()V"⟩ ∧
      (c.index .method)["f()V"]? = some 1 ∧ c.find? .method "f()V" = some hidden ∧
      c.findPublic? .method "f()V" = none := by
  intro hidden c
  have hdiscovered : (Source.inMemory "A.j" (";@class|name=p.A\n" ++
      ";@method|sig=f(I)V|flags=public\n;@method|sig=f()V|flags=private\n" ++
        ";@method|sig=p.A.f()V|flags=public\n")).discover.1 = .ok c := by
    decide +kernel
  have hparsed : ∀ m ∈ c.members .method, m.Parsed := Source.parsed_of_discover hdiscovered
  have hread : Signature.parse .method " p/A/f()V" = .ok ⟨some "p/A", "f", "()V"⟩ := by
    decide +kernel
  have hfirst : c.DeclaresFirstAt ⟨some "p/A", "f", "()V"⟩ 1 hidden := by
    refine ⟨rfl, ⟨rfl, rfl⟩, fun j hj other hother hnamed => ?_⟩
    obtain rfl : j = 0 := Nat.lt_one_iff.1 hj
    obtain rfl := Option.some.inj hother
    exact absurd hnamed.2 (by decide)
  have hprivate : hidden.isPublic = false := Modifiers.has_single .isPrivate .isPublic
  obtain ⟨hindex, hfind, -, -, hpublic, -⟩ := lookups_find_first_declared hparsed hread
  exact ⟨hparsed, hread, (hindex 1).2 ⟨_, hfirst⟩, (hfind _).2 ⟨1, hfirst⟩,
    hpublic 1 _ hfirst hprivate⟩

end UnitLink
