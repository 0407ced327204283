import UnitLink.Proofs.MemberSignatures
import UnitLink.Resolver
/-! Members named by their own signatures. The unqualified text of a signature is what members are
looked up by. It is read as the signature that it was made of, without the owner, unless the name
starts with a blank, as a name can that stands behind a separator: that blank is then trimmed off
with those around the text, and the member is out of reach. -/
namespace UnitLink

variable {kind : MemberKind}

namespace Signature

variable {text : String} {s : Signature}

/-- The first character of the name is not a blank. -/
def StartsClear (s : Signature) : Prop := ∀ c ∈ s.name.toList.head?, Text.isBlank c = false

theorem toList_unqualified :
    (s.unqualified kind).toList = s.name.toList ++ kind.gap ++ s.descriptor.toList :=
  MemberKind.toList_signature

theorem Writes.names_trimStart {cs : List Char} (h : Writes kind cs s)
    (hleft : Text.trimStart s.name.toList ≠ []) : kind.Names (Text.trimStart s.name.toList) := by
  obtain ⟨-, hunreserved, hunended, -⟩ := h.name
  have hsub : Text.trimStart s.name.toList ⊆ s.name.toList := (List.dropWhile_suffix _).subset
  exact ⟨hleft, fun c hc => hunreserved c (hsub hc), fun c hc => hunended c (hsub hc),
    fun c hc => Text.not_blank_head_trimStart hc⟩

/-- The name of a field has no blanks, and one without an owner has none at its start. -/
theorem Writes.startsClear {cs : List Char} (h : Writes kind cs s)
    (hfirst : kind = .field ∨ s.owner = none) : s.StartsClear := by
  obtain ⟨-, -, hunended, hstarts⟩ := h.name
  rcases hfirst with rfl | hnone
  · exact fun c hc => hunended c (List.mem_of_mem_head? hc)
  · exact hstarts hnone

theorem parse_unqualified_of_left {cs : List Char} (h : Writes kind cs s)
    (hleft : Text.trimStart s.name.toList ≠ []) :
    parse kind (s.unqualified kind) =
      .ok ⟨none, String.ofList (Text.trimStart s.name.toList), s.descriptor⟩ := by
  have hnames := h.names_trimStart hleft
  have hblank : ∀ c ∈ s.name.toList.takeWhile Text.isBlank, Text.isBlank c :=
    fun c hc => List.mem_takeWhile_imp hc
  have hwrites := Writes.intro hblank (List.forall_mem_nil _) hnames.starts .unqualified
    hnames.nonempty hnames.unreserved hnames.unended kind.gap_gap h.describes
  have htext : s.name.toList.takeWhile Text.isBlank ++
      ([] ++ Text.trimStart s.name.toList ++ kind.gap ++ s.descriptor.toList) ++ [] =
        (s.unqualified kind).toList := by
    rw [toList_unqualified, List.nil_append, List.append_nil, ← List.append_assoc,
      ← List.append_assoc, Text.trimStart, List.takeWhile_append_dropWhile]
  rw [htext, String.ofList_toList] at hwrites
  exact parse_eq_ok_iff.2 hwrites

theorem parse_unqualified_of_blank {cs : List Char} (h : Writes kind cs s)
    (hblank : Text.trimStart s.name.toList = []) :
    parse kind (s.unqualified kind) = .error (.emptyName s.descriptor) := by
  have hall : ∀ c ∈ s.name.toList, Text.isBlank c := by
    simpa [Text.trimStart] using hblank
  cases kind with
  | field =>
    -- a name of a field ends before the first blank, so that it cannot be blank
    obtain ⟨hne, -, hunended, -⟩ := h.name
    obtain ⟨c, cs, hname⟩ := List.exists_cons_of_ne_nil hne
    have hc : c ∈ s.name.toList := hname ▸ List.mem_cons_self
    have hends : Text.isBlank c = false := hunended c hc
    rw [hall c hc] at hends
    cases hends
  | method =>
    -- the name goes with the blanks before the text, and the descriptor is all that is left
    obtain ⟨parameters, htype⟩ := h.describes
    obtain ⟨tail, htail⟩ := htype.exists_tail
    have hfirst : ∀ c ∈ s.descriptor.toList.head?, Text.isBlank c = false := by
      rw [htail]
      rintro c ⟨⟩
      rfl
    have htrim : Text.trim (s.unqualified .method).toList = s.descriptor.toList := by
      have hcore := Text.trim_append hall (List.forall_mem_nil _) hfirst
        fun c hc => htype.not_blank_last hc
      rwa [toList_unqualified, MemberKind.gap, List.append_nil, ← List.append_nil (_ ++ _)]
    have hsplit : splitDescriptor .method s.descriptor.toList = .ok ([], s.descriptor.toList) := by
      rw [htail]
      rfl
    have howner (text : String) : splitOwner text [] = .ok (none, []) := rfl
    simp only [parse, htrim, hsplit, howner, checkName, String.ofList_toList, bind, Except.bind,
      if_true]

theorem parse_unqualified {cs : List Char} (h : Writes kind cs s) :
    parse kind (s.unqualified kind) =
      if Text.trimStart s.name.toList = [] then .error (.emptyName s.descriptor)
      else .ok ⟨none, String.ofList (Text.trimStart s.name.toList), s.descriptor⟩ := by
  split
  · rename_i hblank
    exact parse_unqualified_of_blank h hblank
  · rename_i hleft
    exact parse_unqualified_of_left h hleft

/-- It is read as the signature without the owner just if the name does not start with a blank. -/
theorem parse_unqualified_eq_own_iff {cs : List Char} (h : Writes kind cs s) :
    parse kind (s.unqualified kind) = .ok ⟨none, s.name, s.descriptor⟩ ↔ s.StartsClear := by
  have hown : Text.trimStart s.name.toList = s.name.toList ↔ s.StartsClear :=
    Text.trimStart_eq_self_iff
  rw [← hown, parse_unqualified h]
  split
  · rename_i hblank
    rw [hblank]
    exact ⟨nofun, fun hnil => absurd hnil.symm h.name.1⟩
  · rw [Except.ok.injEq, Signature.mk.injEq, ← String.toList_inj, String.toList_ofList]
    simp only [true_and, and_true]

end Signature

/-! ### Members -/

theorem ClassUnit.signature_of_find? {c : ClassUnit} {key : String} {found : Member kind}
    (h : c.find? kind key = some found) : found.signature = key := by
  have hkey : (found.signature == key) = true :=
    List.find?_some (p := fun m : Member kind => m.signature == key) h
  exact eq_of_beq hkey

namespace Member

/-- The class has a member under what the signature of this one is read as, and that is declared
under the same signature. -/
def FoundIn (m : Member kind) (c : ClassUnit) : Prop :=
  ∃ parsed found, Signature.parse kind m.signature = .ok parsed ∧
    c.find? kind (parsed.unqualified kind) = some found ∧ found.signature = m.signature

/-- A member of a class is found by its own signature just if its name does not start with a
blank. -/
theorem foundIn_iff {owner : ClassName} {modifiers : Modifiers} {text : String} {m : Member kind}
    {s : Signature} (hread : Signature.parse kind text = .ok s)
    (hdeclares : Member.parse owner text modifiers = .ok m) {c : ClassUnit}
    (hmem : m ∈ c.members kind) : m.FoundIn c ↔ s.StartsClear := by
  obtain ⟨parsed, hparsed, -, rfl⟩ := parse_eq_ok hdeclares
  obtain rfl : s = parsed := Except.ok.inj (hread.symm.trans hparsed)
  have hwrites := Signature.parse_eq_ok_iff.1 hread
  constructor
  · rintro ⟨parsed, found, hown, hfound, hsame⟩
    -- the key is as long as the signature only if no blank of the name was lost
    have hkey : parsed.unqualified kind = s.unqualified kind :=
      (ClassUnit.signature_of_find? hfound).symm.trans hsame
    have hread : Signature.parse kind (s.unqualified kind) = .ok parsed := hown
    rw [Signature.parse_unqualified hwrites] at hread
    split at hread
    · cases hread
    · obtain rfl := Except.ok.inj hread
      rw [← String.toList_inj, Signature.toList_unqualified, Signature.toList_unqualified,
        List.append_assoc, List.append_assoc, String.toList_ofList] at hkey
      exact Text.trimStart_eq_self_iff.1 (List.append_cancel_right hkey)
  · intro hclear
    have hown := (Signature.parse_unqualified_eq_own_iff hwrites).2 hclear
    have hhas : (c.find? kind (s.unqualified kind)).isSome := by
      rw [ClassUnit.find?, List.find?_isSome]
      exact ⟨_, hmem, beq_self_eq_true _⟩
    obtain ⟨found, hfound⟩ := Option.isSome_iff_exists.1 hhas
    exact ⟨_, found, hown, hfound, ClassUnit.signature_of_find? hfound⟩

end Member

/-- The unqualified text of a signature is read as the signature without its owner, and a member
that is declared under the signature is found by that text, just if the name does not start with a
blank. That of a field never does, nor one with no owner before it; otherwise the blanks are lost,
and what is left of the name, if anything is, is read instead. -/
theorem Signature.unqualified_read_unless_blank {text : String} {s : Signature}
    (h : parse kind text = .ok s) :
    (parse kind (s.unqualified kind) =
      if Text.trimStart s.name.toList = [] then .error (.emptyName s.descriptor)
      else .ok ⟨none, String.ofList (Text.trimStart s.name.toList), s.descriptor⟩) ∧
    (parse kind (s.unqualified kind) = .ok ⟨none, s.name, s.descriptor⟩ ↔ s.StartsClear) ∧
    (kind = .field ∨ s.owner = none → s.StartsClear) ∧
    ∀ (owner : ClassName) (modifiers : Modifiers) (m : Member kind),
      Member.parse owner text modifiers = .ok m →
        ∀ c : ClassUnit, m ∈ c.members kind → (m.FoundIn c ↔ s.StartsClear) := by
  have hwrites := parse_eq_ok_iff.1 h
  exact ⟨parse_unqualified hwrites, parse_unqualified_eq_own_iff hwrites, hwrites.startsClear,
    fun _ _ _ hdeclares _ hmem => Member.foundIn_iff h hdeclares hmem⟩

theorem Signature.unqualified_read_unless_blank_dotted :
    parse .method "\t p.q/A.f([J)V \n" = .ok ⟨some "p.q/A", "f", "([J)V"⟩ ∧
      parse .method "f([J)V" = .ok ⟨none, "f", "([J)V"⟩ := by
  have hread : parse .method "\t p.q/A.f([J)V \n" = .ok ⟨some "p.q/A", "f", "([J)V"⟩ := by
    decide +kernel
  have hclear : StartsClear ⟨some "p.q/A", "f", "([J)V"⟩ := by
    intro c hc
    obtain rfl : 'f' = c := by simpa using hc
    decide
  exact ⟨hread, (unqualified_read_unless_blank hread).2.1.2 hclear⟩

/-- A name behind a separator may start with a blank that is no space and no tab. -/
theorem Signature.unqualified_loses_blank :
    ∃ (s : Signature) (m : Member .method), parse .method "A/\u3000f()V" = .ok s ∧
      parse .method (s.unqualified .method) ≠ .ok ⟨none, s.name, s.descriptor⟩ ∧
      Member.parse (.ofString "A") "A/\u3000f()V" .empty = .ok m ∧
      ¬ m.FoundIn ⟨⟨.ofString "A", .empty, none, []⟩, [m], []⟩ := by
  have hread : parse .method "A/\u3000f()V" = .ok ⟨some "A", "\u3000f", "()V"⟩ := by decide +kernel
  have hdeclares : Member.parse (.ofString "A") "A/\u3000f()V" .empty =
      .ok (⟨.ofString "A", "\u3000f", "()V", .empty⟩ : Member .method) := by
    decide +kernel
  refine ⟨_, _, hread, by decide +kernel, hdeclares, fun hfound => ?_⟩
  have hclear := (Member.foundIn_iff hread hdeclares List.mem_cons_self).1 hfound
  exact absurd (hclear '\u3000' (by decide)) (by decide)

end UnitLink
