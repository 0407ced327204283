import UnitLink.Proofs.MemoryLinks
import UnitLink.Proofs.Slashes
/-! The two spellings of class names. A name may be written with dots or with slashes wherever
classes are named: in what a source declares of its class and its supertypes, before the member
in the signature of a reference, among the libraries, and as the class that takes what resolves
nowhere or that is the execution context. Which links are made, and what the outputs have, is
the same for either spelling. -/
namespace UnitLink

/-! ### Signatures -/

theorem ofString_eq_of_alike {a b : String} (h : SpelledAlike a b) :
    ClassName.ofString b = ClassName.ofString a :=
  ClassName.ext h

namespace Signature

theorem undotted_isSeparator : Undotted isSeparator := rfl

theorem ne_of_not_separator {c : Char} (h : isSeparator c = false) : c ≠ '.' ∧ c ≠ '/' := by
  simpa [isSeparator, and_comm] using h

theorem splitOwner_alike {text : String} (text' : String) {qualified qualified' : List Char}
    (h : slashed qualified' = slashed qualified) {owner : Option String} {name : List Char}
    (hok : splitOwner text qualified = .ok (owner, name)) :
    ∃ owner', splitOwner text' qualified' = .ok (owner', name) ∧
      owner'.map ClassName.ofString = owner.map ClassName.ofString := by
  have hcuts := undotted_isSeparator.cutLast qualified'
  rw [h, undotted_isSeparator.cutLast qualified] at hcuts
  rcases splitOwner_eq_ok_iff.1 hok with ⟨hcut, rfl, rfl⟩ | ⟨written, hne, hcut, rfl⟩
  · have hplain : ∀ c ∈ name, c ≠ '.' ∧ c ≠ '/' := by
      rw [Text.cutLast, Option.map_eq_none_iff, Text.cutFirst_eq_none_iff] at hcut
      exact fun c hc => ne_of_not_separator (hcut c (List.mem_reverse.2 hc))
    obtain rfl := eq_of_slashed_eq h hplain
    exact ⟨none, splitOwner_eq_ok_iff.2 (.inl ⟨hcut, rfl, rfl⟩), rfl⟩
  · rw [hcut] at hcuts
    obtain ⟨⟨written', name'⟩, hcut', heq⟩ := Option.map_eq_some_iff.1 hcuts.symm
    obtain ⟨howner, hname⟩ := Prod.mk.inj heq
    have hplain : ∀ c ∈ name, c ≠ '.' ∧ c ≠ '/' := by
      obtain ⟨⟨after, before⟩, hfirst, hback⟩ := Option.map_eq_some_iff.1 hcut
      obtain ⟨hafter, -⟩ := Text.cutFirst_eq_some_iff.1 hfirst
      intro c hc
      rw [← (Prod.mk.inj hback).2, List.mem_reverse] at hc
      exact ne_of_not_separator (hafter c hc)
    obtain rfl := eq_of_slashed_eq hname hplain
    have hne' : written' ≠ [] := by
      rintro rfl
      exact hne (slashed_eq_nil_iff.1 howner.symm)
    refine ⟨_, splitOwner_eq_ok_iff.2 (.inr ⟨written', hne', hcut', rfl⟩), ?_⟩
    refine congrArg some (ofString_eq_of_alike (spelledAlike_iff.2 ?_))
    rwa [String.toList_ofList, String.toList_ofList]

def afterName (kind : MemberKind) (cs : List Char) : List Char :=
  match kind with
  | .method => cs.dropWhile (· != '(')
  | .field => cs.dropWhile fun c => !Text.isBlank c

theorem splitDescriptor_alike {kind : MemberKind} {cs cs' : List Char}
    (h : slashed cs' = slashed cs) (hafter : afterName kind cs' = afterName kind cs)
    {qualified descriptor : List Char}
    (hok : splitDescriptor kind cs = .ok (qualified, descriptor)) :
    ∃ qualified', splitDescriptor kind cs' = .ok (qualified', descriptor) ∧
      slashed qualified' = slashed qualified := by
  cases kind with
  | method =>
    have hundotted : Undotted (· != '(') := rfl
    unfold splitDescriptor at hok ⊢
    simp only [afterName] at hafter hok ⊢
    rw [hafter]
    split at hok
    · cases hok
    · obtain ⟨rfl, rfl⟩ := Prod.mk.inj (Except.ok.inj hok)
      exact ⟨_, rfl, by rw [← hundotted.takeWhile, h, hundotted.takeWhile]⟩
  | field =>
    have hundotted : Undotted fun c => !Text.isBlank c := by unfold Undotted; decide
    unfold splitDescriptor Text.cutFirst at hok ⊢
    simp only [afterName] at hafter hok ⊢
    rw [hafter]
    cases hdrop : cs.dropWhile fun c => !Text.isBlank c with
    | nil =>
      rw [hdrop] at hok
      cases hok
    | cons c after =>
      rw [hdrop] at hok
      obtain ⟨rfl, rfl⟩ := Prod.mk.inj (Except.ok.inj hok)
      exact ⟨_, rfl, by rw [← hundotted.takeWhile, h, hundotted.takeWhile]⟩

/-- A signature whose owner is spelled in another way is the signature of the same member. -/
theorem sameMember_of_alike {kind : MemberKind} {a b : String} (h : SpelledAlike a b)
    (hafter : afterName kind (Text.trim b.toList) = afterName kind (Text.trim a.toList)) :
    Resolver.SameMember kind a b := by
  intro parsed hparsed
  obtain ⟨⟨qualified, descriptor⟩, hsplit, hparsed⟩ := exists_of_bind_eq_ok hparsed
  obtain ⟨⟨owner, name⟩, howner, hparsed⟩ := exists_of_bind_eq_ok hparsed
  obtain ⟨done, hname, hparsed⟩ := exists_of_bind_eq_ok hparsed
  obtain ⟨done', hdescriptor, hparsed⟩ := exists_of_bind_eq_ok hparsed
  obtain rfl := Except.ok.inj hparsed
  have hslashed : slashed (Text.trim b.toList) = slashed (Text.trim a.toList) := by
    rw [slashed_trim, slashed_trim]
    exact congrArg Text.trim (spelledAlike_iff.1 h)
  obtain ⟨qualified', hsplit', hqualified⟩ := splitDescriptor_alike hslashed hafter hsplit
  obtain ⟨owner', howner', hsame⟩ :=
    splitOwner_alike (String.ofList (Text.trim b.toList)) hqualified howner
  refine ⟨owner', ?_, hsame⟩
  unfold parse
  simp only [hsplit', howner', bind, Except.bind]
  rw [checkName_eq_ok_iff.2 (checkName_eq_ok_iff.1 hname),
    checkDescriptor_eq_ok_iff.2 (checkDescriptor_eq_ok_iff.1 hdescriptor)]
  rfl

end Signature

/-! ### Directives -/

namespace Directive

theorem required_eq_ok_iff {d : Directive} {key value : String} :
    d.required key = .ok value ↔ d.value? key = some value ∧ value ≠ "" := by
  unfold required
  split
  · simp_all
  · simp_all
  · simp_all; grind

theorem interfaceNames_slashed (cs : List Char) :
    (((Text.pieces (· == ',') (UnitLink.slashed cs)).map Text.trim).filter
        fun name => !name.isEmpty).map ClassName.ofChars =
      (((Text.pieces (· == ',') cs).map Text.trim).filter
        fun name => !name.isEmpty).map ClassName.ofChars := by
  have hundotted : Undotted (· == ',') := rfl
  have htrim : Text.trim ∘ UnitLink.slashed = UnitLink.slashed ∘ Text.trim :=
    funext fun name => (slashed_trim name).symm
  have hempty : (fun name : List Char => !name.isEmpty) ∘ UnitLink.slashed =
      fun name => !name.isEmpty := by
    funext name
    cases name <;> rfl
  have hname : ClassName.ofChars ∘ UnitLink.slashed = ClassName.ofChars :=
    funext fun name => ClassName.ext (congrArg String.ofList (slashed_slashed name))
  rw [hundotted.pieces, List.map_map, htrim, ← List.map_map, List.filter_map, hempty,
    List.map_map, hname]

namespace Respelled

variable {d d' : Directive}

theorem required (h : d.Respelled d') {key value : String} (hok : d.required key = .ok value) :
    ∃ value', d'.required key = .ok value' ∧ SpelledAlike value value' ∧
      fixedPart d.kind key value' = fixedPart d.kind key value := by
  obtain ⟨hvalue, hne⟩ := required_eq_ok_iff.1 hok
  have hfixed := h.map_fixedPart key
  rcases h.value?_alike key with ⟨hnone, -⟩ | ⟨_, value', hsome, hvalue', halike⟩
  · rw [hvalue] at hnone
    cases hnone
  · obtain rfl := Option.some.inj (hvalue.symm.trans hsome)
    rw [hvalue, hvalue'] at hfixed
    have hne' : value' ≠ "" := fun hempty => hne (halike.eq_empty_iff.1 hempty)
    exact ⟨value', required_eq_ok_iff.2 ⟨hvalue', hne'⟩, halike, Option.some.inj hfixed⟩

theorem sameReference (h : d.Respelled d') : d.SameReference d' where
  kind_eq := h.kind_eq
  flag_eq := by
    unfold flag
    rw [h.value?_eq "local" fun value => by cases d.kind <;> rfl, h.kind_eq]
  pending_eq := by
    unfold pending number
    rw [h.value?_eq "pending" fun value => by cases d.kind <;> rfl, h.kind_eq]
  signature kind hkind signature hok := by
    obtain ⟨signature', hok', halike, hfixed⟩ := h.required hok
    refine ⟨signature', hok', Signature.sameMember_of_alike halike ?_⟩
    cases hd : d.kind <;> rw [hd] at hkind hfixed <;> cases hkind
    · exact hfixed
    · exact hfixed
    · exact hfixed

theorem required_of_empty {key : String} (h : d.value? key = some "") :
    d.required key = .error (.missingAttribute d.kind key) := by
  unfold Directive.required
  rw [h]
  rfl

theorem required_of_none {key : String} (h : d.value? key = none) :
    d.required key = .error (.missingAttribute d.kind key) := by
  unfold Directive.required
  rw [h]

theorem map_declared (h : d.Respelled d') (key : String) :
    (d'.declared key).map ClassName.ofString = (d.declared key).map ClassName.ofString := by
  unfold declared
  rcases h.value?_alike key with ⟨hnone, hnone'⟩ | ⟨value, value', hvalue, hvalue', halike⟩
  · rw [required_of_none hnone, required_of_none hnone', h.kind_eq]
  · by_cases hempty : value = ""
    · rw [hempty] at hvalue
      rw [halike.eq_empty_iff.2 hempty] at hvalue'
      rw [required_of_empty hvalue, required_of_empty hvalue', h.kind_eq]
    · have hempty' : value' ≠ "" := fun heq => hempty (halike.eq_empty_iff.1 heq)
      rw [required_eq_ok_iff.2 ⟨hvalue, hempty⟩, required_eq_ok_iff.2 ⟨hvalue', hempty'⟩]
      exact congrArg Except.ok (ofString_eq_of_alike halike)

theorem superclass_of_written {text : String} (h : d.value? "super" = some text)
    (hwritten : text ≠ "") (name : ClassName) :
    d.superclass name = .ok (ClassName.ofString text) := by
  unfold superclass
  rw [h]
  split
  · rename_i heq
    cases heq
  · rename_i heq
    exact absurd (Option.some.inj heq) hwritten
  · rename_i heq
    rw [Option.some.inj heq]

theorem superclass_eq (h : d.Respelled d') (name : ClassName) :
    d'.superclass name = d.superclass name := by
  rcases h.value?_alike "super" with ⟨hnone, hnone'⟩ | ⟨value, value', hvalue, hvalue', halike⟩
  · unfold superclass
    rw [hnone, hnone']
  · by_cases hempty : value = ""
    · rw [hempty] at hvalue
      rw [halike.eq_empty_iff.2 hempty] at hvalue'
      unfold superclass
      rw [hvalue, hvalue']
    · have hempty' : value' ≠ "" := fun heq => hempty (halike.eq_empty_iff.1 heq)
      rw [superclass_of_written hvalue hempty, superclass_of_written hvalue' hempty',
        ofString_eq_of_alike halike]

theorem interfaces_eq (h : d.Respelled d') : d'.interfaces = d.interfaces := by
  have halike : UnitLink.slashed ((d'.value? "implements").getD "").toList =
      UnitLink.slashed ((d.value? "implements").getD "").toList := by
    rcases h.value?_alike "implements" with
      ⟨hnone, hnone'⟩ | ⟨value, value', hvalue, hvalue', halike⟩
    · rw [hnone, hnone']
    · rw [hvalue, hvalue']
      exact spelledAlike_iff.1 halike
  unfold interfaces
  rw [← interfaceNames_slashed, halike, interfaceNames_slashed]

theorem modifiers_eq (h : d.Respelled d') : d'.modifiers = d.modifiers := by
  unfold modifiers
  rw [h.value?_eq "flags" fun value => by cases d.kind <;> rfl]

theorem classHeader_eq (h : d.Respelled d') : d'.classHeader = d.classHeader := by
  have hheader : ∀ d : Directive, d.classHeader =
      (d.declared "name").map ClassName.ofString >>= fun name =>
        d.modifiers >>= fun modifiers => d.superclass name >>= fun superclass =>
          .ok ⟨name, modifiers, some superclass, d.interfaces⟩ := by
    intro d
    unfold classHeader
    cases d.declared "name" <;> rfl
  rw [hheader, hheader, h.map_declared, h.modifiers_eq, h.interfaces_eq]
  simp only [h.superclass_eq]

theorem declared_eq (h : d.Respelled d') (key : String)
    (hkey : ∀ value, fixedPart d.kind key value = value.toList) :
    d'.declared key = d.declared key := by
  unfold declared Directive.required
  rw [h.value?_eq key hkey, h.kind_eq]

theorem number_eq (h : d.Respelled d') (key : String) (default : Nat)
    (hkey : ∀ value, fixedPart d.kind key value = value.toList) :
    d'.number key default = d.number key default := by
  unfold number
  rw [h.value?_eq key hkey, h.kind_eq]

theorem member_eq (h : d.Respelled d') (declarations : Declarations) (kind : MemberKind)
    (hsig : ∀ value, fixedPart d.kind "sig" value = value.toList) :
    declarations.member kind d' = declarations.member kind d := by
  unfold Declarations.member
  rw [h.declared_eq "sig" hsig, h.modifiers_eq]

theorem add_eq (h : d.Respelled d') (declarations : Declarations) :
    declarations.add d' = declarations.add d := by
  unfold Declarations.add
  rw [h.kind_eq]
  cases hkind : d.kind with
  | classHeader => simp only [h.classHeader_eq]
  | field =>
    simp only [h.member_eq declarations .field fun value => by rw [hkind]; rfl]
  | method =>
    simp only [h.member_eq declarations .method fun value => by rw [hkind]; rfl]
  | invokeBegin | invokeEnd | readField | classOf | glueFields | glueInit => rfl

theorem expansion_eq (h : d.Respelled d') (c : ClassUnit) (glue : GlueFields)
    (resolved : Option Resolved) :
    Resolution.expansion c glue d' resolved = Resolution.expansion c glue d resolved := by
  have hbegin : ∀ (r : Resolution) (reference : Reference .method),
      r.invokeBegin d' reference = r.invokeBegin d reference := by
    intro r reference
    unfold Resolution.invokeBegin
    rw [h.sameReference.pending_eq]
  unfold Resolution.expansion Resolution.expand
  rw [h.kind_eq]
  cases hkind : d.kind with
  | classHeader =>
    unfold Resolution.classHeader
    simp only [h.classHeader_eq]
  | field =>
    unfold Resolution.fieldLine
    simp only [h.declared_eq "sig" fun value => by rw [hkind]; rfl, h.modifiers_eq]
  | method =>
    unfold Resolution.methodLine
    simp only [h.declared_eq "sig" fun value => by rw [hkind]; rfl, h.modifiers_eq]
  | glueInit =>
    unfold Resolution.glueInit
    simp only [h.number_eq "context" 1 fun value => by rw [hkind]; rfl]
  | glueFields => rfl
  | invokeBegin =>
    rcases resolved with _ | resolved
    · rfl
    · cases resolved with
      | invocation reference => exact hbegin _ reference
      | unpaired | fieldRead | classOf => rfl
  | invokeEnd | readField | classOf =>
    rcases resolved with _ | resolved
    · rfl
    · cases resolved <;> rfl

end Respelled
end Directive

/-! ### Lines -/

/-- A line that is read of a respelled text. -/
structure Line.Respelled (line line' : Line) : Prop where
  number_eq : line'.number = line.number
  directive : Option.Rel Directive.Respelled line.directive line'.directive

theorem LineRespelled.exists_read {text text' : String} (h : LineRespelled text text')
    {number : Nat} {line : Line} (hread : Line.read number (.ok text) = .ok line) :
    ∃ line', Line.read number (.ok text') = .ok line' ∧ line.Respelled line' := by
  have hnumber := Line.number_of_read hread
  obtain ⟨htext, hparsed⟩ := Line.of_read hread
  obtain rfl := Except.ok.inj htext
  cases hd : line.directive with
  | none =>
    rw [hd] at hparsed
    obtain rfl := h.eq_of_no_directive hparsed
    exact ⟨line, hread, rfl, by rw [hd]; exact .none⟩
  | some d =>
    rw [hd] at hparsed
    obtain ⟨d', hparsed', hrespelled⟩ := h.exists_directive hparsed
    refine ⟨⟨number, text', some d'⟩, ?_, hnumber.symm, by rw [hd]; exact .some hrespelled⟩
    rw [Line.read, hparsed']

variable {source : String} {texts texts' : List String}

theorem readLines_respelled (h : List.Forall₂ LineRespelled texts texts') {number : Nat}
    {lines : List Line} (hread : readLines source number (texts.map .ok) = .ok lines) :
    ∃ lines', readLines source number (texts'.map .ok) = .ok lines' ∧
      List.Forall₂ Line.Respelled lines lines' := by
  induction h generalizing number lines with
  | nil =>
    obtain rfl := Except.ok.inj hread
    exact ⟨[], rfl, .nil⟩
  | @cons text text' texts texts' htext _ ih =>
    obtain ⟨line, others, hline, hothers, rfl⟩ := readLines_cons_eq_ok hread
    obtain ⟨line', hline', hrespelled⟩ := htext.exists_read hline
    obtain ⟨others', hothers', hall⟩ := ih hothers
    refine ⟨line' :: others', ?_, .cons hrespelled hall⟩
    rw [List.map_cons, readLines_cons_of_ok hline', hothers']
    rfl

theorem Line.Respelled.visit_eq {line line' : Line} (h : line.Respelled line')
    (declarations : Declarations) :
    Declarations.visit line' declarations = Declarations.visit line declarations := by
  obtain ⟨-, hdirective⟩ := h
  unfold Declarations.visit
  generalize line.directive = directive at hdirective ⊢
  generalize line'.directive = directive' at hdirective ⊢
  cases hdirective with
  | none => rfl
  | some hrespelled => simp only [hrespelled.add_eq]

theorem ofLines_respelled (h : List.Forall₂ LineRespelled texts texts') {c : ClassUnit}
    (hok : Declarations.ofLines source (texts.map .ok) = .ok c) :
    Declarations.ofLines source (texts'.map .ok) = .ok c := by
  suffices hpass : ∀ number declarations after,
      visitLines (m := Id) source Declarations.visit number (texts.map .ok) declarations =
        (.ok (), after) →
      visitLines (m := Id) source Declarations.visit number (texts'.map .ok) declarations =
        (.ok (), after) by
    unfold Declarations.ofLines at hok ⊢
    generalize hstart : visitLines (m := Id) source Declarations.visit 1 (texts.map .ok) {} = pass
      at hok
    obtain ⟨failure | done, declarations⟩ := pass
    · cases hok
    · rw [hpass _ _ _ hstart]
      exact hok
  clear hok
  induction h with
  | nil => exact fun _ _ _ hstart => hstart
  | @cons text text' texts texts' htext _ ih =>
    intro number declarations after hstart
    rw [List.map_cons] at hstart ⊢
    unfold visitLines at hstart ⊢
    cases hline : Line.read number (.ok text) with
    | error failure =>
      rw [hline] at hstart
      cases hstart
    | ok line =>
      obtain ⟨line', hline', hrespelled⟩ := htext.exists_read hline
      rw [hline] at hstart
      rw [hline']
      simp only [hrespelled.visit_eq] at hstart ⊢
      generalize Declarations.visit line declarations = visited at hstart ⊢
      obtain ⟨failure | done, next⟩ := visited
      · cases hstart
      · exact ih _ _ _ hstart

theorem LineRespelled.lineOutput_eq {text text' : String} (h : LineRespelled text text')
    {c : ClassUnit} {glue : GlueFields} {table : LineTable Resolved} {number : Nat} {part : String}
    (hok : Resolution.lineOutput c glue table number text = .ok part) :
    Resolution.lineOutput c glue table number text' = .ok part := by
  unfold Resolution.lineOutput at hok ⊢
  cases hparsed : Directive.parse text with
  | error fault =>
    rw [hparsed] at hok
    cases hok
  | ok directive =>
    cases directive with
    | none =>
      rw [h.eq_of_no_directive hparsed]
      exact hok
    | some d =>
      obtain ⟨d', hparsed', hrespelled⟩ := h.exists_directive hparsed
      rw [hparsed] at hok
      rw [hparsed']
      simp only [hrespelled.expansion_eq, hrespelled.indent_eq]
      exact hok

theorem lineOutputs_respelled (h : List.Forall₂ LineRespelled texts texts') {c : ClassUnit}
    {glue : GlueFields} {table : LineTable Resolved} {parts : List String}
    (hok : Resolution.lineOutputs c glue table texts = .ok parts) :
    Resolution.lineOutputs c glue table texts' = .ok parts := by
  unfold Resolution.lineOutputs at hok ⊢
  generalize 1 = start at hok ⊢
  induction h generalizing start parts with
  | nil => exact hok
  | @cons text text' texts texts' htext _ ih =>
    rw [List.zipIdx_cons, List.mapM_cons] at hok ⊢
    obtain ⟨part, hfirst, hok⟩ := exists_of_bind_eq_ok hok
    obtain ⟨others, hothers, hok⟩ := exists_of_bind_eq_ok hok
    simp only [htext.lineOutput_eq hfirst, ih _ hothers]
    exact hok

/-! ### Sources -/

variable {load : ClassName → LoadAnswer} {size : Nat}

namespace Source

/-- Discovered sources in memory that have respelled lines and declare the same class. -/
structure Respelled (x x' : Source MemoryStore × ClassUnit) : Prop where
  name_eq : x'.1.name = x.1.name
  declared_eq : x'.2 = x.2
  lines : ∃ text text', x.1.Waiting text ∧ x'.1.Waiting text' ∧
    List.Forall₂ LineRespelled (textLines text) (textLines text')

variable {x x' : Source MemoryStore × ClassUnit} {r : Resolver} {context : ClassName}

theorem Respelled.symm (h : Respelled x x') : Respelled x' x := by
  obtain ⟨hname, hdeclared, text, text', hwaiting, hwaiting', hlines⟩ := h
  exact ⟨hname.symm, hdeclared.symm, text', text, hwaiting', hwaiting,
    (hlines.imp fun _ _ hline => hline.symm).flip⟩

theorem Respelled.linkAlone_eq_ok (h : Respelled x x') {output : String}
    (hok : x.1.linkAlone x.2 r context (.fixed load size) = .ok output) :
    x'.1.linkAlone x'.2 r context (.fixed load size) = .ok output := by
  obtain ⟨hname, hdeclared, text, text', hwaiting, hwaiting', hrespelled⟩ := h
  rw [hdeclared]
  refine hwaiting.linkAlone_carries hwaiting' hname (fun lines hlines => ?_)
    (fun glue table parts hparts => lineOutputs_respelled hrespelled hparts) hok
  obtain ⟨lines', hlines', hall⟩ := readLines_respelled hrespelled hlines
  refine ⟨lines', hlines', hall.imp fun line line' hline => ?_⟩
  have hdirective := hline.directive
  refine Bindings.lineCarries_of (.refl load r) hline.number_eq (fun hnone => ?_) fun d hd => ?_
  · rw [hnone] at hdirective
    cases hdirective' : line'.directive with
    | none => rfl
    | some d' =>
      rw [hdirective'] at hdirective
      cases hdirective
  · rw [hd] at hdirective
    cases hdirective' : line'.directive with
    | none =>
      rw [hdirective'] at hdirective
      cases hdirective
    | some d' =>
      rw [hdirective'] at hdirective
      cases hdirective with
      | some hrespelled =>
        exact ⟨d', rfl, hrespelled.sameReference, fun kind parsed _ _ reference hfound => hfound⟩

/-- Respelled sources come to the same output, or both come to none. -/
theorem Respelled.toOption_linkAlone (h : Respelled x x') :
    (x'.1.linkAlone x'.2 r context (.fixed load size)).toOption =
      (x.1.linkAlone x.2 r context (.fixed load size)).toOption := by
  ext output
  rw [toOption_eq_some_iff, toOption_eq_some_iff]
  exact ⟨h.symm.linkAlone_eq_ok, h.linkAlone_eq_ok⟩

end Source

/-! ### Jobs -/

/-- A job of sources in memory as it is written: the sources with their names and texts, and the
classes in either spelling. -/
structure WrittenJob where
  sources : List (String × String)
  libraries : List String
  unresolved : Option String
  context : String
  workers : WorkerRequest := {}

namespace WrittenJob

variable {w w' : WrittenJob}

def job (w : WrittenJob) : Job Unit MemoryStore where
  sources := w.sources.map fun s => Source.inMemory s.1 s.2
  common := ()
  libraries := w.libraries.map ClassName.ofString
  unresolved := w.unresolved.map ClassName.ofString
  context := ClassName.ofString w.context
  workers := w.workers

/-- The same job with dots and slashes in each other's place, where these separate packages,
classes and members. -/
structure Respelled (w w' : WrittenJob) : Prop where
  sources : List.Forall₂ (fun s s' => s'.1 = s.1 ∧
    List.Forall₂ LineRespelled (textLines s.2) (textLines s'.2)) w.sources w'.sources
  libraries : List.Forall₂ SpelledAlike w.libraries w'.libraries
  unresolved : Option.Rel SpelledAlike w.unresolved w'.unresolved
  context : SpelledAlike w.context w'.context
  workers_eq : w'.workers = w.workers

theorem Respelled.symm (h : w.Respelled w') : w'.Respelled w where
  sources := (h.sources.imp fun s s' hs =>
    ⟨hs.1.symm, (hs.2.imp fun _ _ hline => hline.symm).flip⟩).flip
  libraries := (h.libraries.imp fun _ _ halike => halike.symm).flip
  unresolved := by
    have hunresolved := h.unresolved
    generalize w.unresolved = target at hunresolved ⊢
    generalize w'.unresolved = target' at hunresolved ⊢
    cases hunresolved with
    | none => exact .none
    | some halike => exact .some halike.symm
  context := h.context.symm
  workers_eq := h.workers_eq.symm

theorem inMemory_job (w : WrittenJob) : w.job.InMemory := by
  intro s hs
  obtain ⟨written, -, rfl⟩ := List.mem_map.1 hs
  exact ⟨_, _, rfl⟩

theorem Respelled.libraries_eq (h : w.Respelled w') : w'.job.libraries = w.job.libraries := by
  have hlibraries := h.libraries
  show w'.libraries.map ClassName.ofString = w.libraries.map ClassName.ofString
  generalize w.libraries = libraries at hlibraries ⊢
  generalize w'.libraries = libraries' at hlibraries ⊢
  induction hlibraries with
  | nil => rfl
  | cons halike _ ih => rw [List.map_cons, List.map_cons, ofString_eq_of_alike halike, ih]

theorem Respelled.unresolved_eq (h : w.Respelled w') : w'.job.unresolved = w.job.unresolved := by
  have hunresolved := h.unresolved
  show w'.unresolved.map ClassName.ofString = w.unresolved.map ClassName.ofString
  generalize w.unresolved = target at hunresolved ⊢
  generalize w'.unresolved = target' at hunresolved ⊢
  cases hunresolved with
  | none => rfl
  | some halike => exact congrArg some (ofString_eq_of_alike halike)

theorem Respelled.context_eq (h : w.Respelled w') : w'.job.context = w.job.context :=
  ofString_eq_of_alike h.context

variable {discovered : List (Source MemoryStore × ClassUnit)} {r : Resolver}

theorem discovered_respelled {sources sources' : List (String × String)}
    (h : List.Forall₂ (fun s s' => s'.1 = s.1 ∧
      List.Forall₂ LineRespelled (textLines s.2) (textLines s'.2)) sources sources')
    (hdiscovered : (sources.map fun s => Source.inMemory s.1 s.2).map Source.discover =
      discovered.map fun x => (.ok x.2, x.1)) :
    ∃ discovered', (sources'.map fun s => Source.inMemory s.1 s.2).map Source.discover =
        discovered'.map (fun x => (.ok x.2, x.1)) ∧
      List.Forall₂ Source.Respelled discovered discovered' := by
  induction h generalizing discovered with
  | nil =>
    obtain rfl : discovered = [] := by simpa using hdiscovered.symm
    exact ⟨[], rfl, .nil⟩
  | @cons s s' sources sources' hs _ ih =>
    obtain ⟨hsame, hlines⟩ := hs
    obtain _ | ⟨x, discovered⟩ := discovered
    · cases hdiscovered
    · obtain ⟨hfirst, hothers⟩ := List.cons.inj hdiscovered
      obtain ⟨others, hothers', hall⟩ := ih hothers
      obtain ⟨hwaiting, hname, hclass⟩ := Source.of_discover_inMemory hfirst
      have hfresh := Source.waiting_inMemory s'.1 s'.2
      let after := ((Source.inMemory s'.1 s'.2).opened s'.2).releaseInput
      have hfirst' : (Source.inMemory s'.1 s'.2).discover = (.ok x.2, after) := by
        rw [hfresh.discover]
        refine congrArg (·, _) ?_
        show Declarations.ofLines s'.1 _ = _
        rw [hsame]
        exact ofLines_respelled hlines hclass
      refine ⟨(after, x.2) :: others, congrArg₂ List.cons hfirst' hothers', .cons ?_ hall⟩
      exact ⟨hsame.trans hname.symm, rfl, s.2, s'.2, hwaiting, hfresh.releaseInput, hlines⟩

/-- A respelled job comes to its second phase with the same resolver. -/
theorem Respelled.begins (h : w.Respelled w')
    (hbegins : w.job.Begins (.fixed load size) discovered r ()) :
    ∃ discovered', w'.job.Begins (.fixed load size) discovered' r () ∧
      List.Forall₂ Source.Respelled discovered discovered' := by
  obtain ⟨discovered', hdiscovered', hall⟩ :=
    discovered_respelled h.sources hbegins.discovered_eq
  have hclasses : (discovered'.map fun x => (⟨x.1.name, x.2⟩ : Discovered)) =
      discovered.map fun x => ⟨x.1.name, x.2⟩ := by
    clear hdiscovered' hbegins
    induction hall with
    | nil => rfl
    | cons hx _ ih => rw [List.map_cons, List.map_cons, hx.name_eq, hx.declared_eq, ih]
  obtain ⟨libraries, hloaded, hbuild⟩ := hbegins.built
  refine ⟨discovered', ⟨?_, hdiscovered', libraries, ?_, ?_⟩, hall⟩
  · show w'.workers.Granted
    rw [h.workers_eq]
    exact hbegins.started
  · rw [h.libraries_eq]
    exact hloaded
  · rw [h.unresolved_eq, hclasses]
    exact hbuild

theorem Respelled.begins_iff (h : w.Respelled w') :
    (∃ discovered r, w.job.Begins (.fixed load size) discovered r ()) ↔
      ∃ discovered r, w'.job.Begins (.fixed load size) discovered r () := by
  constructor
  · rintro ⟨discovered, r, hbegins⟩
    obtain ⟨discovered', hbegins', -⟩ := h.begins hbegins
    exact ⟨discovered', r, hbegins'⟩
  · rintro ⟨discovered', r, hbegins'⟩
    obtain ⟨discovered, hbegins, -⟩ := h.symm.begins hbegins'
    exact ⟨discovered, r, hbegins⟩

/-- Dots and slashes may be in each other's place. A job in memory links exactly if it does so
in the other spelling, and the outputs are the same in any case. -/
theorem link_respelled (h : w.Respelled w') (schedule schedule' : List Nat) :
    ((w.job.link schedule (.fixed load size)).result = .ok () ↔
        (w'.job.link schedule' (.fixed load size)).result = .ok ()) ∧
      (w'.job.link schedule' (.fixed load size)).outputs =
        (w.job.link schedule (.fixed load size)).outputs := by
  -- a respelled job begins if the job does, and no output is left where neither does
  by_cases hbegun : ∃ discovered r, w.job.Begins (.fixed load size) discovered r ()
  · obtain ⟨discovered, r, hbegins⟩ := hbegun
    obtain ⟨discovered', hbegins', hall⟩ := h.begins hbegins
    have houtputs : (w'.job.link schedule' (.fixed load size)).outputs =
        (w.job.link schedule (.fixed load size)).outputs := by
      rw [(w.inMemory_job.link_of_begins schedule hbegins).2,
        (w'.inMemory_job.link_of_begins schedule' hbegins').2, h.context_eq]
      clear hbegins hbegins'
      induction hall with
      | nil => rfl
      | cons hx _ ih => rw [List.map_cons, List.map_cons, hx.toOption_linkAlone, ih]
    refine ⟨?_, houtputs⟩
    rw [w.inMemory_job.all_isSome_iff schedule hbegins,
      w'.inMemory_job.all_isSome_iff schedule' hbegins', houtputs]
  · have hbegun' : ¬∃ discovered r, w'.job.Begins (.fixed load size) discovered r () :=
      fun hbegins' => hbegun (h.begins_iff.2 hbegins')
    constructor
    · rw [w.inMemory_job.link_eq_ok_iff, w'.inMemory_job.link_eq_ok_iff]
      constructor
      · rintro ⟨discovered, r, hbegins, -⟩
        exact absurd ⟨discovered, r, hbegins⟩ hbegun
      · rintro ⟨discovered, r, hbegins, -⟩
        exact absurd ⟨discovered, r, hbegins⟩ hbegun'
    · rw [w.inMemory_job.outputs_of_not_begins schedule fun discovered r hbegins =>
          hbegun ⟨discovered, r, hbegins⟩,
        w'.inMemory_job.outputs_of_not_begins schedule' fun discovered r hbegins =>
          hbegun' ⟨discovered, r, hbegins⟩, List.map_const', List.map_const']
      refine congrArg (List.replicate · none) ?_
      show (w'.sources.map _).length = (w.sources.map _).length
      rw [List.length_map, List.length_map, h.sources.length_eq]

/-- A job that is written with dots. -/
def dotted : WrittenJob where
  sources := [("a.j", ";@class|name=p.A\n;@method|flags=static|sig=m()V\n" ++
    ";@invoke-begin\n;@invoke-end|sig=p.A.m()V|local=true\n")]
  libraries := ["q.Lib"]
  unresolved := none
  context := "p.Context"

def withSlashes : WrittenJob where
  sources := [("a.j", ";@class|name=p/A\n;@method|flags=static|sig=m()V\n" ++
    ";@invoke-begin\n;@invoke-end|sig=p.A/m()V|local=true\n")]
  libraries := ["q/Lib"]
  unresolved := none
  context := "p/Context"

def dottedLibrary : ClassLibrary where
  classes := [⟨⟨.ofString "q/Lib", .single .isPublic, none, []⟩, [], []⟩]

theorem respelled_dotted : dotted.Respelled withSlashes where
  sources := by
    refine .cons ⟨rfl, ?_⟩ .nil
    show List.Forall₂ LineRespelled
      [";@class|name=p.A", ";@method|flags=static|sig=m()V", ";@invoke-begin",
        ";@invoke-end|sig=p.A.m()V|local=true"]
      [";@class|name=p/A", ";@method|flags=static|sig=m()V", ";@invoke-begin",
        ";@invoke-end|sig=p.A/m()V|local=true"]
    exact .cons (by decide +kernel) <| .cons (.refl _) <| .cons (.refl _) <|
      .cons (by decide +kernel) .nil
  libraries := .cons (by decide +kernel) .nil
  unresolved := .none
  context := by decide +kernel
  workers_eq := rfl

def dottedOutput : String :=
  ".class p/A\n.super java/lang/Object\n.method static m()V\ninvokestatic p/A/m()V\n"

/-- Both spellings link, to the same output. -/
theorem link_respelled_dotted :
    dotted.Respelled withSlashes ∧
      (withSlashes.job.link [0] (.fixed dottedLibrary.load 1)).result = .ok () ∧
      (withSlashes.job.link [0] (.fixed dottedLibrary.load 1)).outputs =
        [some dottedOutput] := by
  have hcomposed : dotted.job.composed (.fixed dottedLibrary.load 1) =
      some [some dottedOutput] := by decide +kernel
  obtain ⟨hresult, houtputs⟩ := Job.InMemory.link_of_composed [] dotted.inMemory_job rfl hcomposed
  obtain ⟨hiff, hsame⟩ := link_respelled respelled_dotted [] [0]
  exact ⟨respelled_dotted, hiff.1 (hresult.2 (by simp)), hsame.trans houtputs⟩

end WrittenJob
end UnitLink
