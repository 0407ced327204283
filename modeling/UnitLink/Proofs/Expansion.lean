import UnitLink.Proofs.Resolutions
import UnitLink.Rewriting
/-! The passes before the rewriting leave it nothing to object to. Discovery has read every
declaration, and a prepared resolution serves every line that binds, so the expansion of a
directive fails for one reason only: the context slot of a glue initializer, which no earlier
pass looks at, is not a number. -/
namespace UnitLink

/-! ### What discovery has read -/

def MemberKind.directive : MemberKind → DirectiveKind
  | method => .method
  | field => .field

/-- The declaration that a directive makes, if any, can be read. -/
def Directive.Declares (d : Directive) : Prop :=
  match d.kind with
  | .classHeader => ∃ header, d.classHeader = .ok header
  | .field | .method =>
    (∃ written, d.declared "sig" = .ok written) ∧ ∃ modifiers, d.modifiers = .ok modifiers
  | _ => True

namespace Declarations

variable {kind : MemberKind} {declarations after : Declarations} {d : Directive}

def members (d : Declarations) : (kind : MemberKind) → List (Member kind)
  | .method => d.methods
  | .field => d.fields

def push (d : Declarations) : {kind : MemberKind} → Member kind → Declarations
  | .method, m => { d with methods := d.methods ++ [m] }
  | .field, m => { d with fields := d.fields ++ [m] }

@[simp] theorem header_push (d : Declarations) (m : Member kind) :
    (d.push m).header = d.header := by
  cases kind <;> rfl

@[simp] theorem members_push (d : Declarations) (m : Member kind) :
    (d.push m).members kind = d.members kind ++ [m] := by
  cases kind <;> rfl

theorem members_push_of_ne (d : Declarations) {other : MemberKind} (m : Member other)
    (h : other ≠ kind) : (d.push m).members kind = d.members kind := by
  cases kind <;> cases other <;> first | rfl | exact absurd rfl h

theorem add_cases (h : declarations.add d = .ok after) :
    (d.kind = .classHeader ∧ declarations.header = none ∧
      ∃ header, d.classHeader = .ok header ∧
        after = { declarations with header := some header }) ∨
    (∃ (kind : MemberKind) (m : Member kind), d.kind = kind.directive ∧
      declarations.member kind d = .ok m ∧ after = declarations.push m) ∨
    d.kind ≠ .classHeader ∧ (∀ kind : MemberKind, d.kind ≠ kind.directive) ∧
      after = declarations := by
  unfold add at h
  split at h
  case h_1 hkind =>
    split at h
    · cases h
    · rename_i hnone
      obtain ⟨header, hheader, h⟩ := exists_of_bind_eq_ok h
      exact .inl ⟨hkind, hnone, header, hheader, (Except.ok.inj h).symm⟩
  case h_2 hkind =>
    obtain ⟨m, hm, h⟩ := exists_of_bind_eq_ok h
    exact .inr (.inl ⟨.field, m, hkind, hm, (Except.ok.inj h).symm⟩)
  case h_3 hkind =>
    obtain ⟨m, hm, h⟩ := exists_of_bind_eq_ok h
    exact .inr (.inl ⟨.method, m, hkind, hm, (Except.ok.inj h).symm⟩)
  case h_4 hheader hfield hmethod =>
    refine .inr (.inr ⟨hheader, fun kind => ?_, (Except.ok.inj h).symm⟩)
    cases kind with
    | method => exact hmethod
    | field => exact hfield

theorem read_of_member_ok {member : Member kind} (h : declarations.member kind d = .ok member) :
    (∃ written, d.declared "sig" = .ok written) ∧ ∃ modifiers, d.modifiers = .ok modifiers := by
  unfold Declarations.member at h
  obtain ⟨owner, -, h⟩ := exists_of_bind_eq_ok h
  obtain ⟨written, hwritten, h⟩ := exists_of_bind_eq_ok h
  obtain ⟨modifiers, hmodifiers, -⟩ := exists_of_bind_eq_ok h
  exact ⟨⟨written, hwritten⟩, modifiers, hmodifiers⟩

theorem declares_of_add_ok (h : declarations.add d = .ok after) : d.Declares := by
  unfold Directive.Declares
  obtain ⟨hkind, -, header, hheader, -⟩ | ⟨kind, m, hkind, hm, -⟩ | ⟨hheader, hmember, -⟩ :=
    add_cases h
  · rw [hkind]
    exact ⟨header, hheader⟩
  · rw [hkind]
    cases kind <;> exact read_of_member_ok hm
  · split
    · rename_i hkind
      exact absurd hkind hheader
    · rename_i hkind
      exact absurd hkind (hmember .field)
    · rename_i hkind
      exact absurd hkind (hmember .method)
    · trivial

end Declarations

/-- Every failure of the computation is a declaration's, and does not tell a place. -/
def DeclarationOnly {α : Type} (x : Except Failure α) : Prop :=
  ∀ failure, x = .error failure → ∃ fault, failure = .declaration fault

section DeclarationOnly

variable {α β ε : Type}

theorem declarationOnly_ok (value : α) : DeclarationOnly (.ok value : Except Failure α) := by
  intro failure h
  cases h

theorem declarationOnly_error (fault : DeclarationFault) :
    DeclarationOnly (.error (.declaration fault) : Except Failure α) := by
  rintro failure ⟨⟩
  exact ⟨fault, rfl⟩

theorem declarationOnly_mapError (x : Except ε α) (fault : ε → DeclarationFault) :
    DeclarationOnly (x.mapError fun e => .declaration (fault e)) := by
  cases x with
  | error e => exact declarationOnly_error (fault e)
  | ok value => exact declarationOnly_ok value

theorem DeclarationOnly.bind {x : Except Failure α} {f : α → Except Failure β}
    (h : DeclarationOnly x) (hf : ∀ value, DeclarationOnly (f value)) :
    DeclarationOnly (x >>= f) := by
  cases x with
  | error failure =>
    rintro _ ⟨⟩
    exact h failure rfl
  | ok value => exact hf value

end DeclarationOnly

namespace Directive

theorem declared_declarationOnly (d : Directive) (key : String) :
    DeclarationOnly (d.declared key) :=
  declarationOnly_mapError _ .badDirective

theorem modifiers_declarationOnly (d : Directive) : DeclarationOnly d.modifiers :=
  declarationOnly_mapError _ .unknownModifier

theorem superclass_declarationOnly (d : Directive) (name : ClassName) :
    DeclarationOnly (d.superclass name) := by
  unfold superclass
  split
  · exact declarationOnly_ok _
  · exact declarationOnly_error _
  · exact declarationOnly_ok _

theorem classHeader_declarationOnly (d : Directive) : DeclarationOnly d.classHeader := by
  refine (d.declared_declarationOnly "name").bind fun name => ?_
  refine d.modifiers_declarationOnly.bind fun modifiers => ?_
  exact (d.superclass_declarationOnly _).bind fun superclass => declarationOnly_ok _

end Directive

namespace Declarations

theorem member_declarationOnly (declarations : Declarations) (kind : MemberKind) (d : Directive) :
    DeclarationOnly (declarations.member kind d) := by
  have howner : DeclarationOnly declarations.owner := by
    unfold owner
    split
    · exact declarationOnly_ok _
    · exact declarationOnly_error _
  refine howner.bind fun owner => ?_
  refine (d.declared_declarationOnly "sig").bind fun written => ?_
  refine d.modifiers_declarationOnly.bind fun modifiers => ?_
  exact declarationOnly_mapError _ .badMember

theorem add_declarationOnly (declarations : Declarations) (d : Directive) :
    DeclarationOnly (declarations.add d) := by
  unfold add
  split
  · split
    · exact declarationOnly_error _
    · exact d.classHeader_declarationOnly.bind fun header => declarationOnly_ok _
  · exact (declarations.member_declarationOnly .field d).bind fun member => declarationOnly_ok _
  · exact (declarations.member_declarationOnly .method d).bind fun member => declarationOnly_ok _
  · exact declarationOnly_ok _

end Declarations

/-- The class that the lines of a source declare. -/
def Declarations.ofLines (source : String) (lines : List (Except SystemFault String)) :
    Except Failure ClassUnit :=
  match visitLines (m := Id) source visit 1 lines {} with
  | (.error failure, _) => .error failure
  | (.ok (), declarations) => declarations.classUnit source

theorem Source.discover_eq {σ : Type} {s opened : Source σ}
    (hstart : s.startInput = (.ok (), opened)) :
    s.discover = (Declarations.ofLines s.name opened.unread, opened.releaseInput) := by
  have hname : opened.name = s.name := by rw [← s.name_startInput, hstart]
  unfold discover Source.visitLines visitOwnLines Declarations.ofLines
  rw [hstart, visitStarted_reading, hname]
  generalize UnitLink.visitLines (m := Id) s.name Declarations.visit 1 opened.unread {} = pass
  obtain ⟨failure | done, declarations⟩ := pass
  · rfl
  · show (declarations.classUnit opened.releaseInput.name, opened.releaseInput) = _
    rw [name_releaseInput, hname]

theorem Declarations.classUnit_eq_ok {declarations : Declarations} {source : String}
    {c : ClassUnit} (h : declarations.classUnit source = .ok c) :
    ∃ header, declarations.header = some header ∧
      c = { header with methods := declarations.methods, fields := declarations.fields } := by
  unfold classUnit at h
  split at h
  · cases h
  · rename_i header hheader
    exact ⟨header, hheader, (Except.ok.inj h).symm⟩

/-- What the declarations read so far keep with every directive, those that a discovered class is
made of have when all lines are read. -/
theorem Source.declarations_of_discover {σ : Type} {s opened found : Source σ} {c : ClassUnit}
    (Inv : List Line → Declarations → Prop) (hopened : s.startInput = (.ok (), opened))
    (h : s.discover = (.ok c, found)) (hstart : Inv [] {})
    (hplain : ∀ seen line declarations, line.directive = none → Inv seen declarations →
      Inv (seen ++ [line]) declarations)
    (hadd : ∀ seen line declarations after text d, text ∈ opened.unread →
      Line.read (seen.length + 1) text = .ok line → line.directive = some d →
      declarations.add d = .ok after → Inv seen declarations → Inv (seen ++ [line]) after) :
    ∃ lines declarations, readLines s.name 1 opened.unread = .ok lines ∧
      declarations.classUnit s.name = .ok c ∧ Inv lines declarations := by
  rw [discover_eq hopened] at h
  obtain ⟨hclass, -⟩ := Prod.mk.inj h
  have hpass := visitLines_spec Judgement.plain s.name Declarations.visit opened.unread Inv
    (fun (_ : Failure) _ => True) (fun seen text line declarations htext hread hseen => ?_)
    (fun _ _ _ _ _ _ _ => trivial) hstart
  · unfold Declarations.ofLines at hclass
    generalize UnitLink.visitLines (m := Id) s.name Declarations.visit 1 opened.unread {}
      = pass at hpass hclass
    obtain ⟨failure | done, declarations⟩ := pass
    · cases hclass
    · obtain ⟨lines, hread, hinv⟩ := hpass
      exact ⟨lines, declarations, hread, hclass, hinv⟩
  · dsimp only [Judgement.plain]
    unfold Declarations.visit
    cases hd : line.directive with
    | none => exact hplain seen line declarations hd hseen
    | some d =>
      cases hafter : declarations.add d with
      | error failure => simp only [hafter]
      | ok after =>
        simp only [hafter]
        exact hadd seen line declarations after text d (List.mem_of_getElem? htext) hread hd hafter
          hseen

theorem Source.declares_of_discover {σ : Type} {s opened found : Source σ} {c : ClassUnit}
    (hopened : s.startInput = (.ok (), opened)) (h : s.discover = (.ok c, found)) :
    ∃ lines, readLines s.name 1 opened.unread = .ok lines ∧
      ∀ line ∈ lines, ∀ d, line.directive = some d → d.Declares := by
  have hpass := declarations_of_discover
    (fun seen _ => ∀ line ∈ seen, ∀ d, line.directive = some d → d.Declares) hopened h (by simp)
    (fun seen line _ hd hseen => ?_) (fun seen line _ _ _ d _ _ hd hadd hseen => ?_)
  · obtain ⟨lines, -, hlines, -, hdeclares⟩ := hpass
    exact ⟨lines, hlines, hdeclares⟩
  · refine List.forall_mem_append.2 ⟨hseen, List.forall_mem_singleton.2 fun d he => ?_⟩
    rw [hd] at he
    cases he
  · refine List.forall_mem_append.2 ⟨hseen, List.forall_mem_singleton.2 fun e he => ?_⟩
    obtain rfl := Option.some.inj (hd.symm.trans he)
    exact Declarations.declares_of_add_ok hadd

theorem Source.kind_of_discover_error {σ : Type} {s opened : Source σ} {texts : List String}
    {failure : Failure} (hopened : s.startInput = (.ok (), opened))
    (hunread : opened.unread = texts.map .ok) (h : s.discover.1 = .error failure) :
    failure.kind = .declaration := by
  rw [discover_eq hopened, hunread] at h
  have hpass := visitLines_spec Judgement.plain s.name Declarations.visit (texts.map .ok)
    (fun _ _ => True) (fun failure _ => failure.kind = .declaration)
    (fun seen text line declarations _ _ _ => ?_)
    (fun seen text failure declarations htext hread _ => ?_) (a := {}) trivial
  · simp only [Declarations.ofLines] at h
    generalize UnitLink.visitLines (m := Id) s.name Declarations.visit 1 (texts.map .ok) {}
      = pass at hpass h
    obtain ⟨refused | done, declarations⟩ := pass
    · obtain rfl := Except.error.inj h
      exact hpass
    · simp only [Declarations.classUnit] at h
      split at h
      · obtain rfl := Except.error.inj h
        rfl
      · cases h
  · dsimp only [Judgement.plain]
    unfold Declarations.visit
    cases line.directive with
    | none => trivial
    | some d =>
      cases hadd : declarations.add d with
      | ok after => simp only [hadd]
      | error failure =>
        simp only [hadd]
        obtain ⟨fault, rfl⟩ := declarations.add_declarationOnly d failure hadd
        exact Failure.kind_locate _ _
  · obtain ⟨written, -, rfl⟩ := List.mem_map.1 (List.mem_of_getElem? htext)
    show (failure.locate _).kind = _
    rw [Failure.kind_locate]
    exact Line.kind_of_read_error hread

theorem Source.discover_spec {σ : Type} {s opened : Source σ} {texts : List String}
    (hstart : s.startInput = (.ok (), opened)) (hunread : opened.unread = texts.map .ok) :
    s.discover.2 = opened.releaseInput ∧
      match s.discover.1 with
      | .ok _ => ∃ lines, readLines s.name 1 (texts.map .ok) = .ok lines ∧
          ∀ line ∈ lines, ∀ d, line.directive = some d → d.Declares
      | .error failure => failure.kind = .declaration := by
  refine ⟨congrArg Prod.snd (discover_eq hstart), ?_⟩
  cases houtcome : s.discover.1 with
  | ok c =>
    rw [← hunread]
    exact declares_of_discover hstart (Prod.ext houtcome rfl)
  | error failure => exact kind_of_discover_error hstart hunread houtcome

/-! ### What the rewriting looks up -/

namespace Resolution

variable {resolution : Resolution} {lines : List Line}

theorem loadReceiver_ok {kind : MemberKind} {reference : Reference kind}
    (h : resolution.glue.Reaches resolution.declared reference) :
    ∃ out, resolution.loadReceiver reference = .ok out := by
  unfold loadReceiver
  split
  · exact ⟨_, rfl⟩
  · rename_i hforeign
    rcases h with hlocal | hown | hglue
    · simp [hlocal] at hforeign
    · simp [hown] at hforeign
    · obtain ⟨name, hname⟩ := Option.isSome_iff_exists.1 hglue
      rw [hname]
      exact ⟨_, rfl⟩

theorem invokeBegin_ok {d : Directive} {reference : Reference .method}
    (h : resolution.glue.Reaches resolution.declared reference)
    (hpending : ∃ pending, d.pending = .ok pending) :
    ∃ out, resolution.invokeBegin d reference = .ok out := by
  unfold invokeBegin
  split
  · obtain ⟨receiver, hreceiver⟩ := loadReceiver_ok h
    obtain ⟨pending, hpending⟩ := hpending
    rw [hreceiver, hpending]
    exact ⟨_, rfl⟩
  · exact ⟨_, rfl⟩

theorem invokeEnd_ok {reference : Reference .method}
    (h : ∃ types, Descriptor.parameterTypes reference.descriptor.toList = .ok types) :
    ∃ out, invokeEnd reference = .ok out := by
  unfold invokeEnd
  split
  · obtain ⟨types, htypes⟩ := h
    rw [Reference.argumentCount, htypes]
    exact ⟨_, rfl⟩
  · exact ⟨_, rfl⟩

theorem readField_ok {reference : Reference .field}
    (h : resolution.glue.Reaches resolution.declared reference) :
    ∃ out, resolution.readField reference = .ok out := by
  unfold readField
  split
  · obtain ⟨receiver, hreceiver⟩ := loadReceiver_ok h
    rw [hreceiver]
    exact ⟨_, rfl⟩
  · exact ⟨_, rfl⟩

/-- The one way in which an expansion can fail: the directive initializes glue fields from a
slot that is no number of sixteen bits. -/
def BadSlot (d : Directive) (failure : Failure) : Prop :=
  d.kind = .glueInit ∧ ∃ value fault, d.value? "context" = some value ∧
    Text.numeral 0xFFFF value.toList = .error fault ∧
    failure = .declaration (.badDirective (.notNumber .glueInit "context" value))

theorem glueInit_spec (d : Directive) (hkind : d.kind = .glueInit) :
    (∃ out, resolution.glueInit d = .ok out) ∨
      ∃ failure, resolution.glueInit d = .error failure ∧ BadSlot d failure := by
  unfold glueInit Directive.number
  cases hvalue : d.value? "context" with
  | none => exact .inl ⟨_, rfl⟩
  | some value =>
    simp only
    cases hnumeral : Text.numeral 0xFFFF value.toList with
    | ok slot => exact .inl ⟨_, rfl⟩
    | error fault => exact .inr ⟨_, rfl, hkind, value, fault, hvalue, hnumeral, by rw [hkind]⟩

theorem Serves.expand {d : Directive} {resolved : Resolved} (h : resolution.Serves d resolved) :
    ∃ out, resolution.expand d (some resolved) = .ok out := by
  unfold Serves at h
  unfold Resolution.expand
  split at h
  · rename_i reference hkind
    rw [hkind]
    exact invokeBegin_ok h.1 h.2
  · rename_i reference hkind
    rw [hkind]
    exact invokeEnd_ok h
  · rename_i reference hkind
    rw [hkind]
    exact readField_ok h
  · rename_i owner hkind
    rw [hkind]
    exact ⟨_, rfl⟩
  · exact h.elim

/-- A directive that binds nothing is expanded without the table. A declaration is read once
more then. -/
theorem expand_of_not_binds {d : Directive} (hbinds : d.kind.binds = false)
    (hdeclares : d.Declares) (resolved : Option Resolved) :
    (∃ out, resolution.expand d resolved = .ok out) ∨
      ∃ failure, resolution.expand d resolved = .error failure ∧ BadSlot d failure := by
  unfold Directive.Declares at hdeclares
  unfold Resolution.expand
  cases hkind : d.kind with
  | classHeader =>
    simp only [hkind] at hdeclares ⊢
    obtain ⟨header, hheader⟩ := hdeclares
    rw [classHeader, hheader]
    exact .inl ⟨_, rfl⟩
  | field =>
    simp only [hkind] at hdeclares ⊢
    obtain ⟨⟨written, hwritten⟩, modifiers, hmodifiers⟩ := hdeclares
    rw [fieldLine, hwritten, hmodifiers]
    exact .inl ⟨_, rfl⟩
  | method =>
    simp only [hkind] at hdeclares ⊢
    obtain ⟨⟨written, hwritten⟩, modifiers, hmodifiers⟩ := hdeclares
    rw [methodLine, hwritten, hmodifiers]
    exact .inl ⟨_, rfl⟩
  | glueFields => exact .inl ⟨_, rfl⟩
  | glueInit => exact glueInit_spec d hkind
  | invokeBegin | invokeEnd | readField | classOf =>
    simp [hkind, DirectiveKind.binds] at hbinds

/-- Whatever a directive's line stands for in a prepared resolution, the directive expands,
unless its slot is bad. -/
theorem Prepared.expand (h : resolution.Prepared lines) {line : Line} (hline : line ∈ lines)
    {d : Directive} (hd : line.directive = some d) (hdeclares : d.Declares) :
    (∃ out, resolution.expand d (resolution.lines.get? line.number) = .ok out) ∨
      ∃ failure, resolution.expand d (resolution.lines.get? line.number) = .error failure ∧
        BadSlot d failure := by
  cases hbinds : d.kind.binds with
  | true =>
    obtain ⟨resolved, hget, hserves⟩ := h.serves line hline d hd hbinds
    rw [hget]
    exact .inl hserves.expand
  | false => exact expand_of_not_binds hbinds hdeclares _

end Resolution
end UnitLink
