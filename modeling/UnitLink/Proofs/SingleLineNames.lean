import UnitLink.Proofs.SelectedLines
import UnitLink.Proofs.SingleLines
import UnitLink.Proofs.Spelling
/-! Names of one line. Source text gives no name a line feed, whatever else it puts in it, and what
is made of names, the references that they resolve to and the glue fields of their owners, has
none that the names did not have. So a line feed in a resolution could only come from the name of
a library class, from the catch-all target or from the execution context. -/
namespace UnitLink

variable {τ : Type}

/-! ### Class names and glue fields -/

namespace Text

theorem ofNat_ne_lineFeed {n : Nat} (hn : 10 < n) : Char.ofNat n ≠ '\n' := by
  intro heq
  by_cases hvalid : n.isValidChar
  · have hvalue : Char.ofNat n = Char.ofNatAux n hvalid := dif_pos hvalid
    have hten : n = 10 := congrArg Char.toNat (hvalue.symm.trans heq)
    omega
  · have hvalue : Char.ofNat n = '\x00' := dif_neg hvalid
    exact absurd (hvalue.symm.trans heq) (by decide)

theorem lowerSimple_ne_lineFeed {c : Char} (hc : c ≠ '\n') : lowerSimple c ≠ '\n' := by
  have htargets : ∀ run ∈ lowerRuns, 10 < run.2.2.2 := by decide +kernel
  unfold lowerSimple
  simp only
  split
  · rename_i hrun
    exact ofNat_ne_lineFeed (Nat.lt_add_right _ (htargets _ (List.mem_of_find?_eq_some hrun)))
  · exact hc

theorem OneLine.lower {cs : List Char} (h : OneLine cs) : OneLine (lower cs) := by
  unfold Text.lower
  generalize ([] : List Char) = before
  induction cs generalizing before with
  | nil => exact h
  | cons c cs ih =>
    obtain ⟨hc, hcs⟩ := (List.forall_mem_cons (p := (· ≠ '\n'))).1 fun d hd heq => h (heq ▸ hd)
    rw [lowerFrom]
    refine OneLine.append ?_ (ih (fun hd => hcs _ hd rfl) _)
    split
    · split <;> decide
    · split
      · decide
      · exact fun hd => lowerSimple_ne_lineFeed hc (List.mem_singleton.1 hd).symm

theorem oneLine_toString (n : Nat) : OneLine (toString n).toList := by
  intro h
  rw [Nat.toString_eq_ofList_toDigits, String.toList_ofList] at h
  exact absurd (Nat.isDigit_of_mem_toDigits (by decide) (by decide) h) (by decide)

end Text

namespace ClassName

theorem oneLine_ofChars {cs : List Char} (h : Text.OneLine cs) :
    Text.OneLine (ofChars cs).chars := by
  rw [chars_ofChars]
  intro hmem
  obtain ⟨c, hc, heq⟩ := List.mem_map.1 hmem
  split at heq
  · cases heq
  · exact h (heq ▸ hc)

theorem oneLine_simple {name : ClassName} (h : Text.OneLine name.chars) :
    Text.OneLine name.simple.toList := by
  unfold simple
  split
  · rename_i hcut
    rw [String.toList_ofList]
    exact h.of_subset (Text.cutLast_subset hcut).2
  · exact h

end ClassName

namespace GlueFields

/-- The context, the owners and the fields of the owners have names of one line. -/
structure OneLine (g : GlueFields) : Prop where
  context : Text.OneLine g.context.chars
  fields : ∀ owner name, (owner, name) ∈ g.fields →
    Text.OneLine owner.chars ∧ Text.OneLine name.toList

theorem oneLine_freshName {stem : String} (h : Text.OneLine stem.toList) (used : List String)
    (tries counter : Nat) : Text.OneLine (freshName stem used tries counter).toList := by
  have hcandidate : ∀ n : Nat, Text.OneLine (stem ++ toString n).toList := fun n => by
    rw [String.toList_append]
    exact h.append (Text.oneLine_toString n)
  induction tries generalizing counter with
  | zero => exact hcandidate counter
  | succ tries ih =>
    simp only [freshName]
    split
    · exact ih (counter + 1)
    · exact hcandidate counter

theorem oneLine_stem {owner : ClassName} (h : Text.OneLine owner.chars) :
    Text.OneLine (stem owner).toList := by
  unfold stem
  have hlower : Text.OneLine (String.ofList (Text.lower owner.simple.toList)).toList := by
    rw [String.toList_ofList]
    exact (ClassName.oneLine_simple h).lower
  rw [String.toList_append]
  exact Text.OneLine.append (by decide) hlower

theorem OneLine.record {g : GlueFields} (h : g.OneLine) {owner : ClassName}
    (howner : Text.OneLine owner.chars) : (g.record owner).OneLine := by
  unfold GlueFields.record
  split
  · exact h
  · refine ⟨h.context, fun other name hmem => ?_⟩
    rcases List.mem_append.1 hmem with hmem | hmem
    · exact h.fields other name hmem
    · obtain ⟨rfl, rfl⟩ := Prod.mk.inj (List.mem_singleton.1 hmem)
      exact ⟨howner, oneLine_freshName (oneLine_stem howner) _ _ _⟩

theorem oneLine_start {context : ClassName} (h : Text.OneLine context.chars) :
    (start context).OneLine :=
  OneLine.record ⟨h, fun _ _ hmem => absurd hmem (List.not_mem_nil)⟩ h

end GlueFields

/-! ### References -/

/-- The names of a reference are one line, and so is its descriptor. -/
structure Reference.OneLine {kind : MemberKind} (r : Reference kind) : Prop where
  owner : Text.OneLine r.owner.chars
  name : Text.OneLine r.name.toList
  descriptor : Text.OneLine r.descriptor.toList

/-- The names that references are sent to are one line. -/
structure Resolver.OneLine (r : Resolver) : Prop where
  classes : ∀ c ∈ r.searchOrder, Text.OneLine c.name.chars
  unresolved : ∀ target, r.unresolved = some target → Text.OneLine target.chars

namespace Signature

theorem subset_of_splitDescriptor {kind : MemberKind} {cs qualified descriptor : List Char}
    (h : splitDescriptor kind cs = .ok (qualified, descriptor)) :
    qualified ⊆ cs ∧ descriptor ⊆ cs := by
  unfold splitDescriptor at h
  cases kind with
  | method =>
    simp only at h
    split at h
    · cases h
    · obtain ⟨rfl, rfl⟩ := Prod.mk.inj (Except.ok.inj h)
      exact ⟨(List.takeWhile_prefix _).subset, (List.dropWhile_suffix _).subset⟩
  | field =>
    simp only at h
    split at h
    · cases h
    · rename_i hcut
      obtain ⟨rfl, rfl⟩ := Prod.mk.inj (Except.ok.inj h)
      obtain ⟨hqualified, htype⟩ := Text.cutFirst_subset hcut
      exact ⟨hqualified, fun c hc => htype (Text.trim_subset _ hc)⟩

theorem subset_of_splitOwner {text : String} {qualified name : List Char} {owner : Option String}
    (h : splitOwner text qualified = .ok (owner, name)) :
    name ⊆ qualified ∧ ∀ written, owner = some written → written.toList ⊆ qualified := by
  rcases splitOwner_eq_ok_iff.1 h with ⟨-, rfl, rfl⟩ | ⟨written, -, hcut, rfl⟩
  · exact ⟨List.Subset.refl _, nofun⟩
  · obtain ⟨howner, hname⟩ := Text.cutLast_subset hcut
    refine ⟨hname, fun text heq => ?_⟩
    obtain rfl := Option.some.inj heq
    rw [String.toList_ofList]
    exact howner

/-- The parts of a signature are of its text. -/
structure OneLine (s : Signature) : Prop where
  owner : ∀ written, s.owner = some written → Text.OneLine written.toList
  name : Text.OneLine s.name.toList
  descriptor : Text.OneLine s.descriptor.toList

theorem oneLine_of_parse {kind : MemberKind} {signature : String} {parsed : Signature}
    (hline : Text.OneLine signature.toList) (h : parse kind signature = .ok parsed) :
    parsed.OneLine := by
  unfold parse at h
  simp only at h
  obtain ⟨⟨qualified, descriptor⟩, hsplit, h⟩ := exists_of_bind_eq_ok h
  obtain ⟨⟨owner, name⟩, howner, h⟩ := exists_of_bind_eq_ok h
  obtain ⟨-, -, h⟩ := exists_of_bind_eq_ok h
  obtain ⟨-, -, h⟩ := exists_of_bind_eq_ok h
  obtain rfl := Except.ok.inj h
  have htrim := hline.of_subset (Text.trim_subset signature.toList)
  obtain ⟨hqualified, hdescriptor⟩ := subset_of_splitDescriptor hsplit
  obtain ⟨hname, hwritten⟩ := subset_of_splitOwner howner
  have hline := htrim.of_subset hqualified
  refine ⟨fun written heq => hline.of_subset (hwritten written heq), ?_, ?_⟩
  · rw [String.toList_ofList]
    exact hline.of_subset hname
  · rw [String.toList_ofList]
    exact htrim.of_subset hdescriptor

end Signature

namespace Resolver

variable {r : Resolver} {loader : Loader τ} {c : ClassUnit} {kind : MemberKind}

/-- The owner of a reference is the class itself, one that is searched, the catch-all target, or
as the signature has it. -/
theorem Selects.oneLine {isLocal : Bool} {parsed : Signature} {reference : Reference kind}
    (h : r.Selects loader c isLocal parsed reference) (hr : r.OneLine)
    (hc : Text.OneLine c.name.chars) (hparsed : parsed.OneLine) : reference.OneLine := by
  refine ⟨?_, ?_, ?_⟩
  · cases h with
    | own => exact hc
    | searched _ horder => exact hr.classes _ (by rw [horder]; simp)
    | nowhere _ htarget => exact hr.unresolved _ htarget
    | inherited howner => exact ClassName.oneLine_ofChars (hparsed.owner _ howner)
  · cases h <;> exact hparsed.name
  · cases h <;> exact hparsed.descriptor

end Resolver

/-! ### Resolutions -/

def Resolved.OneLine : Resolved → Prop
  | .unpaired => True
  | .invocation reference => reference.OneLine
  | .fieldRead reference => reference.OneLine
  | .classOf owner => Text.OneLine owner.chars

def Binding.OneLine : Binding → Prop
  | .opening => True
  | .closing reference => reference.OneLine
  | .fieldRead reference => reference.OneLine
  | .classOf owner => Text.OneLine owner.chars

namespace LineTable

variable {α : Type}

theorem exists_mem_of_get? {t : LineTable α} {line : Nat} {value : α}
    (h : t.get? line = some value) : ∃ number, (number, value) ∈ t.toList := by
  unfold get? at h
  obtain ⟨⟨p, i⟩, -, h⟩ := Option.bind_eq_some_iff.1 h
  obtain ⟨page, hpage, h⟩ := Option.bind_eq_some_iff.1 h
  obtain ⟨⟨number, found⟩, hentry, h⟩ := Option.bind_eq_some_iff.1 h
  obtain rfl := Option.some.inj h
  exact ⟨number, mem_toList.2 ⟨p, i, page, hpage, hentry⟩⟩

theorem mem_of_replace {t after : LineTable α} {line : Nat} {value old : α}
    (h : t.replace line value = .ok (old, after)) {entry : Nat × α}
    (hentry : entry ∈ after.toList) : entry ∈ t.toList ∨ entry = (line, value) := by
  unfold replace at h
  split at h
  · cases h
  rename_i p i _
  split at h
  · cases h
  rename_i found hfound
  obtain ⟨-, rfl⟩ := Prod.mk.inj (Except.ok.inj h)
  obtain ⟨page, hpage, hfound⟩ := Option.bind_eq_some_iff.1 hfound
  obtain ⟨⟨number, kept⟩, hkept, -⟩ := Option.bind_eq_some_iff.1 hfound
  obtain ⟨before, later, hbefore, hafter⟩ := toList_modify hpage hkept (line, value)
  rw [hafter] at hentry
  rw [hbefore]
  simp only [List.mem_append, List.mem_cons] at hentry ⊢
  rcases hentry with hentry | hentry | hentry
  · exact .inl (.inl hentry)
  · exact .inr hentry
  · exact .inl (.inr (.inr hentry))

end LineTable

namespace Bindings

/-- What was resolved so far has names of one line. -/
structure OneLine (b : Bindings) : Prop where
  lines : ∀ line resolved, (line, resolved) ∈ b.lines.toList → resolved.OneLine
  glue : b.glue.OneLine

variable {b after : Bindings} {c : ClassUnit} {line : Nat}

theorem oneLine_start {context : ClassName} (h : Text.OneLine context.chars) :
    (start context).OneLine :=
  ⟨fun _ _ hmem => absurd hmem (List.not_mem_nil), GlueFields.oneLine_start h⟩

theorem OneLine.recordOwner (h : b.OneLine) {kind : MemberKind} {reference : Reference kind}
    (hreference : reference.OneLine) : (b.recordOwner c reference).OneLine := by
  unfold Bindings.recordOwner
  split
  · exact h
  · exact ⟨h.lines, h.glue.record hreference.owner⟩

theorem OneLine.add (h : b.OneLine) (resolved : Resolved) (hresolved : resolved.OneLine)
    (hadd : b.add line resolved = .ok after) : after.OneLine := by
  unfold Bindings.add at hadd
  split at hadd
  · rename_i lines hlines
    obtain rfl := Except.ok.inj hadd
    refine ⟨fun number value hmem => ?_, h.glue⟩
    rw [LineTable.toList_add hlines] at hmem
    rcases List.mem_append.1 hmem with hmem | hmem
    · exact h.lines number value hmem
    · obtain ⟨rfl, rfl⟩ := Prod.mk.inj (List.mem_singleton.1 hmem)
      exact hresolved
  · cases hadd

theorem OneLine.replace (h : b.OneLine) (resolved : Resolved) (hresolved : resolved.OneLine)
    (hreplace : b.replace line resolved = .ok after) : after.OneLine := by
  unfold Bindings.replace at hreplace
  split at hreplace
  · rename_i old lines hlines
    obtain rfl := Except.ok.inj hreplace
    refine ⟨fun number value hmem => ?_, h.glue⟩
    rcases LineTable.mem_of_replace hlines hmem with hmem | heq
    · exact h.lines number value hmem
    · obtain ⟨rfl, rfl⟩ := Prod.mk.inj heq
      exact hresolved
  · cases hreplace

theorem OneLine.close (h : b.OneLine) {reference : Reference .method}
    (hreference : reference.OneLine) (hclose : b.close line reference = .ok after) :
    after.OneLine := by
  unfold Bindings.close at hclose
  split at hclose
  · cases hclose
  · obtain ⟨replaced, hreplace, hclose⟩ := exists_of_bind_eq_ok hclose
    obtain ⟨added, hadd, hclose⟩ := exists_of_bind_eq_ok hclose
    obtain rfl := Except.ok.inj hclose
    have hadded := (h.replace (.invocation reference) hreference hreplace).add
      (.invocation reference) hreference hadd
    exact ⟨hadded.lines, hadded.glue⟩

theorem OneLine.enter (h : b.OneLine) {binding : Binding} (hbinding : binding.OneLine)
    (henter : b.enter c line binding = .ok after) : after.OneLine := by
  cases binding with
  | opening =>
    obtain ⟨added, hadd, henter⟩ := exists_of_bind_eq_ok henter
    obtain rfl := Except.ok.inj henter
    have hadded := h.add .unpaired trivial hadd
    exact ⟨hadded.lines, hadded.glue⟩
  | closing reference => exact (h.recordOwner hbinding).close hbinding henter
  | fieldRead reference =>
    exact (h.recordOwner hbinding).add (.fieldRead reference) hbinding henter
  | classOf owner => exact h.add (.classOf owner) hbinding henter

variable {r : Resolver} {loader : Loader τ}

theorem oneLine_of_selects {kind : MemberKind} {d : Directive} {reference : Reference kind}
    (hr : r.OneLine) (hc : Text.OneLine c.name.chars) (hd : d.OneLine)
    (h : d.Selects r loader c reference) : reference.OneLine := by
  obtain ⟨isLocal, signature, parsed, -, hsignature, hparsed, hselects⟩ := h
  have hline := hd.values _ _ (Directive.required_eq_ok_iff.1 hsignature).1
  exact hselects.oneLine hr hc (Signature.oneLine_of_parse hline hparsed)

theorem bindDirective_oneLine (hr : r.OneLine) (hc : Text.OneLine c.name.chars) {d : Directive}
    (hd : d.OneLine) :
    r.Delivers loader (bindDirective r c d) fun bound =>
      ∀ binding, bound = some binding → binding.OneLine := by
  by_cases hkind : d.kind = .classOf
  · unfold bindDirective
    rw [hkind]
    refine Resolver.Delivers.bind (declaration_delivers _) fun signature hsignature => ?_
    refine Resolver.Delivers.bind Resolver.resolve_selects fun reference hreference => ?_
    refine Resolver.delivers_pure fun binding heq => ?_
    obtain rfl := Option.some.inj heq
    obtain ⟨parsed, hparsed, hselects⟩ := hreference
    have hline := hd.values _ _ (Directive.required_eq_ok_iff.1 hsignature).1
    exact (hselects.oneLine hr hc (Signature.oneLine_of_parse hline hparsed)).owner
  · refine (bindDirective_selects c d).mono fun bound hbound binding heq => ?_
    subst heq
    cases binding with
    | opening => trivial
    | closing reference => exact oneLine_of_selects hr hc hd hbound.2
    | fieldRead reference => exact oneLine_of_selects hr hc hd hbound.2
    | classOf owner => exact absurd hbound hkind

theorem OneLine.visit (h : b.OneLine) (hr : r.OneLine) (hc : Text.OneLine c.name.chars)
    {line : Line} (hd : ∀ d, line.directive = some d → d.OneLine) :
    (Bindings.visit r c line b).Meets (r.protocol loader) fun result =>
      result.1 = .ok () → result.2.OneLine := by
  rw [visit_eq]
  cases hdirective : line.directive with
  | none => exact Session.meets_pure fun _ => h
  | some d =>
    refine Session.Meets.bind (bindDirective_oneLine hr hc (hd d hdirective)) ?_
    rintro (stop | _ | binding) hbound
    · apply Session.meets_pure
      intro hok
      cases hok
    · exact Session.meets_pure fun _ => h
    · apply Session.meets_pure
      simp only [take]
      cases henter : b.enter c line.number binding with
      | error failure =>
        intro hok
        cases hok
      | ok after => exact fun _ => h.enter (hbound binding rfl) henter

end Bindings

/-! ### Declarations -/

theorem Directive.oneLine_of_declared {d : Directive} {key value : String} (hd : d.OneLine)
    (h : d.declared key = .ok value) : Text.OneLine value.toList := by
  unfold declared at h
  generalize hrequired : d.required key = required at h
  cases required with
  | error fault => cases h
  | ok found =>
    obtain rfl : found = value := Except.ok.inj h
    exact hd.values _ _ (required_eq_ok_iff.1 hrequired).1

theorem Directive.oneLine_of_superclass {d : Directive} {name superclass : ClassName}
    (hd : d.OneLine) (h : d.superclass name = .ok superclass) : Text.OneLine superclass.chars := by
  unfold Directive.superclass at h
  split at h
  · obtain rfl := Except.ok.inj h
    decide
  · cases h
  · rename_i written hwritten
    obtain rfl := Except.ok.inj h
    exact ClassName.oneLine_ofChars (hd.values _ _ hwritten)

theorem Directive.oneLine_of_mem_interfaces {d : Directive} {name : ClassName} (hd : d.OneLine)
    (h : name ∈ d.interfaces) : Text.OneLine name.chars := by
  obtain ⟨cs, hcs, rfl⟩ := List.mem_map.1 h
  obtain ⟨piece, hpiece, rfl⟩ := List.mem_map.1 (List.mem_of_mem_filter hcs)
  have hwritten : Text.OneLine ((d.value? "implements").getD "").toList := by
    cases hvalue : d.value? "implements" with
    | none => exact List.not_mem_nil
    | some written => exact hd.values _ _ hvalue
  exact ClassName.oneLine_ofChars
    (hwritten.of_subset fun c hc => (Text.of_mem_pieces hpiece).1 (Text.trim_subset _ hc))

/-- The names in the header of a class are one line. -/
structure ClassHeader.OneLine (h : ClassHeader) : Prop where
  name : Text.OneLine h.name.chars
  superclass : ∀ name, h.superclass = some name → Text.OneLine name.chars
  interfaces : ∀ name ∈ h.interfaces, Text.OneLine name.chars

theorem Directive.oneLine_of_classHeader {d : Directive} {header : ClassHeader} (hd : d.OneLine)
    (h : d.classHeader = .ok header) : header.OneLine := by
  unfold classHeader at h
  obtain ⟨name, hname, h⟩ := exists_of_bind_eq_ok h
  obtain ⟨modifiers, -, h⟩ := exists_of_bind_eq_ok h
  obtain ⟨superclass, hsuperclass, h⟩ := exists_of_bind_eq_ok h
  obtain rfl := Except.ok.inj h
  refine ⟨ClassName.oneLine_ofChars (oneLine_of_declared hd hname), fun other heq => ?_,
    fun other hother => oneLine_of_mem_interfaces hd hother⟩
  exact Option.some.inj heq ▸ oneLine_of_superclass hd hsuperclass

theorem Declarations.oneLine_of_add {declarations after : Declarations} {d : Directive}
    (hinv : ∀ header, declarations.header = some header → Text.OneLine header.name.chars)
    (hd : d.OneLine) (h : declarations.add d = .ok after) :
    ∀ header, after.header = some header → Text.OneLine header.name.chars := by
  obtain ⟨-, -, header, hheader, rfl⟩ | ⟨kind, m, -, -, rfl⟩ | ⟨-, -, rfl⟩ :=
    Declarations.add_cases h
  · rintro _ ⟨⟩
    exact (Directive.oneLine_of_classHeader hd hheader).name
  · rw [Declarations.header_push]
    exact hinv
  · exact hinv

/-- A resolution in which all names are one line. -/
structure Resolution.OneLine (r : Resolution) : Prop where
  declared : Text.OneLine r.declared.name.chars
  lines : ∀ number resolved, r.lines.get? number = some resolved → resolved.OneLine
  glue : r.glue.OneLine

/-! ### Sources -/

namespace Source

variable {σ : Type}

theorem oneLine_of_mem_unread {s : Source σ} {text : String} (h : .ok text ∈ s.unread) :
    Text.OneLine text.toList := by
  unfold unread at h
  cases hreader : s.reader with
  | none =>
    rw [hreader] at h
    cases h
  | some stream =>
    rw [hreader] at h
    exact stream.oneLine_of_mem_lines h

theorem oneLine_of_read {s : Source σ} {number : Nat} {text : Except SystemFault String}
    {line : Line} (htext : text ∈ s.unread) (hread : Line.read number text = .ok line) :
    ∀ d, line.directive = some d → d.OneLine := by
  obtain ⟨rfl, hparsed⟩ := Line.of_read hread
  exact fun d hd => Directive.oneLine_of_parse (oneLine_of_mem_unread htext) (hd ▸ hparsed)

theorem oneLine_of_discover {s found : Source σ} {c : ClassUnit}
    (h : s.discover = (.ok c, found)) : Text.OneLine c.name.chars := by
  obtain ⟨opened, hopened⟩ := opens_of_discover_ok h
  obtain ⟨_, declarations, -, hclass, hheaders⟩ := declarations_of_discover
    (fun _ declarations => ∀ header, declarations.header = some header →
      Text.OneLine header.name.chars) hopened h (by simp)
    (fun _ _ _ _ hseen => hseen)
    (fun _ _ _ _ _ d htext hread hd hadd hseen =>
      Declarations.oneLine_of_add hseen (oneLine_of_read htext hread d hd) hadd)
  obtain ⟨header, hheader, rfl⟩ := Declarations.classUnit_eq_ok hclass
  exact hheaders header hheader

/-- A source whose class and whose resolver's names are one line resolves to names of one line. -/
theorem resolve_oneLine [CommonStore σ τ] (s : Source σ) {c : ClassUnit} {r : Resolver}
    (loader : Loader τ) {context : ClassName} (hr : r.OneLine) (hc : Text.OneLine c.name.chars)
    (hcontext : Text.OneLine context.chars) :
    (s.resolve c r context).Meets (r.protocol loader) fun result =>
      ∀ resolution, result.1 = .ok resolution → resolution.OneLine := by
  unfold resolve
  refine Session.meets_bind_iff.2 (Session.meets_inTurn (fun _ => trivial) fun common => ?_)
  generalize ({ s with
    store := CommonStore.withCommon common s.store } : Source σ).startInput = started
  obtain ⟨failure | done, opened⟩ := started
  · exact Session.meets_pure nofun
  rw [visitStarted_reading, bind_assoc]
  have hpass := visitLines_spec (Judgement.underProtocol (r.protocol loader)) opened.name
    (Bindings.visit r c) opened.unread (fun _ b => b.OneLine) (fun _ _ => True)
    (fun seen text line b htext hread hb => ?_) (fun _ _ _ _ _ _ _ => trivial)
    (Bindings.oneLine_start hcontext)
  · refine Session.Meets.bind hpass ?_
    rintro ⟨stop | done, b⟩ hresult
    · exact Session.meets_pure nofun
    obtain ⟨-, -, hb⟩ := hresult
    apply Session.meets_pure
    intro resolution hok
    cases hfinish : b.finish opened.releaseInput.name c with
    | error failure =>
      simp only [hfinish] at hok
      cases hok
    | ok finished =>
      simp only [hfinish] at hok
      obtain rfl := Except.ok.inj hok
      obtain ⟨-, rfl⟩ := Bindings.finish_eq_ok_iff.1 hfinish
      refine ⟨hc, fun number resolved hget => ?_, hb.glue⟩
      obtain ⟨line, hmem⟩ := LineTable.exists_mem_of_get? hget
      exact hb.lines line resolved hmem
  · have hdirective := oneLine_of_read (List.mem_of_getElem? htext) hread
    refine Session.Meets.mono (hb.visit hr hc hdirective) ?_
    rintro ⟨stop | done, b⟩ hnext
    · trivial
    · exact hnext rfl

end Source
end UnitLink
