import UnitLink.Proofs.Dependencies
import UnitLink.Proofs.Passages
import UnitLink.Proofs.SingleLineNames
/-! Outputs are plain assembly. Whatever a directive stands for starts with a mnemonic or a dot, and
if the names in it are one line, so is it. The lines that an output is read back as are thus the
lines that were written, and none of them is a directive: neither a line that was copied, since it
was none before, nor one that a directive was replaced by. -/
namespace UnitLink

variable {σ τ : Type}

/-- A stream without directives, all of which can be read. -/
def Stream.Plain (s : Stream) : Prop :=
  ∀ line ∈ s.lines, ∃ text, line = .ok text ∧ Directive.parse text = .ok none

/-! ### Assembly -/

namespace Text

theorem oneLine_concat {a b : String} (ha : OneLine a.toList) (hb : OneLine b.toList) :
    OneLine (a ++ b).toList := by
  rw [String.toList_append]
  exact ha.append hb

theorem oneLine_intercalate {separator : String} {words : List String}
    (hseparator : OneLine separator.toList) (hwords : ∀ word ∈ words, OneLine word.toList) :
    OneLine (separator.intercalate words).toList := by
  induction words with
  | nil => exact List.not_mem_nil
  | cons word words ih =>
    obtain ⟨hword, hwords⟩ := List.forall_mem_cons.1 hwords
    cases words with
    | nil => simpa using hword
    | cons next words =>
      rw [String.intercalate_cons_cons]
      exact oneLine_concat (oneLine_concat hword hseparator) (ih hwords)

/-- The first character is neither white space nor a semicolon. -/
def startsPlainly (cs : List Char) : Bool := cs.head?.any fun c => !isBlank c && c != ';'

theorem startsPlainly_concat {a : String} (h : startsPlainly a.toList) (b : String) :
    startsPlainly (a ++ b).toList := by
  rw [String.toList_append]
  cases hcs : a.toList with
  | nil =>
    rw [hcs] at h
    cases h
  | cons c cs =>
    rw [hcs] at h
    exact h

end Text

theorem Directive.parse_of_startsPlainly {indent text : String}
    (hindent : ∀ c ∈ indent.toList, Text.isBlank c = true)
    (h : Text.startsPlainly text.toList) : parse (indent ++ text) = .ok none := by
  cases hcs : text.toList with
  | nil =>
    rw [hcs] at h
    cases h
  | cons c rest =>
    rw [hcs] at h
    have hc : Text.isBlank c = false ∧ c ≠ ';' := by simpa [Text.startsPlainly] using h
    exact parse_of_plain hindent hc.1 hc.2 (by rw [String.toList_append, hcs])

theorem Keyword.oneLine_text (k : Keyword) : Text.OneLine k.text.toList := by
  cases k <;> decide

theorem Modifiers.oneLine_keywords (m : Modifiers) : Text.OneLine m.keywords.toList := by
  refine Text.oneLine_intercalate (by decide) fun word hword => ?_
  obtain ⟨k, -, rfl⟩ := List.mem_map.1 hword
  exact k.oneLine_text

theorem Opcode.oneLine_mnemonic {kind : MemberKind} (opcode : Opcode kind) :
    Text.OneLine opcode.mnemonic.toList := by
  cases opcode <;> decide

theorem Opcode.startsPlainly_mnemonic {kind : MemberKind} (opcode : Opcode kind) :
    Text.startsPlainly opcode.mnemonic.toList := by
  cases opcode <;> decide

theorem ClassName.oneLine_descriptor {name : ClassName} (h : Text.OneLine name.chars) :
    Text.OneLine name.descriptor.toList :=
  Text.oneLine_concat (Text.oneLine_concat (by decide) h) (by decide)

theorem Reference.oneLine_text {kind : MemberKind} {reference : Reference kind}
    (h : reference.OneLine) : Text.OneLine reference.text.toList := by
  have hmember : Text.OneLine reference.member.toList := by
    cases kind with
    | method => exact Text.oneLine_concat h.name h.descriptor
    | field => exact Text.oneLine_concat (Text.oneLine_concat h.name (by decide)) h.descriptor
  exact Text.oneLine_concat (Text.oneLine_concat h.owner (by decide)) hmember

namespace Assembly

/-- The names and the texts in a line of assembly are one line each. -/
def OneLine : Assembly → Prop
  | classUnit _ name | superclass name | implements name | loadName name | getModule name
  | checkCast name => Text.OneLine name.chars
  | field _ signature value =>
    Text.OneLine signature.toList ∧ ∀ written, value = some written → Text.OneLine written.toList
  | method _ signature => Text.OneLine signature.toList
  | glueField name owner => Text.OneLine name.toList ∧ Text.OneLine owner.chars
  | getGlue holder name owner | putGlue holder name owner =>
    Text.OneLine holder.chars ∧ Text.OneLine name.toList ∧ Text.OneLine owner.chars
  | loadSelf | loadArgument _ | swap => True
  | invoke reference | invokeInterface reference _ => reference.OneLine
  | readField reference => reference.OneLine

theorem oneLine_joinWords {first second third : String} (hfirst : Text.OneLine first.toList)
    (hsecond : Text.OneLine second.toList) (hthird : Text.OneLine third.toList) :
    Text.OneLine (joinWords [first, second, third]).toList := by
  refine Text.oneLine_intercalate (by decide) fun word hword => ?_
  have hword := List.mem_of_mem_filter hword
  simp only [List.mem_cons, List.not_mem_nil, or_false] at hword
  rcases hword with rfl | rfl | rfl
  · exact hfirst
  · exact hsecond
  · exact hthird

theorem startsPlainly_joinWords {word : String} (h : Text.startsPlainly word.toList)
    (words : List String) : Text.startsPlainly (joinWords (word :: words)).toList := by
  have hword : word ≠ "" := by
    rintro rfl
    cases h
  unfold joinWords
  rw [List.filter_cons_of_pos (by simpa using hword)]
  cases words.filter fun word => word ≠ "" with
  | nil => simpa using h
  | cons next words =>
    rw [String.intercalate_cons_cons, String.append_assoc]
    exact Text.startsPlainly_concat h _

theorem oneLine_fieldOperand {holder type : ClassName} {name : String}
    (hholder : Text.OneLine holder.chars) (hname : Text.OneLine name.toList)
    (htype : Text.OneLine type.chars) : Text.OneLine (fieldOperand holder name type).toList :=
  Text.oneLine_concat (Text.oneLine_concat (Text.oneLine_concat (Text.oneLine_concat hholder
    (by decide)) hname) (by decide)) (ClassName.oneLine_descriptor htype)

theorem oneLine_text {line : Assembly} (h : line.OneLine) : Text.OneLine line.text.toList := by
  cases line with
  | classUnit modifiers name =>
    exact oneLine_joinWords (by split <;> decide) (Modifiers.oneLine_keywords _) h
  | field modifiers signature value =>
    have hkeyword : Text.OneLine ".field".toList := by decide
    have hdeclared := oneLine_joinWords hkeyword modifiers.oneLine_keywords h.1
    cases value with
    | none => exact hdeclared
    | some written =>
      exact Text.oneLine_concat (Text.oneLine_concat hdeclared (by decide)) (h.2 written rfl)
  | method modifiers signature =>
    exact oneLine_joinWords (by decide) modifiers.oneLine_keywords h
  | superclass name | implements name | checkCast name =>
    exact Text.oneLine_concat (by decide) h
  | loadName name | getModule name =>
    exact Text.oneLine_concat (Text.oneLine_concat (by decide) h) (by decide)
  | glueField name owner =>
    exact Text.oneLine_concat (Text.oneLine_concat (Text.oneLine_concat (by decide) h.1)
      (by decide)) (ClassName.oneLine_descriptor h.2)
  | getGlue holder name owner | putGlue holder name owner =>
    exact Text.oneLine_concat (by decide) (oneLine_fieldOperand h.1 h.2.1 h.2.2)
  | loadSelf | swap => decide
  | loadArgument slot => exact Text.oneLine_concat (by decide) (Text.oneLine_toString slot)
  | invoke reference | readField reference =>
    exact Text.oneLine_concat (Text.oneLine_concat (Opcode.oneLine_mnemonic _) (by decide))
      (Reference.oneLine_text h)
  | invokeInterface reference count =>
    exact Text.oneLine_concat (Text.oneLine_concat (Text.oneLine_concat (Text.oneLine_concat
      (Opcode.oneLine_mnemonic _) (by decide)) (Reference.oneLine_text h)) (by decide))
      (Text.oneLine_toString count)

theorem startsPlainly_text (line : Assembly) : Text.startsPlainly line.text.toList := by
  cases line with
  | classUnit modifiers name => exact startsPlainly_joinWords (by split <;> decide) _
  | field modifiers signature value =>
    have hkeyword : Text.startsPlainly ".field".toList := by decide
    have hdeclared := startsPlainly_joinWords hkeyword [modifiers.keywords, signature]
    cases value with
    | none => exact hdeclared
    | some written =>
      exact Text.startsPlainly_concat (Text.startsPlainly_concat hdeclared _) _
  | method modifiers signature => exact startsPlainly_joinWords (by decide) _
  | superclass | implements | checkCast | loadArgument | getGlue | putGlue =>
    exact Text.startsPlainly_concat (by decide) _
  | loadName | getModule =>
    exact Text.startsPlainly_concat (Text.startsPlainly_concat (by decide) _) _
  | glueField =>
    exact Text.startsPlainly_concat (Text.startsPlainly_concat (Text.startsPlainly_concat
      (by decide) _) _) _
  | loadSelf | swap => decide
  | invoke reference | readField reference =>
    exact Text.startsPlainly_concat (Text.startsPlainly_concat
      (Opcode.startsPlainly_mnemonic _) _) _
  | invokeInterface reference count =>
    exact Text.startsPlainly_concat (Text.startsPlainly_concat (Text.startsPlainly_concat
      (Text.startsPlainly_concat (Opcode.startsPlainly_mnemonic _) _) _) _) _

end Assembly

/-! ### What directives stand for -/

theorem splitInitialValue_oneLine {written signature : String} {value : Option String}
    (hwritten : Text.OneLine written.toList)
    (h : splitInitialValue written = (signature, value)) :
    Text.OneLine signature.toList ∧
      ∀ initial, value = some initial → Text.OneLine initial.toList := by
  have htrimmed : ∀ cs, cs ⊆ written.toList →
      Text.OneLine (String.ofList (Text.trim cs)).toList := fun cs hcs => by
    rw [String.toList_ofList]
    exact hwritten.of_subset fun c hc => hcs (Text.trim_subset cs hc)
  unfold splitInitialValue at h
  split at h
  · rename_i hcut
    obtain ⟨hsignature, hvalue⟩ := Text.cutFirst_subset hcut
    obtain ⟨rfl, rfl⟩ := Prod.mk.inj h
    exact ⟨htrimmed _ hsignature, fun initial heq => Option.some.inj heq ▸ htrimmed _ hvalue⟩
  · obtain ⟨rfl, rfl⟩ := Prod.mk.inj h
    exact ⟨htrimmed _ (List.Subset.refl _), nofun⟩

namespace Resolution

variable {c : ClassUnit} {glue : GlueFields} {d : Directive} {out : List Assembly}

theorem LoadsReceiver.oneLine {kind : MemberKind} {reference : Reference kind}
    (h : LoadsReceiver c glue reference out) (hc : Text.OneLine c.name.chars)
    (hglue : glue.OneLine) : ∀ line ∈ out, line.OneLine := by
  cases h with
  | static => exact nofun
  | self => exact List.forall_mem_singleton.2 trivial
  | glued _ _ _ hfind =>
    obtain ⟨howner, hname⟩ := hglue.fields _ _ (GlueFields.mem_fields_of_find? hfind)
    exact List.forall_mem_cons.2 ⟨trivial, List.forall_mem_singleton.2 ⟨hc, hname, howner⟩⟩

theorem Begins.oneLine {reference : Reference .method} (h : Begins c glue d reference out)
    (hc : Text.OneLine c.name.chars) (hglue : glue.OneLine) : ∀ line ∈ out, line.OneLine := by
  cases h with
  | loaded hloads => exact hloads.oneLine hc hglue
  | swapped hloads =>
    exact List.forall_mem_append.2 ⟨hloads.oneLine hc hglue, List.forall_mem_singleton.2 trivial⟩

theorem Ends.oneLine {reference : Reference .method} (h : Ends reference out)
    (hreference : reference.OneLine) : ∀ line ∈ out, line.OneLine := by
  cases h <;> exact List.forall_mem_singleton.2 hreference

theorem oneLine_of_classHeader (hd : d.OneLine) (h : classHeader d = .ok out) :
    ∀ line ∈ out, line.OneLine := by
  unfold classHeader at h
  obtain ⟨header, hheader, h⟩ := exists_of_bind_eq_ok h
  obtain rfl := Except.ok.inj h
  obtain ⟨hname, hsuperclass, hinterfaces⟩ := Directive.oneLine_of_classHeader hd hheader
  refine List.forall_mem_cons.2 ⟨hname, List.forall_mem_append.2 ⟨?_, ?_⟩⟩
  · intro line hline
    obtain ⟨name, hmem, rfl⟩ := List.mem_map.1 hline
    exact hsuperclass name (Option.mem_toList.1 hmem)
  · intro line hline
    obtain ⟨name, hmem, rfl⟩ := List.mem_map.1 hline
    exact hinterfaces name hmem

theorem oneLine_of_fieldLine (hd : d.OneLine) (h : fieldLine d = .ok out) :
    ∀ line ∈ out, line.OneLine := by
  unfold fieldLine at h
  obtain ⟨written, hwritten, h⟩ := exists_of_bind_eq_ok h
  obtain ⟨modifiers, -, h⟩ := exists_of_bind_eq_ok h
  obtain rfl := Except.ok.inj h
  exact List.forall_mem_singleton.2
    (splitInitialValue_oneLine (Directive.oneLine_of_declared hd hwritten) rfl)

theorem oneLine_of_methodLine (hd : d.OneLine) (h : methodLine d = .ok out) :
    ∀ line ∈ out, line.OneLine := by
  unfold methodLine at h
  obtain ⟨modifiers, -, h⟩ := exists_of_bind_eq_ok h
  obtain ⟨written, hwritten, h⟩ := exists_of_bind_eq_ok h
  obtain rfl := Except.ok.inj h
  exact List.forall_mem_singleton.2 (Directive.oneLine_of_declared hd hwritten)

theorem oneLine_of_glueInit {r : Resolution} (hc : Text.OneLine r.declared.name.chars)
    (hglue : r.glue.OneLine) (h : r.glueInit d = .ok out) : ∀ line ∈ out, line.OneLine := by
  unfold glueInit at h
  obtain ⟨slot, -, h⟩ := exists_of_bind_eq_ok h
  obtain rfl := Except.ok.inj h
  intro line hline
  obtain ⟨⟨owner, name⟩, hfield, hline⟩ := List.mem_flatMap.1 hline
  obtain ⟨howner, hname⟩ := hglue.fields owner name hfield
  unfold initField at hline
  simp only [List.mem_append, List.mem_cons, List.not_mem_nil, or_false] at hline
  rcases hline with ((rfl | rfl) | hline) | rfl
  · trivial
  · trivial
  · split at hline
    · cases hline
    · simp only [List.mem_cons, List.not_mem_nil, or_false] at hline
      rcases hline with rfl | rfl | rfl
      · exact howner
      · exact hglue.context
      · exact howner
  · exact ⟨hc, hname, howner⟩

theorem oneLine_of_expansion {resolved : Option Resolved} (hc : Text.OneLine c.name.chars)
    (hglue : glue.OneLine) (hd : d.OneLine) (hresolved : ∀ x, resolved = some x → x.OneLine)
    (h : expansion c glue d resolved = .ok out) : ∀ line ∈ out, line.OneLine := by
  unfold expansion expand at h
  split at h
  case h_1 => exact oneLine_of_classHeader hd h
  case h_2 => exact oneLine_of_fieldLine hd h
  case h_3 => exact oneLine_of_methodLine hd h
  case h_4 => exact (Begins.of_invokeBegin h).oneLine hc hglue
  case h_5 => exact (Ends.of_invokeEnd h).oneLine (hresolved _ rfl)
  case h_6 reference _ =>
    obtain ⟨receiver, hloads, rfl⟩ := exists_loadsReceiver_of_readField h
    exact List.forall_mem_append.2 ⟨hloads.oneLine hc hglue,
      List.forall_mem_singleton.2 (hresolved _ rfl)⟩
  case h_7 =>
    obtain rfl := Except.ok.inj h
    exact List.forall_mem_singleton.2 (hresolved _ rfl)
  case h_8 =>
    obtain rfl := Except.ok.inj h
    intro line hline
    obtain ⟨⟨owner, name⟩, hfield, rfl⟩ := List.mem_map.1 hline
    exact (hglue.fields owner name hfield).symm
  case h_9 => exact oneLine_of_glueInit (r := ⟨c, .empty, glue⟩) hc hglue h
  case h_10 => cases h

/-! ### Outputs -/

/-- Lines of text that are no directives, written with what ends them. -/
def PlainLines (part : String) : Prop :=
  ∃ lines : List String, part = String.join (lines.map (· ++ lineSeparator)) ∧
    ∀ line ∈ lines, Text.OneLine line.toList ∧ Directive.parse line = .ok none

theorem PlainLines.join {parts : List String} (h : ∀ part ∈ parts, PlainLines part) :
    PlainLines (String.join parts) := by
  induction parts with
  | nil => exact ⟨[], rfl, nofun⟩
  | cons part parts ih =>
    obtain ⟨⟨lines, rfl, hlines⟩, hparts⟩ := List.forall_mem_cons.1 h
    obtain ⟨others, hothers, hplain⟩ := ih hparts
    refine ⟨lines ++ others, ?_, List.forall_mem_append.2 ⟨hlines, hplain⟩⟩
    rw [String.join_cons, hothers, List.map_append, String.join_append]

theorem PlainLines.plain {output : String} (h : PlainLines output) :
    (Stream.ofBytes output.toUTF8.toList).Plain := by
  obtain ⟨lines, rfl, hlines⟩ := h
  rw [Stream.ofBytes_toUTF8]
  intro line hline
  rw [Stream.lines_ofString, textLines, lineSeparator,
    Text.lines_join fun text htext => (hlines text htext).1,
    List.map_map, List.map_map] at hline
  obtain ⟨text, htext, rfl⟩ := List.mem_map.1 hline
  exact ⟨_, rfl, (Directive.parse_dropReturn text).trans (hlines text htext).2⟩

variable {r : Resolution}

/-- Where all names are one line, the part of a line has no directive: the line itself, if it is
none, or else what its directive stands for. -/
theorem OneLine.plainLines (h : r.OneLine) {number : Nat} {text part : String}
    (htext : Text.OneLine text.toList)
    (hpart : lineOutput r.declared r.glue r.lines number text = .ok part) : PlainLines part := by
  obtain ⟨directive, hparsed⟩ := exists_parsed hpart
  cases directive with
  | none =>
    unfold lineOutput at hpart
    rw [hparsed] at hpart
    obtain rfl := Except.ok.inj hpart
    exact ⟨[text], by simp, List.forall_mem_singleton.2 ⟨htext, hparsed⟩⟩
  | some d =>
    obtain ⟨out, hout, rfl⟩ := exists_expansion hparsed hpart
    have hd := Directive.oneLine_of_parse htext hparsed
    have hlines := oneLine_of_expansion h.declared h.glue hd (h.lines number) hout
    refine ⟨out.map fun line => d.indent ++ line.text, by rw [List.map_map]; rfl, ?_⟩
    intro line hline
    obtain ⟨assembly, hassembly, rfl⟩ := List.mem_map.1 hline
    exact ⟨Text.oneLine_concat hd.indent (Assembly.oneLine_text (hlines assembly hassembly)),
      Directive.parse_of_startsPlainly hd.blank_indent assembly.startsPlainly_text⟩

theorem OneLine.plain_of_lineOutputs (h : r.OneLine) {texts parts : List String}
    (htexts : ∀ text ∈ texts, Text.OneLine text.toList)
    (hparts : lineOutputs r.declared r.glue r.lines texts = .ok parts) :
    (Stream.ofBytes (String.join parts).toUTF8.toList).Plain := by
  have hplain : ∀ x ∈ texts.zipIdx 1, ∀ part,
      lineOutput r.declared r.glue r.lines x.2 x.1 = .ok part → PlainLines part :=
    fun x hx part hpart => h.plainLines (htexts _ (List.fst_mem_of_mem_zipIdx hx)) hpart
  have hall := ((List.forall₂_and_left _ _).2 ⟨hplain, forall₂_of_lineOutputs hparts⟩).flip
  have hboth := (List.forall₂_and_left (p := PlainLines) parts _).1
    (hall.imp fun part x hx => ⟨hx.1 part hx.2, trivial⟩)
  exact (PlainLines.join hboth.1).plain

end Resolution

namespace Source

/-- What is written with a resolution whose names are one line has no directive. -/
theorem WrittenFrom.plain [CommonStore σ τ] {resolution : Resolution} {resolved after : Source σ}
    (h : WrittenFrom (τ := τ) resolution resolved after) (hresolution : resolution.OneLine) :
    (Stream.ofBytes after.written.toList).Plain := by
  obtain ⟨texts, parts, ⟨common, created, reopened, -, -, htexts⟩, hparts, hwritten⟩ := h
  rw [hwritten]
  refine hresolution.plain_of_lineOutputs (fun text htext => ?_) hparts
  exact oneLine_of_mem_unread (htexts ▸ List.mem_map_of_mem htext)

/-- A source whose task returns without a failure has no directive in its output. -/
theorem link_plain [CommonStore σ τ] (s : Source σ) {c : ClassUnit} {r : Resolver}
    (loader : Loader τ) {context : ClassName} (hr : r.OneLine) (hc : Text.OneLine c.name.chars)
    (hcontext : Text.OneLine context.chars) :
    (s.link c r context).Meets (r.protocol loader) fun l => l.ending = .returned (.ok ()) →
      (Stream.ofBytes l.source.written.toList).Plain := by
  have hresolved := (s.resolve_selects c r loader context).and
    (s.resolve_oneLine loader hr hc hcontext)
  have hlinked := link_writes (P := r.protocol loader) (fun _ => trivial)
    (Q := fun resolution _ => resolution.OneLine) (hresolved.mono fun result h resolution hok =>
      have ⟨_, _, _, _, _, _, _, hordered, _⟩ := h.1 resolution hok
      ⟨hordered, h.2 resolution hok⟩)
  refine hlinked.mono fun l h hok => ?_
  obtain ⟨resolution, resolved, hresolution, hwritten⟩ := h hok
  exact hwritten.plain hresolution

end Source

namespace Job

variable [CommonStore σ τ]

/-- In a job that links no directive is left, if no name that its sources do not write has a line
feed: whatever its sources and its loader do, and in every schedule, the lines of an output that
are read back from its bytes are all plain assembly. -/
theorem link_leaves_no_directive (schedule : List Nat) (loader : Loader τ) (job : Job τ σ)
    (hok : (job.link schedule loader).result = .ok ())
    (hlibraries : ∀ libraries common,
      loadLibraries loader job.libraries.eraseDups job.common = (.ok libraries, common) →
      ∀ c ∈ libraries, Text.OneLine c.name.chars)
    (hcontext : Text.OneLine job.context.chars)
    (hunresolved : ∀ target, job.unresolved = some target → Text.OneLine target.chars) :
    ∀ s ∈ (job.link schedule loader).sources, (Stream.ofBytes s.written.toList).Plain := by
  rcases begins_or_gives_up schedule (granted_of_result_ok schedule hok) loader with
    ⟨discovered, r, common, hbegins⟩ | ⟨message, -, hcrashed⟩ | ⟨failures, hgives, hresult, -⟩
  · obtain ⟨hresult, hsources, -⟩ := hbegins.link_eq schedule
    obtain ⟨libraries, hloaded, hbuild⟩ := hbegins.built
    obtain ⟨hclasses, hunshadowed, htarget⟩ := Resolver.order_of_build hbuild
    have hdeclared : ∀ x ∈ discovered, Text.OneLine x.2.name.chars := by
      intro x hx
      obtain ⟨s, -, hfound⟩ := hbegins.exists_source hx
      exact Source.oneLine_of_discover hfound
    have hr : r.OneLine := by
      refine ⟨List.forall_mem_append.2 ⟨?_, ?_⟩, fun target h => hunresolved target (htarget ▸ h)⟩
      · intro c hc
        rw [hclasses] at hc
        obtain ⟨x, hx, rfl⟩ := List.mem_map.1 hc
        exact hdeclared x hx
      · intro c hc
        rw [hunshadowed] at hc
        exact hlibraries libraries common hloaded c (List.mem_of_mem_filter hc)
    have hwritten := linkSources_meets schedule loader r job.context common
      (fun _ after => (Stream.ofBytes after.written.toList).Plain)
      (fun x hx => x.1.link_plain loader hr (hdeclared x hx) hcontext) (hresult.symm.trans hok)
    rw [hsources]
    exact ((List.forall₂_and_left _ _).1 (hwritten.imp fun after x h => ⟨h, trivial⟩)).1
  · rw [hcrashed] at hok
    cases hok
  · exact absurd (firstFailure_eq_ok_iff.1 (hresult.symm.trans hok)) hgives.ne_nil

def oneMethod : ClassLibrary :=
  ⟨[⟨⟨.ofString "L", .empty, none, []⟩, [⟨.ofString "L", "n", "()V", .single .isPublic⟩], []⟩]⟩

/-- A job with indented directives, a comment that is not quite a directive, and a last line that
nothing ends. -/
def indented : Job Unit MemoryStore where
  sources := [Source.inMemory "a.j" (";@class|name=A\r\n;@method|sig=m()V|flags=private\n" ++
    "\t;@invoke-begin\n\t;@invoke-end|sig=m()V|local=1\n; @class-of\n;@class-of|sig=n()V\n" ++
    "  ;@glue-fields")]
  common := ()
  libraries := [.ofString "L"]
  unresolved := some (.ofString "U")
  context := .ofString "C"

theorem link_leaves_no_directive_indented :
    (indented.link [0] (.fixed oneMethod.load 1)).result = .ok () ∧
      (indented.link [0] (.fixed oneMethod.load 1)).outputs =
        [some (".class A\n.super java/lang/Object\n.method private m()V\n\taload_0\n" ++
          "\tinvokespecial A/m()V\n; @class-of\nldc \"L\"\n  .field private glue$c0 LC;\n")] ∧
      ∀ s ∈ (indented.link [0] (.fixed oneMethod.load 1)).sources,
        (Stream.ofBytes s.written.toList).Plain := by
  have hmemory : indented.InMemory := by
    intro s hs
    obtain rfl := List.mem_singleton.1 hs
    exact ⟨_, _, rfl⟩
  have hcomposed : indented.composed (.fixed oneMethod.load 1) =
      some [some (".class A\n.super java/lang/Object\n.method private m()V\n\taload_0\n" ++
        "\tinvokespecial A/m()V\n; @class-of\nldc \"L\"\n  .field private glue$c0 LC;\n")] := by
    decide +kernel
  obtain ⟨hresult, houtputs⟩ := InMemory.link_of_composed [0] hmemory rfl hcomposed
  have hok := hresult.2 (by simp)
  refine ⟨hok, houtputs, link_leaves_no_directive [0] _ indented hok ?_ (by decide) ?_⟩
  · intro libraries common hloaded
    have hlibrary : loadLibraries (.fixed oneMethod.load 1) indented.libraries.eraseDups
        indented.common = (.ok oneMethod.classes, ()) := by rfl
    obtain ⟨hlibraries, -⟩ := Prod.mk.inj (hlibrary.symm.trans hloaded)
    obtain rfl := Except.ok.inj hlibraries
    exact List.forall_mem_singleton.2 (by decide)
  · rintro target ⟨⟩
    decide

end Job
end UnitLink
