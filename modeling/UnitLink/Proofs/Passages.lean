import UnitLink.Proofs.Instructions
import UnitLink.Proofs.Matching
import UnitLink.Proofs.SelectedLines
import UnitLink.Proofs.SourceRuns
/-! The members that a job which links uses. A line's directive is expanded by what its line was
resolved to, and the two ends of an invocation were resolved to the same reference. So an
instruction that invokes a method or reads a field has the reference that was selected for a
directive of the source, and what stands at the begin of an invocation goes with the opcode at its
end. Nothing is assumed of the sources: where one changes between its resolution and its
rewriting, its instructions are justified by the lines that were resolved. -/
namespace UnitLink

variable {σ τ : Type}

/-! ### Passages -/

/-- How a source came to its output: the lines that were resolved, what they were bound to and
the resolution, and the texts that were rewritten with what each of them became. -/
structure Passage where
  lines : List Line
  bindings : List (Nat × Binding)
  resolution : Resolution
  texts : List String
  parts : List String

namespace Passage

/-- When the source was resolved, the line had the directive. -/
def Directs (p : Passage) (number : Nat) (d : Directive) : Prop :=
  ∃ line ∈ p.lines, line.number = number ∧ line.directive = some d

/-- When the source was rewritten, the line had the directive, and became the instructions. -/
def Emits (p : Passage) (number : Nat) (d : Directive) (out : List Assembly) : Prop :=
  ∃ i text, number = i + 1 ∧ p.texts[i]? = some text ∧ Directive.parse text = .ok (some d) ∧
    Resolution.expansion p.resolution.declared p.resolution.glue d
      (p.resolution.lines.get? number) = .ok out ∧
    p.parts[i]? = some (String.join (out.map fun line => d.indent ++ line.text ++ lineSeparator))

/-- All that a source in the class `c` does with members is justified. -/
structure Sound (r : Resolver) (loader : Loader τ) (c : ClassUnit) (p : Passage) : Prop where
  declared_eq : p.resolution.declared = c
  /-- The bindings are those of the directives that bind, in order. -/
  kinds_eq : p.bindings.map (fun x => (x.1, x.2.kind)) = boundKinds p.lines
  balanced : Balanced p.bindings
  /-- The output has a part for each of the texts. -/
  parts_eq : Resolution.lineOutputs c p.resolution.glue p.resolution.lines p.texts = .ok p.parts
  /-- Begins and ends belong to invocations, and the reference of an invocation is selected for
  its end. -/
  opened : ∀ number d, p.Directs number d → d.kind = .invokeBegin →
    ∃ closing reference, Matched p.bindings number closing reference
  closed : ∀ number d, p.Directs number d → d.kind = .invokeEnd →
    ∃ opening reference, Matched p.bindings opening number reference
  selected : ∀ opening closing reference, Matched p.bindings opening closing reference →
    (∃ d, p.Directs opening d ∧ d.kind = .invokeBegin) ∧
      ∃ d, p.Directs closing d ∧ d.kind = .invokeEnd ∧ d.Selects r loader c reference
  /-- An instruction that invokes has the reference of an invocation and stands at its end, or
  else at its begin if there is another directive by now. -/
  invoked : ∀ number d out line reference, p.Emits number d out → line ∈ out →
    line.member? = some ⟨.method, reference⟩ → d.kind = .invokeEnd ∧
      ∃ opening closing, Matched p.bindings opening closing reference ∧
        (number = closing ∨ number = opening ∧ ¬p.Directs number d)
  begins : ∀ opening closing reference d out, Matched p.bindings opening closing reference →
    p.Emits opening d out → d.kind = .invokeBegin →
    Resolution.Begins c p.resolution.glue d reference out
  ends : ∀ opening closing reference d out, Matched p.bindings opening closing reference →
    p.Emits closing d out → d.kind = .invokeEnd → Resolution.Ends reference out
  /-- An instruction that reads a field has the reference that is selected for its line. -/
  fieldRead : ∀ number d out line reference, p.Emits number d out → line ∈ out →
    line.member? = some ⟨.field, reference⟩ → d.kind = .readField ∧
      (∃ reading, p.Directs number reading ∧ reading.kind = .readField ∧
        reading.Selects r loader c reference) ∧
      ∃ receiver, Resolution.LoadsReceiver c p.resolution.glue reference receiver ∧
        out = receiver ++ [.readField reference]

theorem Emits.expands {p : Passage} {number : Nat} {d : Directive} {out : List Assembly}
    (h : p.Emits number d out) :
    Resolution.Expands p.resolution.declared p.resolution.glue d
      (p.resolution.lines.get? number) out := by
  obtain ⟨i, text, -, -, -, hout, -⟩ := h
  exact .of_expansion hout

/-- If the lines that were rewritten are those that were resolved, a directive that became
instructions was there before. -/
theorem Emits.directs {p : Passage} {source : String}
    (hlines : readLines source 1 (p.texts.map .ok) = .ok p.lines) {number : Nat} {d : Directive}
    {out : List Assembly} (h : p.Emits number d out) : p.Directs number d := by
  obtain ⟨i, text, rfl, htext, hparsed, -, -⟩ := h
  have hi : (p.texts.map (Except.ok : String → Except SystemFault String))[i]? =
      some (.ok text) := by rw [List.getElem?_map, htext, Option.map_some]
  obtain ⟨line, hline, hread⟩ := getElem?_of_readLines hlines hi
  obtain ⟨hsame, hdirective⟩ := Line.of_read hread
  obtain rfl : text = line.text := Except.ok.inj hsame
  refine ⟨line, List.mem_of_getElem? hline, ?_, ?_⟩
  · rw [Line.number_of_read hread, Nat.add_comm]
  · exact Except.ok.inj (hdirective.symm.trans hparsed)

/-- If the lines that were rewritten are those that were resolved, every directive became
instructions. -/
theorem Directs.emits {p : Passage} {source : String}
    (hlines : readLines source 1 (p.texts.map .ok) = .ok p.lines)
    (hparts : Resolution.lineOutputs p.resolution.declared p.resolution.glue p.resolution.lines
      p.texts = .ok p.parts) {number : Nat} {d : Directive} (h : p.Directs number d) :
    ∃ out, p.Emits number d out := by
  obtain ⟨line, hline, rfl, hd⟩ := h
  obtain ⟨i, hi⟩ := List.mem_iff_getElem?.1 hline
  have htexts : p.texts = p.lines.map Line.text := texts_eq_of_readLines hlines
  have htext : p.texts[i]? = some line.text := by
    rw [htexts, List.getElem?_map, hi, Option.map_some]
  have hread : (p.texts.map (Except.ok : String → Except SystemFault String))[i]? =
      some (.ok line.text) := by rw [List.getElem?_map, htext, Option.map_some]
  obtain ⟨same, hsame, hnumbered⟩ := getElem?_of_readLines hlines hread
  obtain rfl := Option.some.inj (hsame.symm.trans hi)
  have hnumber : same.number = i + 1 := by rw [Line.number_of_read hnumbered, Nat.add_comm]
  have hparsed : Directive.parse same.text = .ok (some d) := by rw [(Line.of_read hnumbered).2, hd]
  obtain ⟨part, hpart, hlineOutput⟩ := Resolution.exists_lineOutput hparts htext
  obtain ⟨out, hout, rfl⟩ := Resolution.exists_expansion hparsed hlineOutput
  refine ⟨out, i, same.text, hnumber, htext, hparsed, ?_, hpart⟩
  rw [hnumber]
  exact hout

theorem Directs.eq {p : Passage} (hnumbered : p.lines.Pairwise fun a b => a.number < b.number)
    {number : Nat} {d e : Directive} (h : p.Directs number d) (h' : p.Directs number e) :
    d = e := by
  obtain ⟨line, hline, rfl, hd⟩ := h
  obtain ⟨other, hother, hnumber, he⟩ := h'
  have hnodup : (p.lines.map Line.number).Nodup :=
    List.pairwise_map.2 (hnumbered.imp fun hlt => Nat.ne_of_lt hlt)
  obtain rfl := List.inj_on_of_nodup_map hnodup hother hline hnumber
  exact Option.some.inj (hd.symm.trans he)

section Sound

variable {r : Resolver} {loader : Loader τ} {c : ClassUnit} {p : Passage}

theorem directs_of_mem (hselected : Bindings.AllSelected r loader c p.lines p.bindings)
    {number : Nat} {binding : Binding} (hmem : (number, binding) ∈ p.bindings) :
    ∃ d, p.Directs number d ∧ Bindings.SelectedBy r loader c d binding := by
  obtain ⟨line, hline, hnumber, d, hd, hbinding⟩ := hselected.exists_line hmem
  exact ⟨d, ⟨line, hline, hnumber, hd⟩, hbinding⟩

theorem exists_selected (hselected : Bindings.AllSelected r loader c p.lines p.bindings)
    {number : Nat} {d : Directive} (hd : p.Directs number d) (hbinds : d.kind.binds = true) :
    ∃ binding, (number, binding) ∈ p.bindings ∧ Bindings.SelectedBy r loader c d binding := by
  obtain ⟨line, hline, rfl, hdirective⟩ := hd
  exact hselected.exists_binding hline hdirective hbinds

theorem exists_closing (hselected : Bindings.AllSelected r loader c p.lines p.bindings)
    (hbalanced : Balanced p.bindings) {number : Nat} {d : Directive} (hd : p.Directs number d)
    (hkind : d.kind = .invokeBegin) :
    ∃ closing reference, Matched p.bindings number closing reference := by
  obtain ⟨binding, hmem, hbinding⟩ := exists_selected hselected hd (by rw [hkind]; rfl)
  rw [← hbinding.kind_eq] at hkind
  obtain ⟨table, hnested⟩ := hbalanced
  have hpartner := hnested.hasPartner hmem
  cases binding with
  | opening => exact hpartner
  | closing | fieldRead | classOf => cases hkind

theorem exists_opening (hselected : Bindings.AllSelected r loader c p.lines p.bindings)
    (hbalanced : Balanced p.bindings) {number : Nat} {d : Directive} (hd : p.Directs number d)
    (hkind : d.kind = .invokeEnd) :
    ∃ opening reference, Matched p.bindings opening number reference := by
  obtain ⟨binding, hmem, hbinding⟩ := exists_selected hselected hd (by rw [hkind]; rfl)
  rw [← hbinding.kind_eq] at hkind
  obtain ⟨table, hnested⟩ := hbalanced
  have hpartner := hnested.hasPartner hmem
  cases binding with
  | closing reference =>
    obtain ⟨opening, hmatched⟩ := hpartner
    exact ⟨opening, reference, hmatched⟩
  | opening | fieldRead | classOf => cases hkind

/-- What the two ends of an invocation were selected for. -/
theorem selected_of_matched (hselected : Bindings.AllSelected r loader c p.lines p.bindings)
    {opening closing : Nat} {reference : Reference .method}
    (hmatched : Matched p.bindings opening closing reference) :
    (∃ d, p.Directs opening d ∧ d.kind = .invokeBegin) ∧
      ∃ d, p.Directs closing d ∧ d.kind = .invokeEnd ∧ d.Selects r loader c reference := by
  obtain ⟨hopening, hclosing⟩ := hmatched.mem
  exact ⟨directs_of_mem hselected hopening, directs_of_mem hselected hclosing⟩

theorem matched_of_invoked (hnumbered : p.lines.Pairwise fun a b => a.number < b.number)
    (hselected : Bindings.AllSelected r loader c p.lines p.bindings)
    (hnested : Nested p.bindings p.resolution.lines.toList)
    (hordered : p.resolution.lines.Ordered) {number : Nat} {d : Directive}
    {out : List Assembly} (hemits : p.Emits number d out) {line : Assembly}
    {reference : Reference .method} (hline : line ∈ out)
    (hmember : line.member? = some ⟨.method, reference⟩) :
    d.kind = .invokeEnd ∧ ∃ opening closing, Matched p.bindings opening closing reference ∧
      (number = closing ∨ number = opening ∧ ¬p.Directs number d) := by
  rcases hemits.expands.of_member? hline hmember with
    ⟨invoked, hfound, hkind, hget⟩ | ⟨read, _, hfound, -⟩
  · cases hfound
    obtain ⟨opening, closing, hmatched, hnumber⟩ :=
      hnested.exists_matched (hordered.get?_eq_some_iff.1 hget)
    refine ⟨hkind, opening, closing, hmatched, ?_⟩
    rcases hnumber with rfl | rfl
    · right
      refine ⟨rfl, fun hdirects => ?_⟩
      obtain ⟨e, he, hbegin⟩ := (selected_of_matched hselected hmatched).1
      rw [← hdirects.eq hnumbered he, hkind] at hbegin
      cases hbegin
    · exact .inl rfl
  · cases hfound

theorem selected_of_fieldRead (hselected : Bindings.AllSelected r loader c p.lines p.bindings)
    (hnested : Nested p.bindings p.resolution.lines.toList)
    (hordered : p.resolution.lines.Ordered) {number : Nat} {d : Directive}
    {out : List Assembly} (hemits : p.Emits number d out) {line : Assembly}
    {reference : Reference .field} (hline : line ∈ out)
    (hmember : line.member? = some ⟨.field, reference⟩) :
    d.kind = .readField ∧ (∃ reading, p.Directs number reading ∧ reading.kind = .readField ∧
        reading.Selects r loader c reference) ∧
      ∃ receiver, Resolution.LoadsReceiver p.resolution.declared p.resolution.glue reference
        receiver ∧ out = receiver ++ [.readField reference] := by
  rcases hemits.expands.of_member? hline hmember with
    ⟨invoked, hfound, -⟩ | ⟨read, receiver, hfound, hkind, hget, hloads, hout⟩
  · cases hfound
  · cases hfound
    have hmem := hnested.mem_of_fieldRead (hordered.get?_eq_some_iff.1 hget)
    exact ⟨hkind, directs_of_mem hselected hmem, receiver, hloads, hout⟩

theorem sound (hnumbered : p.lines.Pairwise fun a b => a.number < b.number)
    (hselected : Bindings.AllSelected r loader c p.lines p.bindings)
    (hnested : Nested p.bindings p.resolution.lines.toList)
    (hordered : p.resolution.lines.Ordered) (hdeclared : p.resolution.declared = c)
    (hparts : Resolution.lineOutputs c p.resolution.glue p.resolution.lines p.texts =
      .ok p.parts) : p.Sound r loader c where
  declared_eq := hdeclared
  kinds_eq := hselected.kinds_eq
  balanced := ⟨_, hnested⟩
  parts_eq := hparts
  opened _ _ hd hkind := exists_closing hselected ⟨_, hnested⟩ hd hkind
  closed _ _ hd hkind := exists_opening hselected ⟨_, hnested⟩ hd hkind
  selected _ _ _ hmatched := selected_of_matched hselected hmatched
  invoked _ _ _ _ _ hemits hline hmember :=
    matched_of_invoked hnumbered hselected hnested hordered hemits hline hmember
  begins opening closing reference d out hmatched hemits hkind := by
    have hexpands := hemits.expands
    rw [hordered.get?_eq_some_iff.2 (hnested.of_matched hmatched).1, hdeclared] at hexpands
    exact hexpands.begins_of_kind hkind
  ends opening closing reference d out hmatched hemits hkind := by
    have hexpands := hemits.expands
    rw [hordered.get?_eq_some_iff.2 (hnested.of_matched hmatched).2] at hexpands
    exact hexpands.ends_of_kind hkind
  fieldRead _ _ _ _ _ hemits hline hmember :=
    hdeclared ▸ selected_of_fieldRead hselected hnested hordered hemits hline hmember

end Sound

end Passage

/-! ### Links -/

namespace Source

theorem written_close (s : Source σ) : s.close.2.written = s.written := by
  rcases s.close_cases with ⟨-, hclose⟩ | ⟨-, fault, hclose⟩ | ⟨hopen, houtput, hreader⟩
  · rw [hclose]
  · rw [hclose]
  · rw [close_eq hopen houtput hreader]
    rfl

/-- What is read of a source that has been resolved: in some state of the common store its output
is created, and then its input opens and has the texts. -/
def Rereads [CommonStore σ τ] (resolved : Source σ) (texts : List String) : Prop :=
  ∃ (common : τ) (created reopened : Source σ),
    ({ resolved with store := CommonStore.withCommon common resolved.store } :
        Source σ).startOutput = (.ok (), created) ∧
      created.startInput = (.ok (), reopened) ∧ reopened.unread = texts.map .ok

/-- The source was written in a sound passage. Its lines are those that the input had when the
source was resolved, its texts those that were read when it was rewritten, and the output is
their parts. If the input does not change, the texts are those of the lines, and the directives
that became instructions are the directives of the lines. -/
def WrittenSoundly [CommonStore σ τ] (s after : Source σ) (c : ClassUnit) (r : Resolver)
    (loader : Loader τ) : Prop :=
  ∃ p : Passage,
    (∃ opened, s.OpensWith opened p.lines ∧ Rereads (τ := τ) opened.releaseInput p.texts) ∧
    p.Sound r loader c ∧
    (s.Steady → p.texts = p.lines.map Line.text ∧
      ∀ number d, p.Directs number d ↔ ∃ out, p.Emits number d out) ∧
    after.written = (String.join p.parts).toUTF8

/-- How a source came to be written with a resolution: lines that were read of what the resolution
left have become the parts of the output. -/
def WrittenFrom [CommonStore σ τ] (resolution : Resolution) (resolved after : Source σ) : Prop :=
  ∃ texts parts, Rereads (τ := τ) resolved texts ∧
    Resolution.lineOutputs resolution.declared resolution.glue resolution.lines texts =
      .ok parts ∧
    after.written = (String.join parts).toUTF8

theorem link_writes [CommonStore σ τ] {P : Protocol τ}
    (hasks : ∀ update, P.asks (.exchange update)) {s : Source σ} {c : ClassUnit} {r : Resolver}
    {context : ClassName} {Q : Resolution → Source σ → Prop}
    (h : (s.resolve c r context).Meets P fun result =>
      ∀ resolution, result.1 = .ok resolution →
        resolution.lines.Ordered ∧ Q resolution result.2) :
    (s.link c r context).Meets P fun l => l.ending = .returned (.ok ()) →
      ∃ resolution resolved, Q resolution resolved ∧
        WrittenFrom (τ := τ) resolution resolved l.source := by
  unfold link
  refine Session.Meets.bind h ?_
  rintro ⟨(failure | message) | resolution, resolved⟩ hresolved
  · exact Session.meets_pure nofun
  · exact Session.meets_pure nofun
  obtain ⟨hordered, hQ⟩ := hresolved resolution rfl
  refine Session.meets_bind_iff.2 (Session.meets_inTurn (fun _ => hasks _) fun common => ?_)
  generalize hrewrite : ({ resolved with
    store := CommonStore.withCommon common resolved.store } : Source σ).rewrite
      resolution = rewriting
  obtain ⟨failure | done, rewritten⟩ := rewriting
  · exact Session.meets_pure nofun
  obtain ⟨created, reopened, texts, parts, hcreated, hreopened, htexts, hparts, hwritten⟩ :=
    written_of_rewrite hordered hrewrite
  refine Session.meets_bind_iff.2 (Session.meets_inTurn (fun _ => hasks _) fun common' => ?_)
  have hclosed := ({ rewritten with
    store := CommonStore.withCommon common' rewritten.store } : Source σ).written_close
  generalize ({ rewritten with
    store := CommonStore.withCommon common' rewritten.store } : Source σ).close = closing
      at hclosed
  obtain ⟨failure | done, closed⟩ := closing
  · exact Session.meets_pure nofun
  exact Session.meets_pure fun _ => ⟨resolution, resolved, hQ, texts, parts,
    ⟨common, created, reopened, hcreated, hreopened, htexts⟩, hparts, hclosed.trans hwritten⟩

/-- A source whose task returns without a failure has been written in a sound passage. -/
theorem link_sound [CommonStore σ τ] (s : Source σ) (c : ClassUnit) (r : Resolver)
    (loader : Loader τ) (context : ClassName) :
    (s.link c r context).Meets (r.protocol loader) fun l => l.ending = .returned (.ok ()) →
      s.WrittenSoundly l.source c r loader := by
  have hlinked := link_writes (P := r.protocol loader) (fun _ => trivial)
    (Q := fun resolution resolved => ∃ opened lines bs, s.OpensWith opened lines ∧
      resolved = opened.releaseInput ∧ Bindings.AllSelected r loader c lines bs ∧
      Nested bs resolution.lines.toList ∧ resolution.lines.Ordered ∧ resolution.declared = c)
    ((s.resolve_selects c r loader context).mono fun result h resolution hok =>
      have ⟨opened, lines, bs, hopens, hleft, hselected, hnested, hordered, hdeclared⟩ :=
        h resolution hok
      ⟨hordered, opened, lines, bs, hopens, hleft, hselected, hnested, hordered, hdeclared⟩)
  refine hlinked.mono fun l h hok => ?_
  obtain ⟨resolution, resolved, ⟨opened, lines, bs, hopens, rfl, hselected, hnested, hordered,
    hdeclared⟩, texts, parts, hrereads, hparts, hwritten⟩ := h hok
  let p : Passage := ⟨lines, bs, resolution, texts, parts⟩
  refine ⟨p, ⟨opened, hopens, hrereads⟩, ?_, ?_, hwritten⟩
  · obtain ⟨_, _, hlines⟩ := hopens
    exact Passage.sound (ascending_of_readLines hlines).1 hselected hnested hordered hdeclared
      (hdeclared ▸ hparts)
  -- a steady source is read again as it was read when it was resolved
  · rintro ⟨stream, same, hkeeps⟩
    obtain ⟨common, created, reopened, hcreated, hreopened, htexts⟩ := hrereads
    obtain ⟨hkept, hlines⟩ := hkeeps.opensWith hopens
    obtain ⟨-, hunread⟩ := ((hkept.withCommon common).startOutput hcreated).startInput hreopened
    rw [← hunread, htexts] at hlines
    refine ⟨texts_eq_of_readLines hlines, fun number d => ⟨fun hdirects => ?_, ?_⟩⟩
    · exact Passage.Directs.emits (p := p) hlines hparts hdirects
    · rintro ⟨out, hemits⟩
      exact hemits.directs hlines

end Source

/-- The search order of a job: the classes of its sources, and then the libraries that share a
name with none of them. -/
theorem Resolver.order_of_build {loader : Loader τ} {discovered : List (Source σ × ClassUnit)}
    {libraries : List ClassUnit} {unresolved : Option ClassName} {r : Resolver}
    (h : build (discovered.map fun x => ⟨x.1.name, x.2⟩) libraries unresolved loader = .ok r) :
    r.jobClasses = discovered.map Prod.snd ∧
      r.libraries = libraries.filter (fun library => ∀ x ∈ discovered, x.2.name ≠ library.name) ∧
      r.unresolved = unresolved := by
  obtain ⟨-, rfl⟩ := build_eq_ok_iff.1 h
  refine ⟨?_, ?_, rfl⟩
  · rw [List.map_map]
    rfl
  · refine List.filter_congr fun library _ => ?_
    rw [decide_eq_decide, Undeclared, List.forall_mem_map]

namespace Job

theorem GivesUp.ne_nil {job : Job τ σ} {loader : Loader τ} {failures : List Failure}
    (h : job.GivesUp loader failures) : failures ≠ [] := by
  cases h with
  | library _ => exact List.append_ne_nil_of_right_ne_nil _ (List.cons_ne_nil _ _)
  | discovery _ hfailures => exact hfailures
  | build _ _ _ => exact List.cons_ne_nil _ _

theorem firstFailure_eq_ok_iff {failures : List Failure} :
    (firstFailure failures).1 = .ok () ↔ failures = [] := by
  cases failures <;> simp [firstFailure]

variable [CommonStore σ τ]

theorem linkSources_meets (schedule : List Nat) (loader : Loader τ) (r : Resolver)
    (context : ClassName) {discovered : List (Source σ × ClassUnit)} (common : τ)
    (good : Source σ × ClassUnit → Source σ → Prop)
    (h : ∀ x ∈ discovered, (x.1.link x.2 r context).Meets (r.protocol loader) fun l =>
      l.ending = .returned (.ok ()) → good x l.source)
    (hok : (linkSources schedule loader r context discovered common).result = .ok ()) :
    List.Forall₂ (fun after x => good x after)
      (linkSources schedule loader r context discovered common).sources discovered := by
  have hlinked := Session.meets_interleave_map (r.protocol_keeps loader) schedule h
    ⟨r.caches, common⟩ (r.faithful_start loader common)
  unfold linkSources at hok ⊢
  simp only at hok ⊢
  generalize (Session.interleave loader schedule _ _).1 = linked at hlinked hok ⊢
  have hnone := firstFailure_eq_ok_iff.1 hok
  rw [hnone, List.isEmpty_nil, if_pos rfl, List.forall₂_map_left_iff]
  have hreturned : ∀ l ∈ linked, l.ending = .returned (.ok ()) := by
    intro l hl
    have hfailure := List.filterMap_eq_nil_iff.1 hnone l hl
    unfold LinkedSource.failure? at hfailure
    split at hfailure
    · assumption
    · cases hfailure
    · cases hfailure
  exact ((List.forall₂_and_left _ _).2 ⟨hreturned, hlinked⟩).imp fun l x h => h.2 h.1

theorem linkSources_sound (schedule : List Nat) (loader : Loader τ) (r : Resolver)
    (context : ClassName) (discovered : List (Source σ × ClassUnit)) (common : τ)
    (hok : (linkSources schedule loader r context discovered common).result = .ok ()) :
    List.Forall₂ (fun after x => x.1.WrittenSoundly after x.2 r loader)
      (linkSources schedule loader r context discovered common).sources discovered :=
  linkSources_meets schedule loader r context common
    (fun x after => x.1.WrittenSoundly after x.2 r loader)
    (fun x _ => x.1.link_sound x.2 r loader context) hok

/-- Whatever its sources and its loader do, and in every schedule, a job that links has justified
all that its outputs do with members: each source was written in a sound passage over the lines
that its input had. -/
theorem link_justifies_members (schedule : List Nat) (loader : Loader τ) (job : Job τ σ)
    (hok : (job.link schedule loader).result = .ok ()) :
    ∃ (discovered : List (Source σ × ClassUnit)) (libraries : List ClassUnit) (common : τ)
      (r : Resolver),
      job.sources.map Source.discover = discovered.map (fun x => (.ok x.2, x.1)) ∧
        loadLibraries loader job.libraries.eraseDups job.common = (.ok libraries, common) ∧
        r.jobClasses = discovered.map Prod.snd ∧
        r.libraries =
          libraries.filter (fun library => ∀ x ∈ discovered, x.2.name ≠ library.name) ∧
        r.unresolved = job.unresolved ∧
        List.Forall₂ (fun after x => x.1.WrittenSoundly after x.2 r loader)
          (job.link schedule loader).sources discovered := by
  rcases begins_or_gives_up schedule (granted_of_result_ok schedule hok) loader with
    ⟨discovered, r, common, hbegins⟩ | ⟨message, -, hcrashed⟩ | ⟨failures, hgives, hresult, -⟩
  · obtain ⟨hresult, hsources, -⟩ := hbegins.link_eq schedule
    obtain ⟨libraries, hlibraries, hbuild⟩ := hbegins.built
    obtain ⟨hclasses, hunshadowed, hunresolved⟩ := Resolver.order_of_build hbuild
    refine ⟨discovered, libraries, common, r, hbegins.discovered_eq, hlibraries, hclasses,
      hunshadowed, hunresolved, ?_⟩
    rw [hsources]
    exact linkSources_sound schedule loader r job.context discovered common
      (hresult.symm.trans hok)
  · rw [hcrashed] at hok
    cases hok
  · exact absurd (firstFailure_eq_ok_iff.1 (hresult.symm.trans hok)) hgives.ne_nil

def staticLibrary : ClassLibrary :=
  ⟨[⟨⟨.ofString "Lib", .single .isPublic, none, []⟩, [⟨.ofString "Lib", "m", "()V",
    (Modifiers.single .isPublic).union (.single .isStatic)⟩], []⟩]⟩

/-- A job whose one class calls its own private method with a call of the library's method of
the same name before the end. -/
def nestedCalls : Job Unit MemoryStore where
  sources := [Source.inMemory "a.j" (";@class|name=A\n;@method|sig=m()V|flags=private\n" ++
    ";@invoke-begin\n  ;@invoke-begin\n  ;@invoke-end|sig=m()V\n" ++
    ";@invoke-end|sig=m()V|local=1\n")]
  common := ()
  libraries := [.ofString "Lib"]
  unresolved := none
  context := .ofString "Context"

theorem link_justifies_members_nestedCalls :
    (nestedCalls.link [0] (.fixed staticLibrary.load 1)).result = .ok () ∧
      (nestedCalls.link [0] (.fixed staticLibrary.load 1)).outputs =
        [some (".class A\n.super java/lang/Object\n.method private m()V\naload_0\n" ++
          "  invokestatic Lib/m()V\ninvokespecial A/m()V\n")] ∧
      ∃ (discovered : List (Source MemoryStore × ClassUnit)) (r : Resolver),
        List.Forall₂ (fun after x => x.1.Steady ∧
            x.1.WrittenSoundly after x.2 r (.fixed staticLibrary.load 1))
          (nestedCalls.link [0] (.fixed staticLibrary.load 1)).sources discovered := by
  have hmemory : nestedCalls.InMemory := by
    intro s hs
    obtain rfl := List.mem_singleton.1 hs
    exact ⟨_, _, rfl⟩
  have hcomposed : nestedCalls.composed (.fixed staticLibrary.load 1) =
      some [some (".class A\n.super java/lang/Object\n.method private m()V\naload_0\n" ++
        "  invokestatic Lib/m()V\ninvokespecial A/m()V\n")] := by decide +kernel
  obtain ⟨hresult, houtputs⟩ := InMemory.link_of_composed [0] hmemory rfl hcomposed
  have hok := hresult.2 (by simp)
  obtain ⟨discovered, -, -, r, hdiscovered, -, -, -, -, hsound⟩ :=
    link_justifies_members [0] (.fixed staticLibrary.load 1) nestedCalls hok
  have hsteady : ∀ x ∈ discovered, x.1.Steady := by
    intro x hx
    have hmem : (.ok x.2, x.1) ∈ nestedCalls.sources.map Source.discover :=
      hdiscovered ▸ List.mem_map_of_mem hx
    obtain ⟨s, hs, hfound⟩ := List.mem_map.1 hmem
    obtain ⟨name, text, rfl⟩ := hmemory s hs
    exact (Source.steady_inMemory name text).discover hfound
  exact ⟨hok, houtputs, discovered, r,
    ((List.forall₂_and_left _ _).2 ⟨hsteady, hsound.flip⟩).flip⟩

end Job
end UnitLink
