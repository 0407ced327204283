import UnitLink.Proofs.DeclaredMembers
import UnitLink.Proofs.GlueNames
/-! The fields that an output declares. Names of glue fields are kept apart from each other, but
not from those that the class declares itself; so there are two declarations of one field where a
field directive has the name and the type of a glue field, and nowhere else. -/
namespace UnitLink

variable {σ τ S : Type}

def Assembly.declaredField? : Assembly → Option (String × String)
  | field _ signature _ => (Signature.parse .field signature).toOption.map fun parsed =>
    (parsed.name, parsed.descriptor)
  | glueField name owner => some (name, owner.descriptor)
  | _ => none

def Directive.ownField? (d : Directive) : Option (String × String) :=
  if d.kind = .field then
    (d.declared "sig").toOption.bind fun written =>
      (Signature.parse .field (splitInitialValue written).1).toOption.map fun parsed =>
        (parsed.name, parsed.descriptor)
  else none

/-- The fields that a directive for them declares. -/
def GlueFields.declared (g : GlueFields) : List (String × String) :=
  g.fields.map fun (owner, name) => (name, owner.descriptor)

def Directive.onLine? (text : String) : Option Directive := (Directive.parse text).toOption.join

def ownFields (texts : List String) : List (String × String) :=
  texts.filterMap fun text => (Directive.onLine? text).bind Directive.ownField?

/-- The line has a directive for the glue fields. -/
def asksForGlue (text : String) : Bool :=
  (Directive.onLine? text).any fun d => d.kind = .glueFields

namespace Resolution

/-- The fields that the output declares for the directive of a line. -/
def fieldsFor (c : ClassUnit) (glue : GlueFields) (table : LineTable Resolved) (number : Nat)
    (text : String) : List (String × String) :=
  ((Directive.onLine? text).bind fun d => (expansion c glue d (table.get? number)).toOption)
    |>.elim [] (List.filterMap Assembly.declaredField?)

/-- The fields that the output declares for all directives of a text, in order. -/
def declaredFields (c : ClassUnit) (glue : GlueFields) (table : LineTable Resolved)
    (texts : List String) : List (String × String) :=
  (texts.zipIdx 1).flatMap fun (text, number) => fieldsFor c glue table number text

variable {c : ClassUnit} {glue : GlueFields} {table : LineTable Resolved} {d : Directive}
  {out : List Assembly}

/-! ### The lines of one directive -/

/-- No line declares a field. -/
def NoField (out : List Assembly) : Prop := out.filterMap Assembly.declaredField? = []

theorem NoField.append {more : List Assembly} (h : NoField out) (hmore : NoField more) :
    NoField (out ++ more) := by
  unfold NoField at h hmore ⊢
  rw [List.filterMap_append, h, hmore, List.append_nil]

theorem noField_flatMap {α : Type} {lines : α → List Assembly} (h : ∀ x, NoField (lines x))
    (xs : List α) : NoField (xs.flatMap lines) := by
  induction xs with
  | nil => rfl
  | cons x xs ih => exact (h x).append ih

theorem noField_of_classHeader (h : classHeader d = .ok out) : NoField out := by
  unfold classHeader at h
  obtain ⟨header, -, h⟩ := exists_of_bind_eq_ok h
  obtain rfl := Except.ok.inj h
  refine List.filterMap_eq_nil_iff.2 fun line hline => ?_
  simp only [List.mem_cons, List.mem_append, List.mem_map] at hline
  rcases hline with rfl | ⟨_, -, rfl⟩ | ⟨_, -, rfl⟩ <;> rfl

theorem noField_of_methodLine (h : methodLine d = .ok out) : NoField out := by
  unfold methodLine at h
  obtain ⟨modifiers, -, h⟩ := exists_of_bind_eq_ok h
  obtain ⟨written, -, h⟩ := exists_of_bind_eq_ok h
  obtain rfl := Except.ok.inj h
  rfl

theorem LoadsReceiver.noField {kind : MemberKind} {reference : Reference kind}
    (h : LoadsReceiver c glue reference out) : NoField out := by
  cases h <;> rfl

theorem Begins.noField {reference : Reference .method} (h : Begins c glue d reference out) :
    NoField out := by
  cases h with
  | loaded hloads => exact hloads.noField
  | swapped hloads => exact hloads.noField.append rfl

theorem Ends.noField {reference : Reference .method} (h : Ends reference out) : NoField out := by
  cases h <;> rfl

theorem noField_of_fills {context holder : ClassName} {slot : Nat} {field : ClassName × String}
    (h : GlueFields.Fills context holder slot field out) : NoField out := by
  cases h <;> rfl

theorem noField_of_glueInit {r : Resolution} (h : r.glueInit d = .ok out) : NoField out := by
  unfold glueInit at h
  obtain ⟨slot, -, h⟩ := exists_of_bind_eq_ok h
  obtain rfl := Except.ok.inj h
  refine noField_flatMap (fun field => ?_) _
  exact noField_of_fills (fills_initField slot field.1 field.2)

theorem filterMap_singleton {α β : Type} (f : α → Option β) (x : α) :
    [x].filterMap f = (f x).toList := by
  cases hx : f x <;> simp [hx]

theorem fields_of_fieldLine (hkind : d.kind = .field) (h : fieldLine d = .ok out) :
    out.filterMap Assembly.declaredField? = d.ownField?.toList := by
  unfold fieldLine at h
  obtain ⟨written, hwritten, h⟩ := exists_of_bind_eq_ok h
  obtain ⟨modifiers, -, h⟩ := exists_of_bind_eq_ok h
  obtain rfl := Except.ok.inj h
  have hown : d.ownField? = (Assembly.field modifiers (splitInitialValue written).1
      (splitInitialValue written).2).declaredField? := by
    unfold Directive.ownField?
    rw [if_pos hkind, hwritten]
    rfl
  rw [hown]
  exact filterMap_singleton _ _

theorem fields_of_glueFields (r : Resolution) :
    r.glueFields.filterMap Assembly.declaredField? = r.glue.declared := by
  unfold glueFields GlueFields.declared
  rw [List.filterMap_map, ← List.filterMap_eq_map]
  rfl

theorem fields_of_expansion {resolved : Option Resolved}
    (h : expansion c glue d resolved = .ok out) :
    out.filterMap Assembly.declaredField? =
      d.ownField?.toList ++ if d.kind = .glueFields then glue.declared else [] := by
  have hnone : d.kind ≠ .field → d.kind ≠ .glueFields → NoField out →
      out.filterMap Assembly.declaredField? =
        d.ownField?.toList ++ if d.kind = .glueFields then glue.declared else [] := by
    intro hfield hglue hnone
    rw [Directive.ownField?, if_neg hfield, if_neg hglue]
    exact hnone
  unfold expansion expand at h
  split at h
  case h_1 hkind => exact hnone (by simp [hkind]) (by simp [hkind]) (noField_of_classHeader h)
  case h_2 hkind =>
    rw [fields_of_fieldLine hkind h, if_neg (by simp [hkind]), List.append_nil]
  case h_3 hkind => exact hnone (by simp [hkind]) (by simp [hkind]) (noField_of_methodLine h)
  case h_4 hkind =>
    exact hnone (by simp [hkind]) (by simp [hkind]) (Begins.of_invokeBegin h).noField
  case h_5 hkind => exact hnone (by simp [hkind]) (by simp [hkind]) (Ends.of_invokeEnd h).noField
  case h_6 hkind =>
    obtain ⟨receiver, hloads, rfl⟩ := exists_loadsReceiver_of_readField h
    exact hnone (by simp [hkind]) (by simp [hkind]) (hloads.noField.append rfl)
  case h_7 hkind =>
    obtain rfl := Except.ok.inj h
    exact hnone (by simp [hkind]) (by simp [hkind]) rfl
  case h_8 hkind =>
    obtain rfl := Except.ok.inj h
    rw [fields_of_glueFields, Directive.ownField?, if_neg (by simp [hkind]), if_pos hkind]
    rfl
  case h_9 hkind => exact hnone (by simp [hkind]) (by simp [hkind]) (noField_of_glueInit h)
  case h_10 => cases h

/-! ### All lines -/

theorem fieldsFor_of_lineOutput {number : Nat} {text part : String}
    (h : lineOutput c glue table number text = .ok part) :
    fieldsFor c glue table number text =
      ((Directive.onLine? text).bind Directive.ownField?).toList ++
        if asksForGlue text then glue.declared else [] := by
  obtain ⟨directive, hparsed⟩ := exists_parsed h
  have honLine : Directive.onLine? text = directive := by
    rw [Directive.onLine?, hparsed]
    rfl
  rw [fieldsFor, asksForGlue, honLine]
  cases directive with
  | none => rfl
  | some d =>
    obtain ⟨out, hout, -⟩ := exists_expansion hparsed h
    have hfields := fields_of_expansion hout
    simpa [hout, Except.toOption] using hfields

/-- What the directives of a text declare, with this list for each that asks for glue fields. -/
def fieldsWithGlue (texts : List String) (glue : List (String × String)) :
    List (String × String) :=
  ownFields texts ++ (List.replicate (texts.countP asksForGlue) glue).flatten

theorem fieldsWithGlue_cons (text : String) (texts : List String)
    (glue : List (String × String)) :
    ((((Directive.onLine? text).bind Directive.ownField?).toList ++
      if asksForGlue text then glue else []) ++ fieldsWithGlue texts glue).Perm
      (fieldsWithGlue (text :: texts) glue) := by
  have hown : ownFields (text :: texts) =
      ((Directive.onLine? text).bind Directive.ownField?).toList ++ ownFields texts := by
    unfold ownFields
    rw [← List.singleton_append, List.filterMap_append, filterMap_singleton]
  have hglue : (List.replicate ((text :: texts).countP asksForGlue) glue).flatten =
      (if asksForGlue text then glue else []) ++
        (List.replicate (texts.countP asksForGlue) glue).flatten := by
    rw [List.countP_cons]
    split
    · rw [List.replicate_succ, List.flatten_cons]
    · rfl
  rw [fieldsWithGlue, fieldsWithGlue, hown, hglue, List.append_assoc, List.append_assoc]
  exact (List.perm_append_comm_assoc _ _ _).append_left _

/-- The fields that an output declares are those of the field directives and, for each directive
that asks for them, the glue fields. -/
theorem declaredFields_perm {texts parts : List String}
    (h : lineOutputs c glue table texts = .ok parts) :
    (declaredFields c glue table texts).Perm (fieldsWithGlue texts glue.declared) := by
  replace h := forall₂_of_lineOutputs h
  unfold declaredFields
  generalize 1 = start at h ⊢
  induction texts generalizing start parts with
  | nil => exact .nil
  | cons text texts ih =>
    rw [List.zipIdx_cons] at h ⊢
    cases h with
    | cons hfirst hothers =>
      have hfields : fieldsFor c glue table start text = _ := fieldsFor_of_lineOutput hfirst
      rw [List.flatMap_cons]
      show (fieldsFor c glue table start text ++ _).Perm _
      rw [hfields]
      exact ((ih _ hothers).append_left _).trans (fieldsWithGlue_cons _ _ _)

end Resolution

namespace GlueFields

theorem WellNamed.nodup_declared {g : GlueFields} (h : g.WellNamed) : g.declared.Nodup := by
  have hnames : g.declared.map Prod.fst = g.names := by
    unfold declared names
    rw [List.map_map]
    rfl
  exact .of_map Prod.fst (hnames ▸ h.nodup)

theorem WellNamed.prefixed {g : GlueFields} (h : g.WellNamed) {field : String × String}
    (hfield : field ∈ g.declared) : ∃ rest, field.1 = "glue$" ++ rest := by
  obtain ⟨⟨owner, name⟩, hmem, rfl⟩ := List.mem_map.1 hfield
  obtain ⟨earlier, later, hsplit⟩ := List.append_of_mem hmem
  obtain ⟨n, rfl, -⟩ := h.numbered earlier owner name later hsplit
  exact ⟨_, String.append_assoc⟩

end GlueFields

/-- With one directive for the glue fields at most, fields are declared twice only where the class
declares them twice or declares one of the glue fields. -/
theorem nodup_fieldsWithGlue_iff {texts : List String} {glue : List (String × String)}
    (hone : texts.countP asksForGlue ≤ 1) (hglue : glue.Nodup) :
    (Resolution.fieldsWithGlue texts glue).Nodup ↔ (ownFields texts).Nodup ∧
      ((∃ text ∈ texts, asksForGlue text = true) → (ownFields texts).Disjoint glue) := by
  have hany : (∃ text ∈ texts, asksForGlue text = true) ↔ 0 < texts.countP asksForGlue :=
    List.countP_pos_iff.symm
  rw [hany]
  unfold Resolution.fieldsWithGlue
  rcases Nat.le_one_iff_eq_zero_or_eq_one.1 hone with hcount | hcount
  · simp [hcount]
  · simp [hcount, List.nodup_append', hglue]

namespace Source

variable [CommonStore σ τ] {s : Source σ} {c : ClassUnit} {r : Resolver} {context : ClassName}
  {answer : S → (op : SharedOp τ) → op.Answer × S} {state : S} {resolution : Resolution}

theorem wellNamed_of_resolve_ok
    (hresolved : ((s.resolve c r context).against answer state).1.1 = .ok resolution) :
    resolution.glue.WellNamed := by
  obtain ⟨lines, bs, hbinds⟩ := bindsTo_of_resolve_ok hresolved
  rw [hbinds.glue_of_resolve_ok hresolved, GlueFields.foldl_after]
  exact (GlueFields.wellNamed_start context).foldl_record _

/-- The fields that the output of a source declares are those of its field directives and, for each
directive that asks for them, the glue fields. If one directive at most does, no field is declared
twice unless the field directives declare one twice, or one of the glue fields. They do not declare
a glue field if none of their names begins as the names of those do. -/
theorem declared_fields_differ_from_generated
    (hresolved : ((s.resolve c r context).against answer state).1.1 = .ok resolution)
    {t after : Source σ} (hrewritten : t.rewrite resolution = (.ok (), after)) :
    ∃ created opened texts parts, t.startOutput = (.ok (), created) ∧
      created.startInput = (.ok (), opened) ∧ opened.unread = texts.map .ok ∧
      Resolution.lineOutputs c resolution.glue resolution.lines texts = .ok parts ∧
      after.written = (String.join parts).toUTF8 ∧
      let glue := resolution.glue.declared
      let fields := Resolution.declaredFields c resolution.glue resolution.lines texts
      fields.Perm (ownFields texts ++
        (List.replicate (texts.countP asksForGlue) glue).flatten) ∧
      (texts.countP asksForGlue ≤ 1 →
        (fields.Nodup ↔ (ownFields texts).Nodup ∧
          ((∃ text ∈ texts, asksForGlue text = true) → (ownFields texts).Disjoint glue)) ∧
        ((∀ field ∈ ownFields texts, ∀ rest, field.1 ≠ "glue$" ++ rest) →
          (ownFields texts).Nodup → fields.Nodup)) := by
  obtain ⟨created, opened, texts, parts, hcreated, hopened, hunread, hparts, hwritten⟩ :=
    written_of_rewrite (ordered_of_resolve_ok hresolved) hrewritten
  rw [declared_of_resolve_ok hresolved] at hparts
  have hnamed := wellNamed_of_resolve_ok hresolved
  have hperm := Resolution.declaredFields_perm hparts
  have hiff := fun hone =>
    hperm.nodup_iff.trans (nodup_fieldsWithGlue_iff hone hnamed.nodup_declared)
  refine ⟨created, opened, texts, parts, hcreated, hopened, hunread, hparts, hwritten, hperm,
    fun hone => ⟨hiff hone, fun hprefix hown => (hiff hone).2 ⟨hown, fun _ => ?_⟩⟩⟩
  intro field hfield hglue
  obtain ⟨rest, hrest⟩ := hnamed.prefixed hglue
  exact hprefix field hfield rest hrest

/-- A source in memory that declares a field and has two glue fields. -/
def counting : Source (Beside MemoryStore Unit) :=
  (inMemory "A.j" (";@class|name=A\n;@field|sig=count I = 5\n;@glue-fields\n" ++
    ";@invoke-begin|sig=m()V\n;@invoke-end|sig=m()V")).beside ()

def countingResolved : Except Stop Resolution :=
  ((counting.resolve dependentClass ⟨[dependentClass, dependencyClass], [], none, 2⟩
    (.ofString "Context")).against
    (fun (shared : Shared Unit) op => shared.access ClassLibrary.empty.loader op)
    ⟨.ofClasses [dependentClass, dependencyClass], ()⟩).1.1

theorem declared_fields_differ_from_generated_counting :
    let texts := textLines counting.store.own.input
    ∃ resolution after, countingResolved = .ok resolution ∧
      counting.rewrite resolution = (.ok (), after) ∧
      ownFields texts = [("count", "I")] ∧
      resolution.glue.declared = [("glue$context0", "LContext;"), ("glue$b1", "LB;")] ∧
      (Resolution.declaredFields dependentClass resolution.glue resolution.lines texts).Nodup := by
  intro texts
  have hevaluated : (countingResolved.toOption.map fun resolution =>
      (resolution.glue.declared, Resolution.lineOutputs resolution.declared resolution.glue
        resolution.lines texts)) =
      some ([("glue$context0", "LContext;"), ("glue$b1", "LB;")], .ok
        [".class A\n.super java/lang/Object\n", ".field count I = 5\n",
          ".field private glue$context0 LContext;\n.field private glue$b1 LB;\n",
          "aload_0\ngetfield A/glue$b1 LB;\n", "invokevirtual B/m()V\n"]) := by
    decide +kernel
  have hown : ownFields texts = [("count", "I")] := by decide +kernel
  have hone : texts.countP asksForGlue = 1 := by decide +kernel
  obtain ⟨resolution, hresolved, hvalues⟩ := exists_of_toOption_map hevaluated
  obtain ⟨hglue, hparts⟩ := Prod.mk.inj hvalues
  have hmemory := inMemory_beside "A.j" counting.store.own.input ()
  obtain ⟨after, hrewritten, -⟩ := hmemory.rewrite_of_parts (ordered_of_resolve_ok hresolved) hparts
  obtain ⟨created, opened, read, parts, hcreated, hopened, hunread, -, -, -, hdistinct⟩ :=
    declared_fields_differ_from_generated hresolved hrewritten
  obtain rfl := hmemory.texts_of_rewrite hcreated hopened hunread
  refine ⟨resolution, after, hresolved, hrewritten, hown, hglue,
    (hdistinct hone.le).2 (fun field hfield rest heq => ?_) (hown ▸ List.nodup_singleton _)⟩
  obtain rfl := List.mem_singleton.1 (hown ▸ hfield)
  have hchars := congrArg String.toList heq
  simp at hchars

end Source

/-- A job of one source that declares a field with the name and the type of a glue field. -/
def Job.declaringGlue : Job Unit MemoryStore where
  sources := [.inMemory "A.j"
    ";@class|name=A\n;@field|sig=glue$c0 LC;|flags=private\n;@glue-fields\n"]
  common := ()
  libraries := []
  unresolved := none
  context := .ofString "C"

/-- The output declares the field twice. -/
theorem Job.link_repeats_declaration :
    (declaringGlue.link [0] (.fixed ClassLibrary.empty.load 0)).result = .ok () ∧
      (declaringGlue.link [0] (.fixed ClassLibrary.empty.load 0)).outputs =
        [some (".class A\n.super java/lang/Object\n" ++
          ".field private glue$c0 LC;\n.field private glue$c0 LC;\n")] ∧
      (declaringGlue.sources.map fun s => ownFields (textLines s.store.input)) =
        [[("glue$c0", "LC;")]] ∧
      (declaringGlue.sources.map fun s => (textLines s.store.input).countP asksForGlue) = [1] := by
  have hmemory : declaringGlue.InMemory := by
    intro s hs
    obtain rfl := List.mem_singleton.1 hs
    exact ⟨_, _, rfl⟩
  have hcomposed : declaringGlue.composed (.fixed ClassLibrary.empty.load 0) =
      some [some (".class A\n.super java/lang/Object\n" ++
        ".field private glue$c0 LC;\n.field private glue$c0 LC;\n")] := by
    decide +kernel
  obtain ⟨hresult, houtputs⟩ := InMemory.link_of_composed [0] hmemory rfl hcomposed
  exact ⟨hresult.2 (by simp), houtputs, by decide +kernel, by decide +kernel⟩

end UnitLink
