import Mathlib.Data.List.Nodup
import UnitLink.Proofs.Instructions
/-! The dependencies of a source and the three uses of its glue fields. What a resolution records
is the context and then the owners of foreign references, each once. The rewriting declares,
fills and reads the fields of that one list, and has all of it from its first line on. -/
namespace UnitLink

variable {σ τ S : Type}

/-- The class whose instance the class has to be given for a reference: its owner, unless the
reference is local or to the class itself. -/
def Reference.dependency? {kind : MemberKind} (c : ClassUnit) (r : Reference kind) :
    Option ClassName :=
  if r.isLocal || r.owner == c.name then none else some r.owner

/-- Only the ends of invocations and the reads of fields depend on a class. -/
def Binding.dependency? (c : ClassUnit) : Binding → Option ClassName
  | .closing reference => reference.dependency? c
  | .fieldRead reference => reference.dependency? c
  | .opening | .classOf _ => none

/-- What the lines of a source depend on, as often as they do. -/
def dependencies (c : ClassUnit) (bs : List (Nat × Binding)) : List ClassName :=
  bs.filterMap fun x => x.2.dependency? c

namespace GlueFields

def owners (g : GlueFields) : List ClassName := g.fields.map Prod.fst

theorem isSome_find?_iff {g : GlueFields} {owner : ClassName} :
    (g.find? owner).isSome ↔ owner ∈ g.owners := by
  unfold find? owners
  induction g.fields with
  | nil => simp
  | cons field fields ih =>
    obtain ⟨first, name⟩ := field
    rw [List.lookup_cons]
    cases hfirst : owner == first with
    | true => simp [eq_of_beq hfirst]
    | false => simp [ne_of_beq_false hfirst, ih]

theorem mem_fields_of_find? {g : GlueFields} {owner : ClassName} {name : String}
    (h : g.find? owner = some name) : (owner, name) ∈ g.fields := by
  obtain ⟨before, after, hfields, -⟩ := List.lookup_eq_some_iff.1 h
  rw [hfields]
  exact List.mem_append_right _ List.mem_cons_self

/-! ### The record -/

theorem owners_record_of_mem {g : GlueFields} {owner : ClassName} (h : owner ∈ g.owners) :
    g.record owner = g :=
  record_of_isSome (isSome_find?_iff.2 h)

theorem owners_record_of_not_mem {g : GlueFields} {owner : ClassName} (h : owner ∉ g.owners) :
    (g.record owner).owners = g.owners ++ [owner] := by
  have hnone : g.find? owner = none := by
    rw [← isSome_find?_iff] at h
    simpa using h
  obtain ⟨name, hfields⟩ := fields_record_of_eq_none hnone
  simp [owners, hfields]

theorem nodup_owners_record {g : GlueFields} (h : g.owners.Nodup) (owner : ClassName) :
    (g.record owner).owners.Nodup := by
  by_cases hmem : owner ∈ g.owners
  · rw [owners_record_of_mem hmem]
    exact h
  · rw [owners_record_of_not_mem hmem, ← List.concat_eq_append]
    exact List.Nodup.concat hmem h

theorem after_eq (c : ClassUnit) (g : GlueFields) (binding : Binding) :
    g.after c binding = match binding.dependency? c with
      | none => g
      | some owner => g.record owner := by
  cases binding with
  | opening | classOf owner => rfl
  | closing reference | fieldRead reference =>
    simp only [after, recordFor, Binding.dependency?, Reference.dependency?]
    split <;> rfl

/-- What is recorded stays, and the other owners are added where they occur first. -/
theorem owners_foldl_record (g : GlueFields) (owners : List ClassName) :
    (owners.foldl record g).owners = g.owners ++ (owners.removeAll g.owners).eraseDups := by
  induction owners generalizing g with
  | nil => simp
  | cons owner owners ih =>
    rw [List.foldl_cons, ih]
    by_cases hmem : owner ∈ g.owners
    · rw [owners_record_of_mem hmem, List.cons_removeAll]
      simp [hmem]
    · have hlater : ∀ others : List ClassName, others.removeAll (g.owners ++ [owner]) =
          (others.removeAll g.owners).filter fun other => !other == owner := by
        intro others
        unfold List.removeAll
        rw [List.filter_filter]
        congr
        funext other
        rw [Bool.and_comm]
        simp [Bool.beq_eq_decide_eq]
      rw [owners_record_of_not_mem hmem, List.cons_removeAll, hlater]
      simp [hmem, List.eraseDups_cons]

theorem foldl_after (c : ClassUnit) (g : GlueFields) (bs : List (Nat × Binding)) :
    (bs.map Prod.snd).foldl (after c) g = (dependencies c bs).foldl record g := by
  induction bs generalizing g with
  | nil => rfl
  | cons first bs ih =>
    rw [List.map_cons, List.foldl_cons, ih, after_eq, dependencies, dependencies,
      List.filterMap_cons]
    cases first.2.dependency? c with
    | none => rfl
    | some owner => rfl

theorem owners_foldl (c : ClassUnit) (g : GlueFields) (bs : List (Nat × Binding)) :
    ((bs.map Prod.snd).foldl (after c) g).owners =
      g.owners ++ ((dependencies c bs).removeAll g.owners).eraseDups := by
  rw [foldl_after, owners_foldl_record]

theorem nodup_owners_foldl (c : ClassUnit) {g : GlueFields} (h : g.owners.Nodup)
    (bs : List Binding) : (bs.foldl (after c) g).owners.Nodup := by
  induction bs generalizing g with
  | nil => exact h
  | cons binding bs ih =>
    apply ih
    rw [after_eq]
    split
    · exact h
    · exact nodup_owners_record h _

theorem context_foldl (c : ClassUnit) (g : GlueFields) (bs : List Binding) :
    (bs.foldl (after c) g).context = g.context := by
  induction bs generalizing g with
  | nil => rfl
  | cons binding bs ih =>
    rw [List.foldl_cons, ih, after_eq]
    split
    · rfl
    · exact context_record _ _

theorem owners_start (context : ClassName) : (start context).owners = [context] :=
  owners_record_of_not_mem (g := ⟨context, [], []⟩) List.not_mem_nil

/-! ### The uses -/

/-- All reads of glue fields are of the holder's own and of recorded ones. -/
def ReadsOnly (g : GlueFields) (holder : ClassName) (out : List Assembly) : Prop :=
  ∀ named name owner, .getGlue named name owner ∈ out → named = holder ∧ (owner, name) ∈ g.fields

theorem ReadsOnly.append {g : GlueFields} {holder : ClassName} {out more : List Assembly}
    (h : g.ReadsOnly holder out) (h' : g.ReadsOnly holder more) :
    g.ReadsOnly holder (out ++ more) := by
  intro named name owner hread
  rcases List.mem_append.1 hread with hread | hread
  · exact h named name owner hread
  · exact h' named name owner hread

/-- The assembly that fills the field of an owner from the context, which is in a local
variable. The context is stored itself; any other instance is asked of it. -/
inductive Fills (context holder : ClassName) (slot : Nat) :
    ClassName × String → List Assembly → Prop
  | context (name : String) : Fills context holder slot (context, name)
      [.loadSelf, .loadArgument slot, .putGlue holder name context]
  | other (owner : ClassName) (name : String) : owner ≠ context →
      Fills context holder slot (owner, name)
        [.loadSelf, .loadArgument slot, .loadName owner, .getModule context, .checkCast owner,
          .putGlue holder name owner]

/-- What a directive stands for agrees with the recorded fields: it reads none but these, and
it declares or fills all of them, in order, if that is what the directive is for. -/
structure UsedBy (g : GlueFields) (holder : ClassName) (d : Directive) (out : List Assembly) :
    Prop where
  reads : g.ReadsOnly holder out
  declares : d.kind = .glueFields →
    out = g.fields.map fun (owner, name) => .glueField name owner
  fills : d.kind = .glueInit → ∃ slot parts, d.number "context" 1 = .ok slot ∧
    List.Forall₂ (Fills g.context holder slot) g.fields parts ∧ out = parts.flatten

end GlueFields

namespace Resolution

open GlueFields (ReadsOnly Fills)

variable {r : Resolution} {d : Directive} {out : List Assembly}

theorem LoadsReceiver.readsOnly {c : ClassUnit} {glue : GlueFields} {kind : MemberKind}
    {reference : Reference kind} (h : LoadsReceiver c glue reference out) :
    glue.ReadsOnly c.name out := by
  cases h with
  | static | self => simp [ReadsOnly]
  | glued _ _ _ hname =>
    intro named name owner hread
    simp only [List.mem_cons, reduceCtorEq, false_or, Assembly.getGlue.injEq, List.not_mem_nil,
      or_false] at hread
    obtain ⟨rfl, rfl, rfl⟩ := hread
    exact ⟨rfl, GlueFields.mem_fields_of_find? hname⟩

theorem readsOnly_of_expand {resolved : Option Resolved} (h : r.expand d resolved = .ok out) :
    r.glue.ReadsOnly r.declared.name out := by
  rw [expand_eq] at h
  cases Expands.of_expansion h with
  | begins _ hbegins =>
    cases hbegins with
    | loaded hloads => exact hloads.readsOnly
    | swapped hloads => exact hloads.readsOnly.append (by simp [ReadsOnly])
  | ends _ hends => cases hends <;> simp [ReadsOnly]
  | reads _ hloads => exact hloads.readsOnly.append (by simp [ReadsOnly])
  | other _ hnone =>
    intro named name owner hread
    cases hnone _ hread

theorem fills_initField (slot : Nat) (owner : ClassName) (name : String) :
    Fills r.glue.context r.declared.name slot (owner, name) (r.initField slot owner name) := by
  unfold initField
  split
  · rename_i hcontext
    rw [hcontext]
    exact .context name
  · rename_i hother
    exact .other owner name hother

theorem fills_of_glueInit (h : r.glueInit d = .ok out) :
    ∃ slot parts, d.number "context" 1 = .ok slot ∧
      List.Forall₂ (Fills r.glue.context r.declared.name slot) r.glue.fields parts ∧
      out = parts.flatten := by
  unfold glueInit at h
  obtain ⟨slot, hslot, h⟩ := exists_of_bind_eq_ok h
  obtain rfl := Except.ok.inj h
  refine ⟨slot, r.glue.fields.map fun (owner, name) => r.initField slot owner name, ?_, ?_, rfl⟩
  · cases hnumber : d.number "context" 1 with
    | error fault =>
      rw [hnumber] at hslot
      cases hslot
    | ok number =>
      rw [hnumber] at hslot
      rw [Except.ok.inj hslot]
  · rw [List.forall₂_map_right_iff]
    exact List.forall₂_same.2 fun field _ => fills_initField slot field.1 field.2

theorem usedBy_of_expand {resolved : Option Resolved} (h : r.expand d resolved = .ok out) :
    r.glue.UsedBy r.declared.name d out where
  reads := readsOnly_of_expand h
  declares hkind := by
    simp only [expand, hkind] at h
    exact (Except.ok.inj h).symm
  fills hkind := by
    simp only [expand, hkind] at h
    exact fills_of_glueInit h

end Resolution

namespace Source

variable [CommonStore σ τ] {s : Source σ} {c : ClassUnit} {r : Resolver} {context : ClassName}
  {answer : S → (op : SharedOp τ) → op.Answer × S} {state : S} {resolution : Resolution}

/-- What a resolution has recorded is what its bindings depend on. -/
theorem BindsTo.glue_of_resolve_ok {lines : List Line} {bs : List (Nat × Binding)}
    (h : s.BindsTo c r answer state lines bs)
    (hok : ((s.resolve c r context).against answer state).1.1 = .ok resolution) :
    resolution.glue = (bs.map Prod.snd).foldl (GlueFields.after c) (.start context) := by
  obtain ⟨b, hb, hentered⟩ := h.resolve_of_nested context (h.exists_nested hok).1
  rw [hok] at hb
  obtain rfl := Except.ok.inj hb
  exact hentered.glue_eq

/-- The glue fields of a resolved source are those of the context and of all that the source
depends on, each once and where it occurs first. Whatever is then rewritten with the resolution
has every directive agree with these fields, on whichever line it stands. -/
theorem glue_is_exact_and_closed
    (hresolved : ((s.resolve c r context).against answer state).1.1 = .ok resolution) :
    (∃ lines bs, s.BindsTo c r answer state lines bs ∧
      resolution.glue.owners = context ::
        ((dependencies c bs).filter fun owner => owner ≠ context).eraseDups) ∧
    resolution.glue.owners.Nodup ∧ resolution.glue.context = context ∧
    ∀ t after : Source σ, t.rewrite resolution = (.ok (), after) →
      ∃ created opened texts parts, t.startOutput = (.ok (), created) ∧
        created.startInput = (.ok (), opened) ∧ opened.unread = texts.map .ok ∧
        Resolution.lineOutputs c resolution.glue resolution.lines texts = .ok parts ∧
        after.written = (String.join parts).toUTF8 ∧
        ∀ i text d, texts[i]? = some text → Directive.parse text = .ok (some d) →
          ∃ out, Resolution.expansion c resolution.glue d (resolution.lines.get? (i + 1)) =
              .ok out ∧
            parts[i]? =
              some (String.join (out.map fun line => d.indent ++ line.text ++ lineSeparator)) ∧
            resolution.glue.UsedBy c.name d out := by
  obtain ⟨lines, bs, hbinds⟩ := bindsTo_of_resolve_ok hresolved
  have hglue := hbinds.glue_of_resolve_ok hresolved
  have hstart := GlueFields.owners_start context
  refine ⟨⟨lines, bs, hbinds, ?_⟩, ?_, ?_, fun t after hrewritten => ?_⟩
  · rw [hglue, GlueFields.owners_foldl, hstart]
    simp [List.removeAll]
  · rw [hglue]
    exact GlueFields.nodup_owners_foldl c (by rw [hstart]; exact List.nodup_singleton _) _
  · rw [hglue, GlueFields.context_foldl]
    exact GlueFields.context_record _ _
  · obtain ⟨created, opened, texts, parts, hcreated, hopened, hunread, hparts, hwritten⟩ :=
      written_of_rewrite (hbinds.exists_nested hresolved).2 hrewritten
    obtain rfl := declared_of_resolve_ok hresolved
    refine ⟨created, opened, texts, parts, hcreated, hopened, hunread, hparts, hwritten, ?_⟩
    intro i text d htext hparsed
    obtain ⟨part, hpart, hline⟩ := Resolution.exists_lineOutput hparts htext
    obtain ⟨out, hout, rfl⟩ := Resolution.exists_expansion hparsed hline
    have hexpand := (resolution.expand_eq d _).trans hout
    exact ⟨out, hout, hpart, Resolution.usedBy_of_expand hexpand⟩

/-- A source in memory that declares and fills its glue fields before there is anything that
needs them. -/
def dependent : Source (Beside MemoryStore Unit) :=
  (inMemory "A.j" (";@class|name=A\n;@glue-fields\n  ;@glue-init|context=2\n" ++
    ";@invoke-begin|sig=m()V\n;@invoke-end|sig=m()V\n;@read-field|sig=x I")).beside ()

def dependentClass : ClassUnit where
  name := .ofString "A"
  modifiers := .empty
  superclass := some (.ofString "java/lang/Object")
  interfaces := []
  methods := []
  fields := []

def dependencyClass : ClassUnit where
  name := .ofString "B"
  modifiers := .single .isPublic
  superclass := none
  interfaces := []
  methods := [⟨.ofString "B", "m", "()V", .single .isPublic⟩]
  fields := [⟨.ofString "B", "x", "I", .single .isPublic⟩]

/-- Resolves the source with nobody else at the caches. -/
def dependentResolved : Except Stop Resolution :=
  ((dependent.resolve dependentClass ⟨[dependentClass, dependencyClass], [], none, 2⟩
    (.ofString "Context")).against
    (fun (shared : Shared Unit) op => shared.access ClassLibrary.empty.loader op)
    ⟨.ofClasses [dependentClass, dependencyClass], ()⟩).1.1

theorem glue_is_exact_and_closed_dependent :
    ∃ resolution after, dependentResolved = .ok resolution ∧
      dependent.rewrite resolution = (.ok (), after) ∧
      resolution.glue.fields =
        [(.ofString "Context", "glue$context0"), (.ofString "B", "glue$b1")] ∧
      (∃ lines bs, dependent.BindsTo dependentClass
          ⟨[dependentClass, dependencyClass], [], none, 2⟩
          (fun (shared : Shared Unit) op => shared.access ClassLibrary.empty.loader op)
          ⟨.ofClasses [dependentClass, dependencyClass], ()⟩ lines bs ∧
        resolution.glue.owners = .ofString "Context" :: ((dependencies dependentClass bs).filter
          fun owner => owner ≠ .ofString "Context").eraseDups) ∧
      ∃ created opened, ∃ texts : List String, dependent.startOutput = (.ok (), created) ∧
        created.startInput = (.ok (), opened) ∧ opened.unread = texts.map .ok ∧
        ∀ (i : Nat) text d, texts[i]? = some text → Directive.parse text = .ok (some d) →
          ∃ out, resolution.glue.UsedBy dependentClass.name d out := by
  have hevaluated : (dependentResolved.toOption.map fun resolution =>
      (resolution.glue.fields, Resolution.lineOutputs resolution.declared resolution.glue
        resolution.lines (textLines dependent.store.own.input))) =
      some ([(.ofString "Context", "glue$context0"), (.ofString "B", "glue$b1")], .ok
        [".class A\n.super java/lang/Object\n",
          ".field private glue$context0 LContext;\n.field private glue$b1 LB;\n",
          "  aload_0\n  aload 2\n  putfield A/glue$context0 LContext;\n" ++
            "  aload_0\n  aload 2\n  ldc \"B\"\n" ++
            "  invokevirtual Context/getModule(Ljava/lang/String;)Ljava/lang/Object;\n" ++
            "  checkcast B\n  putfield A/glue$b1 LB;\n",
          "aload_0\ngetfield A/glue$b1 LB;\n", "invokevirtual B/m()V\n",
          "aload_0\ngetfield A/glue$b1 LB;\ngetfield B/x I\n"]) := by
    decide +kernel
  obtain ⟨resolution, hresolved, hvalues⟩ := exists_of_toOption_map hevaluated
  obtain ⟨hfields, hparts⟩ := Prod.mk.inj hvalues
  obtain ⟨lines, bs, hbinds⟩ := bindsTo_of_resolve_ok hresolved
  obtain ⟨after, hrewritten, -⟩ := (inMemory_beside _ _ ()).rewrite_of_parts
    (hbinds.exists_nested hresolved).2 hparts
  obtain ⟨hexact, -, -, hclosed⟩ := glue_is_exact_and_closed hresolved
  obtain ⟨created, opened, texts, parts, hcreated, hopened, hunread, -, -, hused⟩ :=
    hclosed dependent after hrewritten
  refine ⟨resolution, after, hresolved, hrewritten, hfields, hexact, created, opened, texts,
    hcreated, hopened, hunread, fun i text d htext hparsed => ?_⟩
  obtain ⟨out, -, -, hout⟩ := hused i text d htext hparsed
  exact ⟨out, hout⟩

end Source
end UnitLink
