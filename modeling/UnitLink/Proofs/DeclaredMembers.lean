import UnitLink.Proofs.SelectedLines
/-! Discovery and rewriting read the same declarations. What discovery records of a declaration is
its member, without the owner that may be written before it; what rewriting puts in its place has
the signature as it is written. So the declarations in an output are those of the members, in their
order, each with the modifiers of its member and with a signature that is read as its member, but an
owner that was written stays in it. -/
namespace UnitLink

variable {σ τ S : Type}

/-! ### Declarations -/

namespace MemberKind

def keyword : MemberKind → String
  | method => ".method"
  | field => ".field"

/-- The signature and the initial value of a declaration; a method has no such value. -/
def splitWritten : MemberKind → String → String × Option String
  | method, written => (written, none)
  | field, written => splitInitialValue written

end MemberKind

def initialValue (value : Option String) : String := (value.map (" = " ++ ·)).getD ""

variable {kind : MemberKind}

/-- What is read of a declaration in a class, and the member that is recorded for it. -/
structure Reads (owner : ClassName) (m : Member kind) (d : Directive) (written : String)
    (parsed : Signature) : Prop where
  written_eq : d.declared "sig" = .ok written
  parsed_eq : Signature.parse kind (kind.splitWritten written).1 = .ok parsed
  modifiers_eq : d.modifiers = .ok m.modifiers
  name_eq : m.name = parsed.name
  descriptor_eq : m.descriptor = parsed.descriptor
  owner_eq : m.owner = owner
  /-- An owner that is written is that of the member. -/
  names_owner : ∀ text, parsed.owner = some text → ClassName.ofString text = owner

/-- A declaration of the member: its keyword, the modifiers of the member, the signature as it is
written, and the initial value. The signature is that of the member, and if it has an owner, that
is the member's. -/
def Prints (owner : ClassName) (m : Member kind) (x : Directive × String) : Prop :=
  ∃ written parsed, Reads owner m x.1 written parsed ∧
    x.2 = x.1.indent ++ Assembly.joinWords [kind.keyword, m.modifiers.keywords,
      (kind.splitWritten written).1] ++ initialValue (kind.splitWritten written).2 ++ lineSeparator

/-- The directive of a line, if it declares a member of the kind. -/
def Line.declaring? (kind : MemberKind) (line : Line) : Option Directive :=
  line.directive.filter fun d => d.kind = kind.directive

/-- The declarations of a kind among lines, each with the part of its line. -/
def declarations (kind : MemberKind) (lines : List Line) (parts : List String) :
    List (Directive × String) :=
  (lines.zip parts).filterMap fun (line, part) => (line.declaring? kind).map fun d => (d, part)

theorem declarations_cons (line : Line) (part : String) (lines : List Line)
    (parts : List String) :
    declarations kind (line :: lines) (part :: parts) =
      ((line.declaring? kind).map fun d => (d, part)).toList ++ declarations kind lines parts := by
  unfold declarations
  rw [List.zip_cons_cons]
  cases hd : line.declaring? kind with
  | none => rw [List.filterMap_cons_none (by simp [hd])]; rfl
  | some d => rw [List.filterMap_cons_some (b := (d, part)) (by simp [hd])]; rfl

/-! ### Discovery -/

namespace Declarations

variable {declarations after : Declarations} {d : Directive}

theorem header_of_owner {owner : ClassName} (h : declarations.owner = .ok owner) :
    ∃ header, declarations.header = some header ∧ header.name = owner := by
  unfold Declarations.owner at h
  split at h
  · exact ⟨_, ‹_›, Except.ok.inj h⟩
  · cases h

theorem member_eq (declarations : Declarations) (kind : MemberKind) (d : Directive) :
    declarations.member kind d = (do
      let owner ← declarations.owner
      let written ← d.declared "sig"
      let modifiers ← d.modifiers
      (Member.parse owner (kind.splitWritten written).1 modifiers).mapError fun fault =>
        .declaration (.badMember fault)) := by
  cases kind <;> rfl

theorem reads_of_member {m : Member kind} (h : declarations.member kind d = .ok m) :
    ∃ header written parsed, declarations.header = some header ∧
      Reads header.name m d written parsed := by
  rw [member_eq] at h
  obtain ⟨owner, howner, h⟩ := exists_of_bind_eq_ok h
  obtain ⟨written, hwritten, h⟩ := exists_of_bind_eq_ok h
  obtain ⟨modifiers, hmodifiers, h⟩ := exists_of_bind_eq_ok h
  obtain ⟨header, hheader, rfl⟩ := header_of_owner howner
  obtain ⟨parsed, hparsed, hnames, rfl⟩ := Member.parse_eq_ok (mapError_eq_ok_iff.1 h)
  exact ⟨header, written, parsed, hheader,
    ⟨hwritten, hparsed, hmodifiers, rfl, rfl, rfl, hnames⟩⟩

/-- The members of a kind are what was read of the declarations among the lines, in order. -/
def ReadFrom (declarations : Declarations) (kind : MemberKind) (lines : List Line) : Prop :=
  List.Forall₂ (fun m d => ∃ header written parsed, declarations.header = some header ∧
    Reads header.name m d written parsed) (declarations.members kind)
    (lines.filterMap (Line.declaring? kind))

theorem ReadFrom.snoc_of_ne {lines : List Line} (h : declarations.ReadFrom kind lines)
    {line : Line} (hline : line.declaring? kind = none)
    (hheader : declarations.header = none ∨ after.header = declarations.header)
    (hmembers : after.members kind = declarations.members kind) :
    after.ReadFrom kind (lines ++ [line]) := by
  unfold ReadFrom
  rw [hmembers, List.filterMap_append, List.filterMap_cons_none hline, List.filterMap_nil,
    List.append_nil]
  refine h.imp fun m d => ?_
  rintro ⟨header, written, parsed, hfound, hreads⟩
  obtain hnone | hsame := hheader
  · rw [hnone] at hfound
    cases hfound
  · exact ⟨header, written, parsed, hsame.trans hfound, hreads⟩

theorem ReadFrom.add {lines : List Line} (h : ∀ kind, declarations.ReadFrom kind lines)
    {line : Line} (hline : line.directive = some d) (hadd : declarations.add d = .ok after)
    (kind : MemberKind) : after.ReadFrom kind (lines ++ [line]) := by
  have hdeclaring : line.declaring? kind = if d.kind = kind.directive then some d else none := by
    simp [Line.declaring?, hline, Option.filter]
  obtain ⟨hkind, hnone, header, -, rfl⟩ | ⟨other, m, hkind, hm, rfl⟩ | ⟨-, hkind, rfl⟩ :=
    add_cases hadd
  · refine (h kind).snoc_of_ne ?_ (.inl hnone) (by cases kind <;> rfl)
    rw [hdeclaring, hkind]
    cases kind <;> rfl
  · by_cases hsame : other = kind
    · subst hsame
      obtain ⟨header, written, parsed, hheader, hreads⟩ := reads_of_member hm
      unfold ReadFrom
      rw [members_push, List.filterMap_append, List.filterMap_cons_some (b := d)
        (by rw [hdeclaring, if_pos hkind]), List.filterMap_nil, header_push]
      exact List.rel_append (h other) (.cons ⟨header, written, parsed, hheader, hreads⟩ .nil)
    · refine (h kind).snoc_of_ne ?_ (.inr (header_push _ m)) (members_push_of_ne _ m hsame)
      rw [hdeclaring, hkind]
      cases kind <;> cases other <;> first | rfl | exact absurd rfl hsame
  · refine (h kind).snoc_of_ne ?_ (.inr rfl) rfl
    rw [hdeclaring, if_neg (hkind kind)]

theorem members_of_classUnit {source : String} {c : ClassUnit}
    (h : declarations.classUnit source = .ok c) :
    ∃ header, declarations.header = some header ∧ c.name = header.name ∧
      ∀ kind, c.members kind = declarations.members kind := by
  obtain ⟨header, hheader, rfl⟩ := classUnit_eq_ok h
  exact ⟨header, hheader, rfl, fun kind => by cases kind <;> rfl⟩

end Declarations

/-- The members of a class that is discovered are what was read of the declarations, in their
order. -/
theorem Source.reads_of_discover {s opened found : Source σ} {c : ClassUnit}
    (hopened : s.startInput = (.ok (), opened)) (h : s.discover = (.ok c, found)) :
    ∃ lines, readLines s.name 1 opened.unread = .ok lines ∧ ∀ kind,
      List.Forall₂ (fun m d => ∃ written parsed, Reads c.name m d written parsed)
        (c.members kind) (lines.filterMap (Line.declaring? kind)) := by
  obtain ⟨lines, declarations, hread, hclass, hmembers⟩ := declarations_of_discover
    (fun seen declarations => ∀ kind, declarations.ReadFrom kind seen) hopened h
    (fun kind => by cases kind <;> exact .nil)
    (fun _ _ _ hd hseen kind =>
      (hseen kind).snoc_of_ne (by simp [Line.declaring?, hd]) (.inr rfl) rfl)
    (fun _ _ _ _ _ _ _ _ hd hadd hseen => Declarations.ReadFrom.add hseen hd hadd)
  obtain ⟨header, hheader, hname, hsame⟩ := Declarations.members_of_classUnit hclass
  refine ⟨lines, hread, fun kind => ?_⟩
  have hreads := hmembers kind
  unfold Declarations.ReadFrom at hreads
  rw [hheader, ← hsame kind] at hreads
  rw [hname]
  refine hreads.imp fun m d => ?_
  rintro ⟨header', written, parsed, hsame, hreads⟩
  obtain rfl := Option.some.inj hsame
  exact ⟨written, parsed, hreads⟩

/-! ### Rewriting -/

theorem Assembly.text_field (modifiers : Modifiers) (signature : String)
    (value : Option String) :
    (Assembly.field modifiers signature value).text =
      joinWords [".field", modifiers.keywords, signature] ++ initialValue value := by
  cases value with
  | none => exact (String.append_empty).symm
  | some value => exact String.append_assoc

theorem Reads.exists_line {owner : ClassName} {m : Member kind} {d : Directive} {written : String}
    {parsed : Signature} (h : Reads owner m d written parsed) (hkind : d.kind = kind.directive)
    {c : ClassUnit} {glue : GlueFields} {resolved : Option Resolved} {out : List Assembly}
    (hout : Resolution.expansion c glue d resolved = .ok out) :
    ∃ line, out = [line] ∧ line.text = Assembly.joinWords [kind.keyword, m.modifiers.keywords,
      (kind.splitWritten written).1] ++ initialValue (kind.splitWritten written).2 := by
  unfold Resolution.expansion Resolution.expand at hout
  rw [hkind] at hout
  cases kind with
  | method =>
    have hline : Resolution.methodLine d = .ok [.method m.modifiers written] := by
      unfold Resolution.methodLine
      rw [h.modifiers_eq, h.written_eq]
      rfl
    exact ⟨_, Except.ok.inj (hout.symm.trans hline), String.append_empty.symm⟩
  | field =>
    have hline : Resolution.fieldLine d =
        .ok [.field m.modifiers (splitInitialValue written).1 (splitInitialValue written).2] := by
      unfold Resolution.fieldLine
      rw [h.modifiers_eq, h.written_eq]
      rfl
    exact ⟨_, Except.ok.inj (hout.symm.trans hline), Assembly.text_field _ _ _⟩

theorem Reads.prints {owner : ClassName} {m : Member kind} {d : Directive} {written : String}
    {parsed : Signature} (h : Reads owner m d written parsed) (hkind : d.kind = kind.directive)
    {c : ClassUnit} {glue : GlueFields} {resolved : Option Resolved} {out : List Assembly}
    (hout : Resolution.expansion c glue d resolved = .ok out) :
    Prints owner m
      (d, String.join (out.map fun line => d.indent ++ line.text ++ lineSeparator)) := by
  obtain ⟨line, rfl, htext⟩ := h.exists_line hkind hout
  refine ⟨written, parsed, h, ?_⟩
  simp only [List.map_cons, List.map_nil, String.join_cons, String.join_nil, String.append_empty,
    htext, String.append_assoc]

/-- Where all lines have their parts, the parts of the declarations are those of the members. -/
theorem forall₂_prints {owner : ClassName} {c : ClassUnit} {glue : GlueFields}
    {table : LineTable Resolved} {lines : List Line} {parts : List String}
    (hparsed : ∀ line ∈ lines, Directive.parse line.text = .ok line.directive)
    (hparts : List.Forall₂ (fun line part =>
      Resolution.lineOutput c glue table line.number line.text = .ok part) lines parts)
    {members : List (Member kind)}
    (hmembers : List.Forall₂ (fun m d => ∃ written parsed, Reads owner m d written parsed) members
      (lines.filterMap (Line.declaring? kind))) :
    List.Forall₂ (Prints owner) members (declarations kind lines parts) := by
  induction hparts generalizing members with
  | nil => exact List.forall₂_nil_right_iff.2 (List.forall₂_nil_right_iff.1 hmembers)
  | @cons line part lines parts hpart _ ih =>
    obtain ⟨hline, hparsed⟩ := List.forall_mem_cons.1 hparsed
    rw [declarations_cons]
    cases hd : line.declaring? kind with
    | none =>
      rw [List.filterMap_cons_none hd] at hmembers
      exact ih hparsed hmembers
    | some d =>
      obtain ⟨hdirective, hkind⟩ := Option.filter_eq_some_iff.1 hd
      rw [hdirective] at hline
      obtain ⟨out, hout, rfl⟩ := Resolution.exists_expansion hline hpart
      rw [List.filterMap_cons_some hd] at hmembers
      cases hmembers with
      | cons hreads hmembers =>
        obtain ⟨written, parsed, hreads⟩ := hreads
        exact .cons (hreads.prints (of_decide_eq_true hkind) hout) (ih hparsed hmembers)

namespace Source

section

variable [CommonStore σ τ] {s found resolved after : Source σ} {c : ClassUnit} {r : Resolver}
  {context : ClassName} {answer : S → (op : SharedOp τ) → op.Answer × S} {state : S}
  {resolution : Resolution} {stream : Stream} {same : σ → Prop}

theorem KeepsInput.after_startInput (h : s.KeepsInput stream same) :
    s.startInput.2.KeepsInput stream same := by
  obtain ⟨hstream, hsame⟩ := h.opens s.store h.holds
  unfold Source.startInput
  split
  · exact h
  split
  · exact h
  generalize s.backend.openInput s.store = opening at hstream hsame
  obtain ⟨outcome, store⟩ := opening
  obtain rfl : outcome = .ok stream := hstream
  exact ⟨hsame, h.keeps_common, h.opens, h.creates⟩

theorem KeepsInput.resolve (h : s.KeepsInput stream same) (c : ClassUnit) (r : Resolver)
    (context : ClassName) :
    (s.resolve c r context).Meets Protocol.any fun result => result.2.KeepsInput stream same :=
  @resolve_keeps σ τ _ (fun kept => kept.KeepsInput stream same) s
    (fun common => (h.withCommon common).after_startInput.releaseInput)
    (fun common _ _ => (h.withCommon common).after_startInput) c r context

/-- What is written for the declarations of a source are the members that were discovered. The
source is steady, it was discovered to declare the class, and it was rewritten with what it
resolved to; other tasks have used the caches and the common store meanwhile. Then the parts of
the method directives and of the field directives are, one by one and in their order, declarations
of the methods and the fields of the class. -/
theorem rewrite_declares_members (hsteady : s.Steady) (hfound : s.discover = (.ok c, found))
    (hresolved : ((found.resolve c r context).against answer state).1 = (.ok resolution, resolved))
    (common : τ)
    (hrewritten : { resolved with
      store := CommonStore.withCommon common resolved.store }.rewrite resolution =
        (.ok (), after)) :
    ∃ opened lines parts, s.startInput = (.ok (), opened) ∧
      readLines s.name 1 opened.unread = .ok lines ∧
      Resolution.lineOutputs c resolution.glue resolution.lines (lines.map Line.text) =
        .ok parts ∧
      after.written = (String.join parts).toUTF8 ∧
      ∀ kind, List.Forall₂ (Prints c.name) (c.members kind) (declarations kind lines parts) := by
  obtain ⟨stream, same, hkeeps⟩ := hsteady
  obtain ⟨opened, hopened⟩ := opens_of_discover_ok hfound
  obtain ⟨lines, hlines, hmembers⟩ := reads_of_discover hopened hfound
  obtain ⟨hkept, hunread⟩ := hkeeps.startInput hopened
  rw [discover_eq hopened] at hfound
  obtain ⟨-, rfl⟩ := Prod.mk.inj hfound
  have hresolvedKept := (hkept.releaseInput.resolve c r context).against answer state
  rw [hresolved] at hresolvedKept
  obtain ⟨created, opened', texts, parts, hcreated, hopened', hunread', hparts, hwritten⟩ :=
    written_of_rewrite (ordered_of_resolve_ok (congrArg Prod.fst hresolved)) hrewritten
  rw [declared_of_resolve_ok (congrArg Prod.fst hresolved)] at hparts
  -- the rewriting reads the stream once more, so its texts are those of the lines
  have hagain := (((hresolvedKept.withCommon common).startOutput hcreated).startInput hopened').2
  obtain ⟨htexts, hnumbered⟩ := texts_of_readLines hlines
  obtain rfl : lines.map Line.text = texts :=
    List.map_injective_iff.2 (fun _ _ => Except.ok.inj)
      (htexts.symm.trans (hunread.trans (hagain.symm.trans hunread')))
  refine ⟨opened, lines, parts, hopened, hlines, hparts, hwritten, fun kind => ?_⟩
  have hpaired := Resolution.forall₂_of_lineOutputs hparts
  rw [hnumbered, List.forall₂_map_left_iff] at hpaired
  exact forall₂_prints (fun line hline => (parsed_of_readLines hlines hline).2) hpaired
    (hmembers kind)

end

/-- A source that names the owner of its members, the one way and the other. -/
def namingOwner : Source MemoryStore :=
  inMemory "A.j" (";@class|name=A\n  ;@field|sig=A/x I = 5 |flags=final public\n" ++
    ";@method|sig=m()V\nreturn\n;@method|sig=A.n()V|flags=public\n")

def namingOwnerClass : ClassUnit where
  name := .ofString "A"
  modifiers := .empty
  superclass := some (.ofString "java/lang/Object")
  interfaces := []
  methods := [⟨.ofString "A", "m", "()V", .empty⟩, ⟨.ofString "A", "n", "()V", .single .isPublic⟩]
  fields := [⟨.ofString "A", "x", "I",
    (Modifiers.single .isPublic).union (.single .isFinal)⟩]

theorem rewrites_of_linkAlone {s : Source MemoryStore} {c : ClassUnit} {r : Resolver}
    {context : ClassName} {loader : Loader Unit} {output : String}
    (h : s.linkAlone c r context loader = .ok output) :
    ∃ resolution resolved after,
      ((s.resolve c r context).run loader ⟨r.caches, ()⟩).1 = (.ok resolution, resolved) ∧
        resolved.rewrite resolution = (.ok (), after) := by
  unfold linkAlone at h
  split at h
  · cases h
  · cases h
  · rename_i resolution resolved hresolved
    split at h
    · cases h
    · exact ⟨resolution, resolved, _, hresolved, ‹_›⟩

theorem rewrite_declares_members_namingOwner :
    namingOwner.Steady ∧
      ∃ found resolution resolved after, namingOwner.discover = (.ok namingOwnerClass, found) ∧
        ((found.resolve namingOwnerClass ⟨[namingOwnerClass], [], none, 1⟩ (.ofString "C")).against
          (fun (shared : Shared Unit) op => shared.access ClassLibrary.empty.loader op)
          ⟨.ofClasses [], ()⟩).1 = (.ok resolution, resolved) ∧
        resolved.rewrite resolution = (.ok (), after) ∧
        ∃ opened lines parts, namingOwner.startInput = (.ok (), opened) ∧
          readLines namingOwner.name 1 opened.unread = .ok lines ∧
          Resolution.lineOutputs namingOwnerClass resolution.glue resolution.lines
            (lines.map Line.text) = .ok parts ∧
          after.written = (String.join parts).toUTF8 ∧
          ∀ kind, List.Forall₂ (Prints namingOwnerClass.name) (namingOwnerClass.members kind)
            (declarations kind lines parts) := by
  have hclass : namingOwner.discover.1 = .ok namingOwnerClass := by decide +kernel
  obtain ⟨found, hfound⟩ : ∃ found, namingOwner.discover = (.ok namingOwnerClass, found) :=
    ⟨_, by rw [← hclass]⟩
  obtain ⟨hwaiting, hname, -⟩ := of_discover_inMemory hfound
  have hcomposed : (namingOwner.composed namingOwnerClass ⟨[namingOwnerClass], [], none, 1⟩
      (.ofString "C") ClassLibrary.empty.loader).isSome = true := by
    decide +kernel
  obtain ⟨output, hcomposed⟩ := Option.isSome_iff_exists.1 hcomposed
  have hsame : found.composed namingOwnerClass ⟨[namingOwnerClass], [], none, 1⟩
      (.ofString "C") ClassLibrary.empty.loader = some output := by
    unfold composed at hcomposed ⊢
    rw [hname, hwaiting.store_eq]
    exact hcomposed
  have hlinks := toOption_eq_some_iff.1 (hwaiting.toOption_linkAlone.trans hsame)
  obtain ⟨resolution, resolved, after, hresolved, hrewritten⟩ := rewrites_of_linkAlone hlinks
  rw [Session.run_eq_against] at hresolved
  exact ⟨steady_inMemory _ _, found, resolution, resolved, after, hfound, hresolved, hrewritten,
    rewrite_declares_members (steady_inMemory _ _) hfound hresolved () hrewritten⟩

end Source

def Job.namingOwner : Job Unit MemoryStore where
  sources := [Source.namingOwner]
  common := ()
  libraries := []
  unresolved := none
  context := .ofString "C"

/-- An owner that is written in a declaration is found in the output, and whoever reads the
declaration there reads it with the owner. -/
theorem Job.link_keeps_owner :
    (namingOwner.link [0] (.fixed ClassLibrary.empty.load 0)).result = .ok () ∧
      (namingOwner.link [0] (.fixed ClassLibrary.empty.load 0)).outputs =
        [some (".class A\n.super java/lang/Object\n  .field public final A/x I = 5\n" ++
          ".method m()V\nreturn\n.method public A.n()V\n")] ∧
      Signature.parse .field "A/x I" = .ok ⟨some "A", "x", "I"⟩ ∧
      Signature.parse .method "A.n()V" = .ok ⟨some "A", "n", "()V"⟩ := by
  have hmemory : namingOwner.InMemory := by
    intro s hs
    obtain rfl := List.mem_singleton.1 hs
    exact ⟨_, _, rfl⟩
  have hcomposed : namingOwner.composed (.fixed ClassLibrary.empty.load 0) =
      some [some (".class A\n.super java/lang/Object\n  .field public final A/x I = 5\n" ++
        ".method m()V\nreturn\n.method public A.n()V\n")] := by
    decide +kernel
  obtain ⟨hresult, houtputs⟩ := InMemory.link_of_composed [0] hmemory rfl hcomposed
  exact ⟨hresult.2 (by simp), houtputs, by decide +kernel, by decide +kernel⟩

end UnitLink
