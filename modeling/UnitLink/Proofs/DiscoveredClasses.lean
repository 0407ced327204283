import UnitLink.Proofs.LinePasses
import UnitLink.Proofs.ValidDeclarations
/-! Which texts discovery accepts, and as which class. All lines are plain or spell a directive, one
of these declares the class, no member is declared before it, and what is declared is valid. The
first line against this is told by the failure; a text that has no such line and declares no class
is refused as a whole. -/
namespace UnitLink

/-! ### What lines hold -/

/-- What a line is to discovery: no directive, or the directive that it spells. -/
inductive LineHolds : String → Option Directive → Prop
  | plain {text : String} : ¬ [';', '@'] <+: Text.trim text.toList → LineHolds text none
  | directive {text : String} {d : Directive} {attributes : List (List Char × List Char)} :
      d.ReadOff text.toList attributes → LineHolds text (some d)

theorem lineHolds_iff {text : String} {held : Option Directive} :
    LineHolds text held ↔ Directive.parse text = .ok held := by
  cases held with
  | none =>
    rw [Directive.parse_eq_none_iff]
    exact ⟨fun | .plain h => h, .plain⟩
  | some d =>
    rw [Directive.parse_iff_readOff]
    exact ⟨fun | .directive h => ⟨_, h⟩, fun ⟨_, h⟩ => .directive h⟩

theorem LineHolds.unique {text : String} {held other : Option Directive} (h : LineHolds text held)
    (h' : LineHolds text other) : held = other :=
  Except.ok.inj ((lineHolds_iff.1 h).symm.trans (lineHolds_iff.1 h'))

/-- The lines hold the directives, in order; none of the lines is malformed. -/
inductive LinesHold : List String → List Directive → Prop
  | nil : LinesHold [] []
  | cons {text : String} {held : Option Directive} {texts : List String}
      {directives : List Directive} : LineHolds text held → LinesHold texts directives →
      LinesHold (text :: texts) (held.toList ++ directives)

namespace LinesHold

variable {texts others : List String} {directives more : List Directive}

theorem append (h : LinesHold texts directives) (h' : LinesHold others more) :
    LinesHold (texts ++ others) (directives ++ more) := by
  induction h with
  | nil => exact h'
  | cons htext _ ih =>
    rw [List.append_assoc]
    exact .cons htext ih

theorem snoc (h : LinesHold texts directives) {text : String} {held : Option Directive}
    (htext : LineHolds text held) : LinesHold (texts ++ [text]) (directives ++ held.toList) := by
  have hone := LinesHold.cons htext .nil
  rw [List.append_nil] at hone
  exact h.append hone

theorem split (h : LinesHold (texts ++ others) directives) : ∃ before after,
    LinesHold texts before ∧ LinesHold others after ∧ directives = before ++ after := by
  induction texts generalizing directives with
  | nil => exact ⟨[], directives, .nil, h, rfl⟩
  | cons text texts ih =>
    cases h with
    | cons htext hrest =>
      obtain ⟨before, after, hbefore, hafter, rfl⟩ := ih hrest
      exact ⟨_, after, .cons htext hbefore, hafter, (List.append_assoc _ _ _).symm⟩

theorem unique (h : LinesHold texts directives) (h' : LinesHold texts more) :
    directives = more := by
  induction h generalizing more with
  | nil =>
    cases h'
    rfl
  | cons htext _ ih =>
    cases h' with
    | cons htext' hrest => rw [htext.unique htext', ih hrest]

end LinesHold

/-! ### What directives declare -/

/-- The directive neither declares a class nor a member. -/
def Directive.Other (d : Directive) : Prop :=
  d.kind ≠ .classHeader ∧ ∀ kind : MemberKind, d.kind ≠ kind.directive

/-- The directives declare a class and its members: there is one class directive, no directive of a
member precedes it, and these directives are valid. All members are recorded, in order. -/
structure Declare (directives : List Directive) (header : ClassHeader)
    (members : (kind : MemberKind) → List (Member kind)) : Prop where
  one_class : ∃ d, directives.filter (·.kind = .classHeader) = [d] ∧ d.Heads header
  class_first : directives.Pairwise fun d e =>
    e.kind = .classHeader → ∀ kind : MemberKind, d.kind ≠ kind.directive
  members_made : ∀ kind : MemberKind, List.Forall₂ (fun d m => d.Makes header.name m)
    (directives.filter (·.kind = kind.directive)) (members kind)

/-- A directive that cannot follow the earlier ones. -/
inductive Refused (earlier : List Directive) (d : Directive) : Prop
  | repeatedClass {e : Directive} : d.kind = .classHeader → e ∈ earlier → e.kind = .classHeader →
      Refused earlier d
  | invalidClass : d.kind = .classHeader → (∀ header, ¬ d.Heads header) → Refused earlier d
  | beforeClass {kind : MemberKind} : d.kind = kind.directive →
      (∀ e ∈ earlier, e.kind ≠ .classHeader) → Refused earlier d
  | invalidMember {kind : MemberKind} {e : Directive} {header : ClassHeader} :
      d.kind = kind.directive → e ∈ earlier → e.kind = .classHeader → e.Heads header →
      (∀ m : Member kind, ¬ d.Makes header.name m) → Refused earlier d

theorem MemberKind.directive_ne (kind : MemberKind) : kind.directive ≠ .classHeader := by
  cases kind <;> decide

theorem MemberKind.directive_inj {kind other : MemberKind} :
    kind.directive = other.directive ↔ kind = other := by
  cases kind <;> cases other <;> decide

theorem mem_filter_kind {directives : List Directive} {d : Directive} {kind : DirectiveKind} :
    d ∈ directives.filter (·.kind = kind) ↔ d ∈ directives ∧ d.kind = kind := by
  simp

theorem Refused.not_other {earlier : List Directive} {d : Directive} (h : Refused earlier d) :
    ¬ d.Other := by
  rintro ⟨hclass, hmember⟩
  cases h with
  | repeatedClass hd => exact hclass hd
  | invalidClass hd => exact hclass hd
  | beforeClass hd => exact hmember _ hd
  | invalidMember hd => exact hmember _ hd

namespace Declare

variable {directives : List Directive} {header other : ClassHeader}
  {members more : (kind : MemberKind) → List (Member kind)} {d : Directive}

theorem exists_class (h : Declare directives header members) :
    ∃ d ∈ directives, d.kind = .classHeader ∧ d.Heads header := by
  obtain ⟨d, hone, hheads⟩ := h.one_class
  obtain ⟨hd, hkind⟩ := mem_filter_kind.1 (hone ▸ List.mem_singleton_self d)
  exact ⟨d, hd, hkind, hheads⟩

theorem heads_of_mem (h : Declare directives header members) (hd : d ∈ directives)
    (hkind : d.kind = .classHeader) : d.Heads header := by
  obtain ⟨e, hone, hheads⟩ := h.one_class
  have hmem := mem_filter_kind.2 ⟨hd, hkind⟩
  rw [hone, List.mem_singleton] at hmem
  rwa [hmem]

theorem exists_makes (h : Declare directives header members) (hd : d ∈ directives)
    {kind : MemberKind} (hkind : d.kind = kind.directive) :
    ∃ m : Member kind, d.Makes header.name m := by
  have hmade := h.members_made kind
  obtain ⟨i, hi, hget⟩ := List.getElem_of_mem (mem_filter_kind.2 ⟨hd, hkind⟩)
  have hmakes := hmade.get hi (hmade.length_eq ▸ hi)
  rw [List.get_eq_getElem, hget] at hmakes
  exact ⟨_, hmakes⟩

theorem unique (h : Declare directives header members) (h' : Declare directives other more) :
    header = other ∧ members = more := by
  obtain ⟨d, hd, hkind, hheads⟩ := h.exists_class
  obtain rfl := hheads.unique (h'.heads_of_mem hd hkind)
  refine ⟨rfl, funext fun kind => ?_⟩
  exact List.right_unique_forall₂' (fun _ _ _ hm hm' => hm.unique hm') (h.members_made kind)
    (h'.members_made kind)

theorem not_refused {earlier later : List Directive}
    (h : Declare (earlier ++ d :: later) header members) : ¬ Refused earlier d := by
  have hd : d ∈ earlier ++ d :: later := List.mem_append_right _ List.mem_cons_self
  intro hrefused
  cases hrefused with
  | @repeatedClass e hkind he hclass =>
    -- two class directives are too many
    obtain ⟨one, hone, -⟩ := h.one_class
    have hpos := List.length_pos_of_mem (mem_filter_kind.2 ⟨he, hclass⟩)
    have hlength := congrArg List.length hone
    rw [List.filter_append, List.filter_cons_of_pos (by simpa using hkind)] at hlength
    simp only [List.length_append, List.length_cons, List.length_nil] at hlength
    omega
  | invalidClass hkind hinvalid => exact hinvalid header (h.heads_of_mem hd hkind)
  | @beforeClass kind hkind hnone =>
    obtain ⟨e, he, hclass, -⟩ := h.exists_class
    rcases List.mem_append.1 he with he | he
    · exact hnone e he hclass
    rcases List.mem_cons.1 he with rfl | he
    · exact kind.directive_ne (hkind.symm.trans hclass)
    · have hfirst := (List.pairwise_append.1 h.class_first).2.1
      exact (List.pairwise_cons.1 hfirst).1 e he hclass kind hkind
  | invalidMember hkind he hclass hheads hinvalid =>
    obtain rfl := hheads.unique (h.heads_of_mem (List.mem_append_left _ he) hclass)
    obtain ⟨m, hmakes⟩ := h.exists_makes hd hkind
    exact hinvalid m hmakes

theorem of_heads (h : ∀ e ∈ directives, e.Other) (hkind : d.kind = .classHeader)
    (hheads : d.Heads header) (hnone : ∀ kind, members kind = []) :
    Declare (directives ++ [d]) header members where
  one_class := by
    refine ⟨d, ?_, hheads⟩
    rw [List.filter_append, List.filter_eq_nil_iff.2 fun e he => by simpa using (h e he).1,
      List.filter_cons_of_pos (by simpa using hkind)]
    rfl
  class_first := List.pairwise_append.2
    ⟨List.pairwise_of_forall_mem_list fun e he _ _ _ => (h e he).2, List.pairwise_singleton _ _,
      fun e he _ _ _ => (h e he).2⟩
  members_made kind := by
    have hd : d.kind ≠ kind.directive := fun hd => kind.directive_ne (hd.symm.trans hkind)
    rw [hnone, List.filter_append, List.filter_eq_nil_iff.2 fun e he => by simpa using (h e he).2 _,
      List.filter_cons_of_neg (by simpa using hd)]
    exact .nil

theorem snoc (h : Declare directives header members) (hkind : d.kind ≠ .classHeader)
    (hmade : ∀ kind : MemberKind, ∃ made, more kind = members kind ++ made ∧
      List.Forall₂ (fun d m => d.Makes header.name m) ([d].filter (·.kind = kind.directive)) made) :
    Declare (directives ++ [d]) header more where
  one_class := by
    obtain ⟨e, hone, hheads⟩ := h.one_class
    refine ⟨e, ?_, hheads⟩
    rw [List.filter_append, hone, List.filter_cons_of_neg (by simpa using hkind)]
    rfl
  class_first := by
    refine List.pairwise_append.2 ⟨h.class_first, List.pairwise_singleton _ _, ?_⟩
    intro _ _ e he hclass
    rw [List.mem_singleton.1 he] at hclass
    exact absurd hclass hkind
  members_made kind := by
    obtain ⟨made, hmore, hmakes⟩ := hmade kind
    rw [hmore, List.filter_append]
    exact List.rel_append (h.members_made kind) hmakes

end Declare

/-! ### Directives one by one -/

/-- What was found in the directives so far. -/
inductive Gathered (directives : List Directive) : Declarations → Prop
  | noClass : (∀ d ∈ directives, d.Other) → Gathered directives {}
  | declared {found : Declarations} {header : ClassHeader} : found.header = some header →
      Declare directives header found.members → Gathered directives found

namespace Declarations

variable {found : Declarations} {d : Directive} {kind : MemberKind}

theorem add_of_class (hd : d.kind = .classHeader) : found.add d = match found.header with
    | some existing => .error (.declaration (.repeatedClass existing.name))
    | none => d.classHeader.map fun header => { found with header := some header } := by
  simp only [add, hd]
  cases found.header with
  | none => cases d.classHeader <;> rfl
  | some existing => rfl

theorem add_of_member (hd : d.kind = kind.directive) :
    found.add d = (found.member kind d).map found.push := by
  cases kind <;> simp only [add, hd, MemberKind.directive] <;> cases found.member _ d <;> rfl

theorem add_of_other (hd : d.Other) : found.add d = .ok found := by
  unfold add
  split
  · exact absurd ‹_› hd.1
  · exact absurd ‹_› (hd.2 .field)
  · exact absurd ‹_› (hd.2 .method)
  · rfl

end Declarations

namespace Gathered

variable {directives : List Directive} {found : Declarations} {d : Directive}

def Adds (directives : List Directive) (d : Directive) : Except Failure Declarations → Prop
  | .ok after => Gathered (directives ++ [d]) after ∧ ¬ Refused directives d
  | .error _ => Refused directives d

theorem add_class (h : Gathered directives found) (hd : d.kind = .classHeader) :
    Adds directives d (found.add d) := by
  rw [Declarations.add_of_class hd]
  cases h with
  | declared hheader hdeclare =>
    obtain ⟨e, he, hclass, -⟩ := hdeclare.exists_class
    rw [hheader]
    exact .repeatedClass hd he hclass
  | noClass hother =>
    cases hheader : d.classHeader with
    | error failure =>
      refine .invalidClass hd fun header hheads => ?_
      rw [Directive.classHeader_eq_ok_iff.2 hheads] at hheader
      cases hheader
    | ok header =>
      have hheads := Directive.classHeader_eq_ok_iff.1 hheader
      refine ⟨.declared rfl (.of_heads hother hd hheads fun kind => by cases kind <;> rfl), ?_⟩
      rintro (⟨-, he, hclass⟩ | ⟨-, hinvalid⟩ | ⟨hmember, -⟩ | ⟨hmember, -⟩)
      · exact (hother _ he).1 hclass
      · exact hinvalid header hheads
      · exact MemberKind.directive_ne _ (hmember.symm.trans hd)
      · exact MemberKind.directive_ne _ (hmember.symm.trans hd)

theorem add_member (h : Gathered directives found) {kind : MemberKind}
    (hd : d.kind = kind.directive) : Adds directives d (found.add d) := by
  have hclass : d.kind ≠ .classHeader := fun hclass => kind.directive_ne (hd.symm.trans hclass)
  rw [Declarations.add_of_member hd]
  cases h with
  | noClass hother =>
    cases hm : ({} : Declarations).member kind d with
    | error failure => exact .beforeClass hd fun e he => (hother e he).1
    | ok m =>
      obtain ⟨header, hheader, -⟩ := Declarations.member_eq_ok_iff.1 hm
      cases hheader
  | @declared _ header hheader hdeclare =>
    obtain ⟨e, he, heclass, hheads⟩ := hdeclare.exists_class
    cases hm : found.member kind d with
    | error failure =>
      refine .invalidMember hd he heclass hheads fun m hmakes => ?_
      rw [Declarations.member_eq_ok_iff.2 ⟨header, hheader, hmakes⟩] at hm
      cases hm
    | ok m =>
      obtain ⟨header', hheader', hmakes⟩ := Declarations.member_eq_ok_iff.1 hm
      obtain rfl := Option.some.inj (hheader.symm.trans hheader')
      have hsnoc : Declare (directives ++ [d]) header (found.push m).members := by
        refine hdeclare.snoc hclass fun other => ?_
        by_cases hsame : kind = other
        · subst hsame
          exact ⟨[m], found.members_push m, by simpa [hd] using hmakes⟩
        · refine ⟨[], by rw [found.members_push_of_ne m hsame, List.append_nil], ?_⟩
          simp [hd, MemberKind.directive_inj, hsame]
      refine ⟨.declared ((found.header_push m).trans hheader) hsnoc, fun hrefused => ?_⟩
      have hwhole : Declare (directives ++ d :: []) header _ := hsnoc
      exact hwhole.not_refused hrefused

theorem add_other (h : Gathered directives found) (hd : d.Other) :
    Adds directives d (found.add d) := by
  rw [Declarations.add_of_other hd]
  refine ⟨?_, fun hrefused => hrefused.not_other hd⟩
  cases h with
  | noClass hother =>
    exact .noClass (List.forall_mem_append.2 ⟨hother, List.forall_mem_singleton.2 hd⟩)
  | declared hheader hdeclare =>
    refine .declared hheader (hdeclare.snoc hd.1 fun kind => ⟨[], (List.append_nil _).symm, ?_⟩)
    simp [hd.2 kind]

theorem add (h : Gathered directives found) (d : Directive) :
    Adds directives d (found.add d) := by
  by_cases hclass : d.kind = .classHeader
  · exact h.add_class hclass
  by_cases hmember : ∃ kind : MemberKind, d.kind = kind.directive
  · obtain ⟨kind, hd⟩ := hmember
    exact h.add_member hd
  · exact h.add_other ⟨hclass, not_exists.1 hmember⟩

end Gathered

/-! ### Lines one by one -/

/-- A line that cannot follow the earlier ones: it is malformed, or its directive is refused. -/
inductive Offends (earlier : List String) (text : String) : Prop
  | malformed : (∀ held, ¬ LineHolds text held) → Offends earlier text
  | refused {directives : List Directive} {d : Directive} : LinesHold earlier directives →
      LineHolds text (some d) → Refused directives d → Offends earlier text

/-- None of the lines offends. -/
inductive Clean : List String → Prop
  | nil : Clean []
  | snoc {earlier : List String} {text : String} : Clean earlier → ¬ Offends earlier text →
      Clean (earlier ++ [text])

/-- The line is the first of the text that offends. -/
structure FirstOffence (texts earlier : List String) (text : String) : Prop where
  clean : Clean earlier
  offends : Offends earlier text
  split : ∃ later, texts = earlier ++ text :: later

theorem Offends.exists_refused {earlier : List String} {text : String} {directives : List Directive}
    {held : Option Directive} (h : Offends earlier text) (hall : LinesHold earlier directives)
    (htext : LineHolds text held) : ∃ d, held = some d ∧ Refused directives d := by
  cases h with
  | malformed hnone => exact absurd htext (hnone held)
  | refused hall' htext' hrefused =>
    obtain rfl := hall.unique hall'
    exact ⟨_, htext.unique htext', hrefused⟩

/-- The lines were read without an offence, and this was found in them. -/
structure ReadInto (texts : List String) (found : Declarations) : Prop where
  clean : Clean texts
  gathered : ∃ directives, LinesHold texts directives ∧ Gathered directives found

def VisitComesTo (texts : List String) (text : String) :
    Except Failure Unit × Declarations → Prop
  | (.ok (), after) => ReadInto (texts ++ [text]) after
  | (.error failure, _) => Offends texts text ∧ ∃ fault, failure = .declaration fault

theorem ReadInto.visit {texts : List String} {found : Declarations} (h : ReadInto texts found)
    {line : Line} (hholds : LineHolds line.text line.directive) :
    VisitComesTo texts line.text (Declarations.visit line found) := by
  obtain ⟨hclean, directives, hall, hgathered⟩ := h
  unfold Declarations.visit
  cases hd : line.directive with
  | none =>
    rw [hd] at hholds
    refine ⟨hclean.snoc fun hoffends => ?_, directives, ?_, hgathered⟩
    · obtain ⟨d, hsome, -⟩ := hoffends.exists_refused hall hholds
      cases hsome
    · simpa using hall.snoc hholds
  | some d =>
    rw [hd] at hholds
    have hadd := hgathered.add d
    cases hafter : found.add d with
    | error failure =>
      rw [hafter] at hadd
      simp only [hafter]
      exact ⟨.refused hall hholds hadd, found.add_declarationOnly d failure hafter⟩
    | ok after =>
      rw [hafter] at hadd
      simp only [hafter]
      refine ⟨hclean.snoc fun hoffends => ?_, _, hall.snoc hholds, hadd.1⟩
      obtain ⟨e, hsome, hrefused⟩ := hoffends.exists_refused hall hholds
      obtain rfl := Option.some.inj hsome
      exact hadd.2 hrefused

/-- What visiting lines comes to. -/
theorem readInto_of_visits {lines : List Line} {outcome : Except Failure Unit}
    {found : Declarations} (h : Visits Declarations.visit {} lines outcome found)
    (hholds : ∀ line ∈ lines, LineHolds line.text line.directive) :
    match outcome with
    | .ok () => ReadInto (lines.map Line.text) found
    | .error failure => ∃ earlier line, lines = earlier ++ [line] ∧
        Clean (earlier.map Line.text) ∧ Offends (earlier.map Line.text) line.text ∧
        ∃ fault, failure = .declaration fault := by
  induction h with
  | none => exact ⟨.nil, [], .nil, .noClass nofun⟩
  | @more lines line outcome _ _ _ hvisit ih =>
    obtain ⟨hlines, hline⟩ := List.forall_mem_append.1 hholds
    have hread : ReadInto (lines.map Line.text) _ := ih hlines
    have hvisited := hread.visit (hline line List.mem_cons_self)
    rw [hvisit] at hvisited
    cases outcome with
    | ok done =>
      rw [List.map_append]
      exact hvisited
    | error failure => exact ⟨lines, line, rfl, hread.clean, hvisited⟩

namespace FirstLines

variable {texts : List String} {lines : List Line}

theorem holds (h : FirstLines (texts.map .ok) lines) :
    ∀ line ∈ lines, LineHolds line.text line.directive := by
  intro line hline
  obtain ⟨i, hi⟩ := List.mem_iff_getElem?.1 hline
  exact lineHolds_iff.2 (h i line hi).2.2

theorem exists_rest (h : FirstLines (texts.map .ok) lines) :
    ∃ rest, texts = lines.map Line.text ++ rest := by
  have hstarts : lines.map Line.text <+: texts := by
    refine List.prefix_iff_getElem?.2 fun i hi => ?_
    rw [List.length_map] at hi
    obtain ⟨-, htext, -⟩ := h i lines[i] (List.getElem?_eq_getElem hi)
    rw [List.getElem?_map, Option.map_eq_some_iff] at htext
    obtain ⟨text, hget, heq⟩ := htext
    rw [hget, List.getElem_map, Except.ok.inj heq]
  obtain ⟨rest, hrest⟩ := hstarts
  exact ⟨rest, hrest.symm⟩

end FirstLines

theorem Failure.TellsPlace.location?_eq {here : SourceLocation} {before after : Failure}
    (h : before.TellsPlace here after) (hnone : before.locations = []) :
    after.location? = some here := by
  rw [location?, h.gains hnone]
  rfl

/-- The texts declare the class. -/
def DeclareClass (texts : List String) (c : ClassUnit) : Prop :=
  ∃ directives, LinesHold texts directives ∧ Declare directives c.toClassHeader c.members

/-- No line offends, and no class is declared. -/
def DeclareNothing (texts : List String) : Prop :=
  Clean texts ∧ ∃ directives, LinesHold texts directives ∧ ∀ d ∈ directives, d.Other

/-- What reading the declarations of lines comes to. -/
def DiscoveredIn (source : String) (texts : List String) : Except Failure ClassUnit → Prop
  | .ok c => DeclareClass texts c
  | .error failure =>
    (∃ earlier text, FirstOffence texts earlier text ∧
      failure.location? = some ⟨source, earlier.length + 1⟩) ∨
    DeclareNothing texts ∧ failure = .declaration (.missingClass source)

theorem ReadInto.classUnit {texts : List String} {found : Declarations} (h : ReadInto texts found)
    (source : String) : DiscoveredIn source texts (found.classUnit source) := by
  obtain ⟨hclean, directives, hall, hgathered⟩ := h
  cases hgathered with
  | noClass hother => exact .inr ⟨⟨hclean, directives, hall, hother⟩, rfl⟩
  | declared hheader hdeclare =>
    unfold Declarations.classUnit
    rw [hheader]
    refine ⟨directives, hall, ?_⟩
    convert hdeclare using 1
    funext kind
    cases kind <;> rfl

theorem Declarations.discoveredIn_ofLines (source : String) (texts : List String) :
    DiscoveredIn source texts (ofLines source (texts.map .ok)) := by
  obtain ⟨lines, outcome, hfirst, hvisits, hends⟩ :=
    visits_of_visitLines source visit (texts.map .ok) {}
  obtain ⟨rest, htexts⟩ := hfirst.exists_rest
  unfold ofLines
  generalize visitLines (m := Id) source visit 1 (texts.map .ok) {} = pass at hvisits hends ⊢
  obtain ⟨result, found⟩ := pass
  have hread := readInto_of_visits hvisits hfirst.holds
  cases hends with
  | completed hlength =>
    -- all lines were visited
    obtain rfl : rest = [] := by simpa [htexts] using hlength
    rw [htexts, List.append_nil]
    exact ReadInto.classUnit hread source
  | @unshowable next failure told hnext hunshowable hplace =>
    -- the line after those that were visited is malformed
    have hread : ReadInto (lines.map Line.text) found := hread
    rw [htexts, List.getElem?_map, List.getElem?_append_right (by simp)] at hnext
    cases rest with
    | nil => simp at hnext
    | cons text later =>
      obtain rfl : .ok text = next := by simpa using hnext
      cases hunshowable with
      | malformed hfault =>
        refine .inl ⟨lines.map Line.text, text, ⟨hread.clean, .malformed fun held hheld => ?_,
          later, htexts⟩, ?_⟩
        · rw [lineHolds_iff.1 hheld] at hfault
          cases hfault
        · rw [hplace.location?_eq rfl, List.length_map]
  | @refused failure told hplace =>
    -- the last line that was visited was refused
    obtain ⟨earlier, line, rfl, hclean, hoffends, fault, rfl⟩ := hread
    refine .inl ⟨earlier.map Line.text, line.text, ⟨hclean, hoffends, rest, ?_⟩, ?_⟩
    · simpa using htexts
    · rw [hplace.location?_eq rfl, List.length_map, List.length_append, List.length_singleton]

theorem DeclareClass.not_offends {earlier later : List String} {text : String} {c : ClassUnit}
    (h : DeclareClass (earlier ++ text :: later) c) : ¬ Offends earlier text := by
  obtain ⟨directives, hall, hdeclare⟩ := h
  obtain ⟨before, after, hbefore, hafter, rfl⟩ := hall.split
  cases hafter with
  | @cons _ held _ after htext hafter =>
    intro hoffends
    obtain ⟨d, rfl, hrefused⟩ := hoffends.exists_refused hbefore htext
    exact hdeclare.not_refused hrefused

/-- Where a class is declared nothing else can come out. -/
theorem DeclareClass.discovered {source : String} {texts : List String} {c : ClassUnit}
    (h : DeclareClass texts c) {result : Except Failure ClassUnit}
    (hresult : DiscoveredIn source texts result) : result = .ok c := by
  cases result with
  | ok other =>
    obtain ⟨directives, hall, hdeclare⟩ := h
    obtain ⟨directives', hall', hdeclare'⟩ := hresult
    obtain rfl := hall.unique hall'
    obtain ⟨hheader, hmembers⟩ := hdeclare'.unique hdeclare
    obtain ⟨header, methods, fields⟩ := c
    obtain ⟨header', methods', fields'⟩ := other
    obtain rfl : header' = header := hheader
    obtain rfl : methods' = methods := congrFun hmembers .method
    obtain rfl : fields' = fields := congrFun hmembers .field
    rfl
  | error failure =>
    obtain ⟨earlier, text, ⟨-, hoffends, later, rfl⟩, -⟩ | ⟨⟨-, directives', hall', hother⟩, -⟩ :=
      hresult
    · exact absurd hoffends h.not_offends
    · obtain ⟨directives, hall, hdeclare⟩ := h
      obtain rfl := hall.unique hall'
      obtain ⟨d, hd, hclass, -⟩ := hdeclare.exists_class
      exact absurd hclass (hother d hd).1

/-- Discovery accepts the texts that declare a class, as that class. If it fails, the failure is that
of a declaration; either it tells the first line that offends, or there is none and no class
either. The line's number fits thirty-two bits where there are fewer than 2 ^ 32 lines. -/
theorem Source.discover_accepts_declarations (name text : String) :
    (∀ c, (inMemory name text).discover.1 = .ok c ↔ DeclareClass (textLines text) c) ∧
    ∀ failure, (inMemory name text).discover.1 = .error failure →
      failure.kind = .declaration ∧
      ((∃ earlier line, FirstOffence (textLines text) earlier line ∧
          failure.location? = some ⟨name, earlier.length + 1⟩) ∨
        DeclareNothing (textLines text) ∧ failure = .declaration (.missingClass name)) := by
  have hstart : (inMemory name text).startInput = (.ok (), _) := rfl
  have hunread := Stream.lines_ofString text
  have hdiscovered := Declarations.discoveredIn_ofLines name (textLines text)
  rw [← hunread] at hdiscovered
  have hresult : DiscoveredIn name (textLines text) (inMemory name text).discover.1 := by
    rw [discover_eq hstart]
    exact hdiscovered
  refine ⟨fun c => ⟨fun h => ?_, fun h => h.discovered hresult⟩, fun failure h => ⟨?_, ?_⟩⟩
  · rw [h] at hresult
    exact hresult
  · exact kind_of_discover_error hstart hunread h
  · rw [h] at hresult
    exact hresult

/-- A method that is declared twice is recorded twice, and a class that is declared twice is told. -/
theorem Source.discover_accepts_declarations_repeated :
    let twice := ";@class|name=p.A\n;@method|sig=f()V\nreturn\n;@method|sig=f()V"
    let c : ClassUnit := {
      name := .ofString "p/A", modifiers := .empty, superclass := some defaultSuperclass
      interfaces := [], fields := []
      methods := List.replicate 2 ⟨.ofString "p/A", "f", "()V", .empty⟩ }
    DeclareClass (textLines twice) c ∧
      ∃ failure, (inMemory "A.j" (twice ++ "\n;@class|name=B")).discover.1 = .error failure ∧
        ∃ earlier line, FirstOffence (textLines (twice ++ "\n;@class|name=B")) earlier line ∧
          earlier.length = 4 := by
  intro twice c
  have hfailure : (inMemory "A.j" (twice ++ "\n;@class|name=B")).discover.1 =
      .error ((Failure.declaration (.repeatedClass (.ofString "p/A"))).locate ⟨"A.j", 5⟩) := by
    decide +kernel
  refine ⟨((discover_accepts_declarations "A.j" twice).1 c).1 (by decide +kernel), _, hfailure, ?_⟩
  obtain ⟨-, ⟨earlier, line, hfirst, hplace⟩ | ⟨-, hmissing⟩⟩ :=
    (discover_accepts_declarations "A.j" _).2 _ hfailure
  · refine ⟨earlier, line, hfirst, ?_⟩
    have hnumber : 5 = earlier.length + 1 := congrArg SourceLocation.line (Option.some.inj hplace)
    omega
  · cases hmissing

end UnitLink
