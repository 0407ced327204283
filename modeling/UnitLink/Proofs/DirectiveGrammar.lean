import Mathlib.Data.List.Nodup
import UnitLink.Pass
import UnitLink.Proofs.Trimming
/-! The grammar of directives. A line is a directive just if what is left of it by trimming is
spelled as one: the marker, one of the names, and attributes with keys of their own. It is read as
what it spells, whatever the order of the attributes and the blanks around their values. -/
namespace UnitLink

namespace DirectiveKind

theorem ofText?_eq_some_iff {name : String} {kind : DirectiveKind} :
    ofText? name = some kind ↔ name = kind.text := by
  constructor
  · intro h
    have hfound : (all.find? fun k => k.text == name) = some kind := h
    have htext := List.find?_some hfound
    exact (eq_of_beq htext).symm
  · rintro rfl
    exact ofText?_text kind

end DirectiveKind

namespace Directive

/-! ### Spelling -/

/-- Letters and digits of ASCII, `-` and `_`. -/
def NameChar (c : Char) : Prop := c.isAlphanum = true ∨ c = '-' ∨ c = '_'

instance : DecidablePred NameChar := fun c =>
  inferInstanceAs (Decidable (c.isAlphanum = true ∨ c = '-' ∨ c = '_'))

/-- A key, and a value with the blanks around it, as they can be written in an attribute. -/
structure Writable (written : List Char × List Char) : Prop where
  key_ne_nil : written.1 ≠ []
  nameChar : ∀ c ∈ written.1, NameChar c
  unbarred : '|' ∉ written.2

def attributeText (written : List Char × List Char) : List Char :=
  '|' :: (written.1 ++ '=' :: written.2)

/-- What the texts of directives say: their kind and, in order, their attributes. -/
inductive Spells : List Char → DirectiveKind → List (List Char × List Char) → Prop
  | intro {kind : DirectiveKind} {attributes : List (List Char × List Char)} :
      (∀ written ∈ attributes, Writable written) → (attributes.map Prod.fst).Nodup →
      Spells (';' :: '@' :: (kind.text.toList ++ attributes.flatMap attributeText)) kind attributes

theorem isNameChar_iff {c : Char} : isNameChar c = true ↔ NameChar c := by
  have hupper : c.isUpper = true ↔ 'A' ≤ c ∧ c ≤ 'Z' := decide_eq_true_iff
  have hlower : c.isLower = (decide ('a' ≤ c) && decide (c ≤ 'z')) := rfl
  have hdigit : c.isDigit = (decide ('0' ≤ c) && decide (c ≤ '9')) := rfl
  have halphanum : c.isAlphanum = (c.isUpper || c.isLower || c.isDigit) := rfl
  simp only [isNameChar, NameChar, halphanum, hdigit, Bool.or_eq_true, hupper, hlower,
    Bool.and_eq_true, decide_eq_true_eq, beq_iff_eq]
  tauto

/-! ### Attributes -/

theorem Writable.takeAttribute {written : List Char × List Char} (h : Writable written)
    {rest : List Char} (hrest : ∀ c ∈ rest.head?, c = '|') :
    Directive.takeAttribute (attributeText written ++ rest) = some (written, rest) := by
  obtain ⟨key, value⟩ := written
  have hkey : ∀ c ∈ key, isNameChar c = true := fun c hc => isNameChar_iff.2 (h.nameChar c hc)
  have hvalue : ∀ c ∈ value, (c != '|') = true :=
    fun c hc => bne_iff_ne.2 fun hbar => h.unbarred (hbar ▸ hc)
  have hafter : rest.takeWhile (· != '|') = [] ∧ rest.dropWhile (· != '|') = rest := by
    cases rest with
    | nil => simp
    | cons c rest => simp [hrest c rfl]
  have hends : isNameChar '=' = false := by decide
  have htext : attributeText (key, value) ++ rest = '|' :: (key ++ '=' :: (value ++ rest)) := by
    simp [attributeText]
  have htake : (key ++ '=' :: (value ++ rest)).takeWhile isNameChar = key := by
    rw [List.takeWhile_append_of_pos hkey, List.takeWhile_cons_of_neg (by simp [hends]),
      List.append_nil]
  have hdrop : (key ++ '=' :: (value ++ rest)).dropWhile isNameChar = '=' :: (value ++ rest) := by
    rw [List.dropWhile_append_of_pos hkey, List.dropWhile_cons_of_neg (by simp [hends])]
  rw [htext]
  simp only [Directive.takeAttribute, htake, hdrop, if_neg h.key_ne_nil,
    List.takeWhile_append_of_pos hvalue, List.dropWhile_append_of_pos hvalue, hafter,
    List.append_nil]

theorem of_takeAttribute {cs rest : List Char} {written : List Char × List Char}
    (h : takeAttribute cs = some (written, rest)) :
    Writable written ∧ cs = attributeText written ++ rest := by
  unfold takeAttribute at h
  split at h
  · rename_i tail
    split at h
    · cases h
    · rename_i hkey
      split at h
      · rename_i value hvalue
        obtain ⟨rfl, rfl⟩ := Prod.mk.inj (Option.some.inj h)
        refine ⟨⟨hkey, fun c hc => ?_, fun hbar => ?_⟩, ?_⟩
        · exact isNameChar_iff.1 (List.mem_takeWhile_imp hc)
        · simpa using List.mem_takeWhile_imp hbar
        · rw [attributeText, List.cons_append, List.append_assoc, List.cons_append,
            List.takeWhile_append_dropWhile, ← hvalue, List.takeWhile_append_dropWhile]
      · cases h
  · cases h

theorem head?_attributeTexts {attributes : List (List Char × List Char)} {c : Char}
    (h : c ∈ (attributes.flatMap attributeText).head?) : c = '|' := by
  cases attributes with
  | nil => cases h
  | cons written others => exact (Option.some.inj h).symm

/-- What is taken off the front as attributes to the end of the text is what is written there. -/
theorem takeAttributes_eq_iff {cs : List Char} {attributes : List (List Char × List Char)} :
    takeAttributes cs = (attributes, []) ↔
      cs = attributes.flatMap attributeText ∧ ∀ written ∈ attributes, Writable written := by
  constructor
  · intro h
    induction cs using takeAttributes.induct generalizing attributes with
    | case1 cs hnone =>
      rw [takeAttributes_of_none hnone] at h
      obtain ⟨rfl, rfl⟩ := Prod.mk.inj h
      exact ⟨rfl, by simp⟩
    | case2 cs first rest hsome _ _ _ ih =>
      rw [takeAttributes_of_some hsome] at h
      obtain ⟨rfl, hrest⟩ := Prod.mk.inj h
      obtain ⟨hfirst, rfl⟩ := of_takeAttribute hsome
      obtain ⟨heq, hothers⟩ := ih (Prod.ext rfl hrest)
      refine ⟨?_, List.forall_mem_cons.2 ⟨hfirst, hothers⟩⟩
      rw [List.flatMap_cons, ← heq]
  · rintro ⟨rfl, hall⟩
    induction attributes with
    | nil => exact takeAttributes_of_none rfl
    | cons first others ih =>
      obtain ⟨hfirst, hothers⟩ := List.forall_mem_cons.1 hall
      have htake : takeAttribute (attributeText first ++ others.flatMap attributeText) =
          some (first, others.flatMap attributeText) :=
        hfirst.takeAttribute fun c hc => head?_attributeTexts hc
      rw [List.flatMap_cons, takeAttributes_of_some htake, ih hothers]

theorem repeatedKey?_eq_none_iff {seen : List (List Char)}
    {attributes : List (List Char × List Char)} :
    repeatedKey? seen attributes = none ↔
      (attributes.map Prod.fst).Nodup ∧ ∀ written ∈ attributes, written.1 ∉ seen := by
  induction attributes generalizing seen with
  | nil => simp [repeatedKey?]
  | cons first others ih =>
    obtain ⟨key, value⟩ := first
    rw [repeatedKey?]
    split
    · rename_i hseen
      simp [hseen]
    · rename_i hnew
      rw [ih, List.map_cons, List.nodup_cons, List.forall_mem_cons]
      simp only [List.mem_cons, not_or, List.mem_map, not_exists, not_and]
      constructor
      · rintro ⟨hnodup, hothers⟩
        exact ⟨⟨fun other hother => (hothers other hother).1, hnodup⟩, hnew,
          fun other hother => (hothers other hother).2⟩
      · rintro ⟨⟨hkey, hnodup⟩, -, hothers⟩
        exact ⟨hnodup, fun other hother => ⟨hkey other hother, hothers other hother⟩⟩

/-! ### Lines -/

theorem name_of_text (kind : DirectiveKind) (attributes : List (List Char × List Char)) :
    (kind.text.toList ++ attributes.flatMap attributeText).takeWhile isNameChar =
        kind.text.toList ∧
      (kind.text.toList ++ attributes.flatMap attributeText).dropWhile isNameChar =
        attributes.flatMap attributeText := by
  have hname : ∀ c ∈ kind.text.toList, isNameChar c = true := by
    rw [← List.all_eq_true]
    cases kind <;> decide
  have hafter : (attributes.flatMap attributeText).takeWhile isNameChar = [] ∧
      (attributes.flatMap attributeText).dropWhile isNameChar =
        attributes.flatMap attributeText := by
    cases attributes with
    | nil => simp
    | cons first others =>
      have hbar : isNameChar '|' = false := by decide
      simp [attributeText, hbar]
  rw [List.takeWhile_append_of_pos hname, List.dropWhile_append_of_pos hname, hafter.1, hafter.2,
    List.append_nil]
  exact ⟨rfl, rfl⟩

/-- What the attributes of a directive are, as they are written in it. -/
def attributesOf (attributes : List (List Char × List Char)) : List (String × String) :=
  attributes.map fun (key, value) => (String.ofList key, String.ofList (Text.trim value))

theorem parseBody_eq_ok_iff {indent body rest : List Char} {d : Directive} :
    parseBody indent body rest = .ok d ↔
      ∃ attributes, Spells (';' :: '@' :: rest) d.kind attributes ∧
        d.indent = String.ofList indent ∧ d.attributes = attributesOf attributes := by
  constructor
  · intro h
    unfold parseBody at h
    simp only at h
    split at h
    · cases h
    split at h
    · cases h
    rename_i hread
    split at h
    · cases h
    rename_i kind hkind
    split at h
    · cases h
    rename_i hnodup
    obtain rfl := Except.ok.inj h
    have hname : rest.takeWhile isNameChar = kind.text.toList := by
      rw [← DirectiveKind.ofText?_eq_some_iff.1 hkind, String.toList_ofList]
    obtain ⟨heq, hall⟩ := takeAttributes_eq_iff.1 (Prod.ext rfl (by simpa using hread))
    have hrest : rest = kind.text.toList ++
        (takeAttributes (rest.dropWhile isNameChar)).1.flatMap attributeText := by
      rw [← heq, ← hname, List.takeWhile_append_dropWhile]
    refine ⟨(takeAttributes (rest.dropWhile isNameChar)).1, ?_, rfl, rfl⟩
    have hspells : Spells _ kind _ := .intro hall (repeatedKey?_eq_none_iff.1 hnodup).1
    rwa [← hrest] at hspells
  · rintro ⟨attributes, hspells, hindent, hattributes⟩
    generalize htext : ';' :: '@' :: rest = text at hspells
    generalize hkind : d.kind = kind at hspells
    cases hspells with
    | intro hall hnodup =>
      obtain rfl := (List.cons.inj (List.cons.inj htext).2).2
      obtain ⟨htake, hdrop⟩ := name_of_text kind attributes
      have hread : takeAttributes (attributes.flatMap attributeText) = (attributes, []) :=
        takeAttributes_eq_iff.2 ⟨rfl, hall⟩
      have hname : kind.text.toList ≠ [] := by cases kind <;> decide
      have hnone : repeatedKey? [] attributes = none :=
        repeatedKey?_eq_none_iff.2 ⟨hnodup, by simp⟩
      simp only [parseBody, htake, hdrop, hread, if_neg hname, ne_eq, not_true, if_false,
        String.ofList_toList, DirectiveKind.ofText?_text, hnone]
      obtain ⟨_, _, _⟩ := d
      obtain rfl : _ = kind := hkind
      obtain rfl : _ = String.ofList indent := hindent
      obtain rfl : _ = attributesOf attributes := hattributes
      rfl

theorem parse_of_marked {line : String} {rest : List Char}
    (h : Text.trim line.toList = ';' :: '@' :: rest) :
    parse line =
      (parseBody (line.toList.takeWhile Text.isBlank) (';' :: '@' :: rest) rest).map some := by
  obtain ⟨hbody, hindent⟩ := Text.trimEnd_parts line.toList
  rw [h] at hbody hindent
  simp only [parse, hbody, hindent (List.cons_ne_nil _ _)]

theorem parse_of_unmarked {line : String}
    (h : ∀ rest, Text.trim line.toList ≠ ';' :: '@' :: rest) : parse line = .ok none := by
  obtain ⟨hbody, -⟩ := Text.trimEnd_parts line.toList
  simp only [parse, hbody]

theorem Spells.nodup {text : List Char} {kind : DirectiveKind}
    {attributes : List (List Char × List Char)} (h : Spells text kind attributes) :
    (attributes.map Prod.fst).Nodup := by
  cases h with
  | intro _ hnodup => exact hnodup

theorem Spells.exists_rest {text : List Char} {kind : DirectiveKind}
    {attributes : List (List Char × List Char)} (h : Spells text kind attributes) :
    ∃ rest, text = ';' :: '@' :: rest := by
  cases h with
  | intro => exact ⟨_, rfl⟩

theorem parse_eq_some_iff {line : String} {d : Directive} :
    parse line = .ok (some d) ↔
      ∃ attributes, Spells (Text.trim line.toList) d.kind attributes ∧
        d.indent = String.ofList (line.toList.takeWhile Text.isBlank) ∧
        d.attributes = attributesOf attributes := by
  by_cases h : ∃ rest, Text.trim line.toList = ';' :: '@' :: rest
  · obtain ⟨rest, hrest⟩ := h
    rw [parse_of_marked hrest, hrest,
      ← @parseBody_eq_ok_iff (line.toList.takeWhile Text.isBlank) (';' :: '@' :: rest) rest d]
    cases parseBody _ _ rest <;> simp [Except.map]
  · rw [parse_of_unmarked (not_exists.1 h)]
    constructor
    · rintro ⟨⟩
    · rintro ⟨attributes, hspells, -⟩
      exact absurd hspells.exists_rest h

theorem exists_parse_iff {line : String} :
    (∃ d, parse line = .ok (some d)) ↔
      ∃ kind attributes, Spells (Text.trim line.toList) kind attributes := by
  constructor
  · rintro ⟨d, hd⟩
    obtain ⟨attributes, hspells, -⟩ := parse_eq_some_iff.1 hd
    exact ⟨d.kind, attributes, hspells⟩
  · rintro ⟨kind, attributes, hspells⟩
    exact ⟨⟨kind, _, _⟩, parse_eq_some_iff.2 ⟨attributes, hspells, rfl, rfl⟩⟩

theorem prefix_iff {text : List Char} :
    [';', '@'] <+: text ↔ ∃ rest, text = ';' :: '@' :: rest :=
  ⟨fun ⟨rest, hrest⟩ => ⟨rest, hrest.symm⟩, fun ⟨rest, hrest⟩ => ⟨rest, hrest.symm⟩⟩

theorem parse_eq_none_iff {line : String} :
    parse line = .ok none ↔ ¬ [';', '@'] <+: Text.trim line.toList := by
  rw [prefix_iff]
  constructor
  · rintro hnone ⟨rest, hrest⟩
    rw [parse_of_marked hrest] at hnone
    cases hread : parseBody (line.toList.takeWhile Text.isBlank) (';' :: '@' :: rest) rest with
    | error fault =>
      rw [hread] at hnone
      cases hnone
    | ok d =>
      rw [hread] at hnone
      cases hnone
  · intro h
    exact parse_of_unmarked (not_exists.1 h)

/-- A line that has the marker and spells no directive is refused, as a declaration. -/
theorem read_eq_error_iff {line : String} (number : Nat) :
    (∃ failure, Line.read number (.ok line) = .error failure ∧ failure.kind = .declaration) ↔
      [';', '@'] <+: Text.trim line.toList ∧
        ¬ ∃ kind attributes, Spells (Text.trim line.toList) kind attributes := by
  cases hparse : parse line with
  | error fault =>
    have hmarked : [';', '@'] <+: Text.trim line.toList := by
      by_contra hunmarked
      rw [parse_eq_none_iff.2 hunmarked] at hparse
      cases hparse
    have hnone : ¬ ∃ kind attributes, Spells (Text.trim line.toList) kind attributes := by
      intro hspells
      obtain ⟨d, hd⟩ := exists_parse_iff.2 hspells
      rw [hparse] at hd
      cases hd
    have hread : Line.read number (.ok line) = .error (.declaration (.badDirective fault)) := by
      simp only [Line.read, hparse]
    exact ⟨fun _ => ⟨hmarked, hnone⟩, fun _ => ⟨_, hread, rfl⟩⟩
  | ok directive =>
    have hread : Line.read number (.ok line) = .ok ⟨number, line, directive⟩ := by
      simp only [Line.read, hparse]
    constructor
    · rintro ⟨failure, hfailure, -⟩
      rw [hread] at hfailure
      cases hfailure
    · rintro ⟨hmarked, hnone⟩
      cases directive with
      | none => exact absurd hmarked (parse_eq_none_iff.1 hparse)
      | some d => exact absurd (exists_parse_iff.1 ⟨d, hparse⟩) hnone

theorem lookup_attributesOf_eq_some_iff {attributes : List (List Char × List Char)}
    (hnodup : (attributes.map Prod.fst).Nodup) {key value : String} :
    (attributesOf attributes).lookup key = some value ↔
      ∃ written, (key.toList, written) ∈ attributes ∧
        value = String.ofList (Text.trim written) := by
  induction attributes with
  | nil => simp [attributesOf]
  | cons first others ih =>
    obtain ⟨other, written⟩ := first
    rw [List.map_cons, List.nodup_cons] at hnodup
    have hcons : attributesOf ((other, written) :: others) =
        (String.ofList other, String.ofList (Text.trim written)) :: attributesOf others := rfl
    rw [hcons, List.lookup_cons]
    split
    · rename_i hkey
      obtain rfl : key = String.ofList other := eq_of_beq hkey
      rw [String.toList_ofList, Option.some.injEq]
      constructor
      · rintro rfl
        exact ⟨written, List.mem_cons_self, rfl⟩
      · rintro ⟨found, hmem, rfl⟩
        rcases List.mem_cons.1 hmem with heq | hmem
        · rw [(Prod.mk.inj heq).2]
        · exact absurd (List.mem_map.2 ⟨_, hmem, rfl⟩) hnodup.1
    · rename_i hkey
      rw [ih hnodup.2]
      have hne : key.toList ≠ other := by
        rintro rfl
        simp at hkey
      simp [hne]

/-- The directive is what the line says: what is blank before the marker is its indentation, and the
value of a key is what is written for it, trimmed. -/
structure ReadOff (d : Directive) (line : List Char) (attributes : List (List Char × List Char)) :
    Prop where
  spelled : Spells (Text.trim line) d.kind attributes
  indent_eq : d.indent = String.ofList (line.takeWhile Text.isBlank)
  attributes_eq : d.attributes = attributesOf attributes
  value?_eq_some_iff : ∀ key value, d.value? key = some value ↔
    ∃ written, (key.toList, written) ∈ attributes ∧ value = String.ofList (Text.trim written)

theorem parse_iff_readOff {line : String} {d : Directive} :
    parse line = .ok (some d) ↔ ∃ attributes, d.ReadOff line.toList attributes := by
  rw [parse_eq_some_iff]
  constructor
  · rintro ⟨attributes, hspells, hindent, hattributes⟩
    refine ⟨attributes, hspells, hindent, hattributes, fun key value => ?_⟩
    rw [value?, hattributes, lookup_attributesOf_eq_some_iff hspells.nodup]
  · rintro ⟨attributes, h⟩
    exact ⟨attributes, h.spelled, h.indent_eq, h.attributes_eq⟩

/-! ### Printing -/

/-- An attribute with the blanks that are put around its value. -/
structure Padded where
  key : String
  before : String
  value : String
  after : String
  deriving DecidableEq, Repr

namespace Padded

def text (a : Padded) : String := "|" ++ a.key ++ "=" ++ a.before ++ a.value ++ a.after

def written (a : Padded) : List Char × List Char :=
  (a.key.toList, a.before.toList ++ a.value.toList ++ a.after.toList)

/-- A value that is trimmed and holds no bar, between blanks. -/
structure Sound (a : Padded) : Prop where
  key_ne_empty : a.key ≠ ""
  nameChar : ∀ c ∈ a.key.toList, NameChar c
  unbarred : '|' ∉ a.value.toList
  trimmed : Text.trim a.value.toList = a.value.toList
  blank_before : ∀ c ∈ a.before.toList, Text.isBlank c
  blank_after : ∀ c ∈ a.after.toList, Text.isBlank c

theorem Sound.writable {a : Padded} (h : a.Sound) : Writable a.written where
  key_ne_nil := by simpa [written] using h.key_ne_empty
  nameChar := h.nameChar
  unbarred := by
    simp only [written, List.mem_append, not_or]
    refine ⟨⟨fun hbar => ?_, h.unbarred⟩, fun hbar => ?_⟩
    · exact absurd (h.blank_before _ hbar) (by decide)
    · exact absurd (h.blank_after _ hbar) (by decide)

theorem Sound.trim_written {a : Padded} (h : a.Sound) :
    Text.trim a.written.2 = a.value.toList := by
  obtain ⟨-, -, -, -, -, hfirst, hlast⟩ := Text.exists_trim a.value.toList
  rw [h.trimmed] at hfirst hlast
  exact Text.trim_append h.blank_before h.blank_after hfirst hlast

theorem toList_text (a : Padded) : a.text.toList = attributeText a.written := by
  simp [text, attributeText, written]

end Padded

/-- What the end of a directive is trimmed of are blanks of its last value. -/
theorem Spells.trimEnd {text : List Char} {kind : DirectiveKind}
    {attributes : List (List Char × List Char)} (h : Spells text kind attributes) :
    ∃ trimmed, Spells (Text.trimEnd text) kind trimmed ∧
      attributesOf trimmed = attributesOf attributes := by
  cases h with
  | intro hall hnodup =>
    rcases List.eq_nil_or_concat attributes with rfl | ⟨others, ⟨key, value⟩, rfl⟩
    · have hlast : ∀ c ∈ (';' :: '@' :: kind.text.toList).getLast?, Text.isBlank c = false := by
        intro c hc
        have hnamed : (';' :: '@' :: kind.text.toList).getLast?.all (!Text.isBlank ·) = true := by
          cases kind <;> decide
        rw [Option.mem_def.1 hc] at hnamed
        simpa using hnamed
      refine ⟨[], ?_, rfl⟩
      have hspells : Spells _ kind [] := .intro hall hnodup
      rw [List.flatMap_nil, List.append_nil] at hspells ⊢
      rwa [Text.trimEnd_eq_self hlast]
    · rw [List.concat_eq_append] at hall hnodup ⊢
      obtain ⟨hothers, hlast⟩ := List.forall_mem_append.1 hall
      have hwritable := hlast (key, value) List.mem_cons_self
      have htrimmed : Writable (key, Text.trimEnd value) :=
        ⟨hwritable.key_ne_nil, hwritable.nameChar,
          fun hbar => hwritable.unbarred (Text.trimEnd_subset value hbar)⟩
      -- the text ends with the last value, behind an equals sign that is not blank
      have htext (written : List Char) :
          ';' :: '@' :: (kind.text.toList ++ (others ++ [(key, written)]).flatMap attributeText) =
            (';' :: '@' :: (kind.text.toList ++ others.flatMap attributeText ++ '|' :: key)) ++
              '=' :: written := by
        simp [attributeText]
      refine ⟨others ++ [(key, Text.trimEnd value)], ?_, ?_⟩
      · rw [htext, Text.trimEnd_append_cons _ _ (by decide), ← htext]
        refine .intro (List.forall_mem_append.2 ⟨hothers, List.forall_mem_singleton.2 htrimmed⟩) ?_
        simpa using hnodup
      · simp [attributesOf, Text.trim_trimEnd]

/-- How a directive is laid out in a line: what is before it, its parts, and what is behind it. -/
structure Layout where
  indent : String
  kind : DirectiveKind
  attributes : List Padded
  after : String
  deriving DecidableEq, Repr

namespace Layout

def line (l : Layout) : String :=
  l.indent ++ ";@" ++ l.kind.text ++ String.join (l.attributes.map Padded.text) ++ l.after

def directive (l : Layout) : Directive :=
  ⟨l.kind, l.indent, l.attributes.map fun a => (a.key, a.value)⟩

/-- What stands around the directive is blank, and each key is given once. -/
structure Sound (l : Layout) : Prop where
  blank_indent : ∀ c ∈ l.indent.toList, Text.isBlank c
  blank_after : ∀ c ∈ l.after.toList, Text.isBlank c
  attributes : ∀ a ∈ l.attributes, a.Sound
  nodup : (l.attributes.map Padded.key).Nodup

variable {l : Layout}

def body (l : Layout) : List Char :=
  ';' :: '@' :: (l.kind.text.toList ++ (l.attributes.map Padded.written).flatMap attributeText)

theorem toList_line (l : Layout) :
    l.line.toList = l.indent.toList ++ (l.body ++ l.after.toList) := by
  simp [line, body, List.flatMap_map, Padded.toList_text]

theorem Sound.spells (h : l.Sound) : Spells l.body l.kind (l.attributes.map Padded.written) := by
  refine .intro ?_ ?_
  · rw [List.forall_mem_map]
    exact fun a ha => (h.attributes a ha).writable
  · have hkeys : (l.attributes.map Padded.written).map Prod.fst =
        (l.attributes.map Padded.key).map String.toList := by
      simp [Padded.written]
    rw [hkeys]
    exact List.Nodup.map (fun _ _ => String.toList_inj.1) h.nodup

theorem Sound.attributesOf_written (h : l.Sound) :
    attributesOf (l.attributes.map Padded.written) = l.directive.attributes := by
  rw [attributesOf, List.map_map, directive]
  refine List.map_congr_left fun a ha => ?_
  simp only [Function.comp_apply, (h.attributes a ha).trim_written]
  simp [Padded.written]

theorem Sound.parse_line (h : l.Sound) : parse l.line = .ok (some l.directive) := by
  obtain ⟨trimmed, htrimmed, hattributes⟩ := h.spells.trimEnd
  have hkept : Text.isBlank ';' = false := by decide
  have htrim : Text.trim l.line.toList = Text.trimEnd l.body := by
    rw [l.toList_line, Text.trim, Text.trimStart, List.dropWhile_append_of_pos h.blank_indent, body,
      List.cons_append, List.dropWhile_cons_of_neg (by simp [hkept]), ← List.cons_append,
      Text.trimEnd_append_of_blank h.blank_after]
  have hindent : l.line.toList.takeWhile Text.isBlank = l.indent.toList := by
    rw [l.toList_line, List.takeWhile_append_of_pos h.blank_indent, body, List.cons_append,
      List.takeWhile_cons_of_neg (by simp [hkept]), List.append_nil]
  refine parse_eq_some_iff.2 ⟨trimmed, htrim ▸ htrimmed, ?_, ?_⟩
  · rw [hindent, String.ofList_toList]
    rfl
  · rw [hattributes, h.attributesOf_written]

end Layout

/-- The lines that are directives, and what they are read as. A line is none if what is left of it
by trimming does not start with the marker; it is a directive if that spells one, and is read as
what it says; any other line is refused as a declaration. Whatever a directive is laid out with,
the line is read as that directive. -/
theorem parse_reads_spelled :
    (∀ line : String,
      (parse line = .ok none ↔ ¬ [';', '@'] <+: Text.trim line.toList) ∧
      ((∃ d, parse line = .ok (some d)) ↔
        ∃ kind attributes, Spells (Text.trim line.toList) kind attributes) ∧
      (∀ d, parse line = .ok (some d) ↔ ∃ attributes, d.ReadOff line.toList attributes) ∧
      ∀ number, (∃ failure, Line.read number (.ok line) = .error failure ∧
          failure.kind = .declaration) ↔
        [';', '@'] <+: Text.trim line.toList ∧
          ¬ ∃ kind attributes, Spells (Text.trim line.toList) kind attributes) ∧
    ∀ l : Layout, l.Sound → parse l.line = .ok (some l.directive) :=
  ⟨fun _ => ⟨parse_eq_none_iff, exists_parse_iff, fun _ => parse_iff_readOff, read_eq_error_iff⟩,
    fun _ h => h.parse_line⟩

theorem parse_reads_spelled_padded :
    let l : Layout := ⟨"\t  ", .classHeader, [⟨"name", "", "pkg/A", " "⟩,
      ⟨"flags", "\u3000", "public final", ""⟩, ⟨"super", "", "pkg/B", "  "⟩], " "⟩
    l.Sound ∧ l.line = "\t  ;@class|name=pkg/A |flags=\u3000public final|super=pkg/B   " ∧
      parse l.line = .ok (some l.directive) := by
  intro l
  have hsound : l.Sound := by
    refine ⟨List.all_eq_true.1 (by decide), List.all_eq_true.1 (by decide), ?_, by decide⟩
    intro a ha
    have hname (key : List Char) (h : key.all isNameChar = true) : ∀ c ∈ key, NameChar c :=
      fun c hc => isNameChar_iff.1 (List.all_eq_true.1 h c hc)
    simp only [l, List.mem_cons, List.not_mem_nil, or_false] at ha
    rcases ha with rfl | rfl | rfl
    all_goals
      exact ⟨by decide, hname _ (by decide), by decide, by decide,
        List.all_eq_true.1 (by decide), List.all_eq_true.1 (by decide)⟩
  exact ⟨hsound, by decide, parse_reads_spelled.2 l hsound⟩

end Directive
end UnitLink
