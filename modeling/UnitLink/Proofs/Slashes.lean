import Mathlib.Data.List.TakeWhile
import UnitLink.Directive
import UnitLink.ClassName
import UnitLink.Proofs.Alone
/-! Dots in the place of slashes. Nothing that takes assembly text apart, into lines, directives,
attributes or the parts of a signature, tells a dot from a slash. So texts that differ in these
alone come apart at the same places, and a class name is the same name in the end. -/
namespace UnitLink

/-! ### Slashed text -/

section Text

variable {p : Char → Bool}

theorem slashed_cons (c : Char) (cs : List Char) :
    slashed (c :: cs) = (if c = '.' then '/' else c) :: slashed cs := rfl

@[simp] theorem slashed_slashed (cs : List Char) : slashed (slashed cs) = slashed cs :=
  ClassName.slashed_eq_self (ClassName.dot_not_mem_slashed cs)

theorem slashed_reverse (cs : List Char) : slashed cs.reverse = (slashed cs).reverse :=
  List.map_reverse

theorem slashed_eq_nil_iff {cs : List Char} : slashed cs = [] ↔ cs = [] := List.map_eq_nil_iff

/-- A test that does not tell a dot from a slash. -/
def Undotted (p : Char → Bool) : Prop := p '.' = p '/'

theorem Undotted.comp (hp : Undotted p) : (p ∘ fun c => if c = '.' then '/' else c) = p := by
  funext c
  simp only [Function.comp_apply]
  split
  · rename_i hc
    rw [hc]
    exact hp.symm
  · rfl

theorem Undotted.takeWhile (hp : Undotted p) (cs : List Char) :
    (slashed cs).takeWhile p = slashed (cs.takeWhile p) := by
  rw [slashed, List.takeWhile_map, hp.comp]
  rfl

theorem Undotted.dropWhile (hp : Undotted p) (cs : List Char) :
    (slashed cs).dropWhile p = slashed (cs.dropWhile p) := by
  rw [slashed, List.dropWhile_map, hp.comp]
  rfl

theorem Undotted.pieces (hp : Undotted p) (cs : List Char) :
    Text.pieces p (slashed cs) = (Text.pieces p cs).map slashed := by
  induction cs with
  | nil => rfl
  | cons c cs ih =>
    have hc : p (if c = '.' then '/' else c) = p c := congrFun hp.comp c
    rw [slashed_cons, Text.pieces, Text.pieces, hc, ih]
    split
    · rfl
    · cases Text.pieces p cs <;> rfl

theorem Undotted.cutFirst (hp : Undotted p) (cs : List Char) :
    Text.cutFirst p (slashed cs) =
      (Text.cutFirst p cs).map fun (before, after) => (slashed before, slashed after) := by
  have hnot : Undotted fun c => !p c := congrArg Bool.not hp
  unfold Text.cutFirst
  rw [hnot.dropWhile, hnot.takeWhile]
  cases cs.dropWhile fun c => !p c <;> rfl

theorem Undotted.cutLast (hp : Undotted p) (cs : List Char) :
    Text.cutLast p (slashed cs) =
      (Text.cutLast p cs).map fun (before, after) => (slashed before, slashed after) := by
  unfold Text.cutLast
  rw [← slashed_reverse, hp.cutFirst]
  cases Text.cutFirst p cs.reverse with
  | none => rfl
  | some cut => simp [slashed_reverse]

theorem undotted_isBlank : Undotted Text.isBlank := by unfold Undotted; decide

theorem slashed_trimEnd (cs : List Char) :
    slashed (Text.trimEnd cs) = Text.trimEnd (slashed cs) := by
  unfold Text.trimEnd
  rw [slashed_reverse, ← undotted_isBlank.dropWhile, slashed_reverse]

theorem slashed_trim (cs : List Char) : slashed (Text.trim cs) = Text.trim (slashed cs) := by
  unfold Text.trim Text.trimStart
  rw [slashed_trimEnd, undotted_isBlank.dropWhile]

/-- Text without dots and slashes is the same as any that differs in these alone. -/
theorem eq_of_slashed_eq {cs ds : List Char} (h : slashed ds = slashed cs)
    (hcs : ∀ c ∈ cs, c ≠ '.' ∧ c ≠ '/') : ds = cs := by
  rw [ClassName.slashed_eq_self fun hdot => (hcs _ hdot).1 rfl] at h
  rw [← h]
  refine (ClassName.slashed_eq_self fun hdot => ?_).symm
  have hslash : '/' ∈ cs := by
    rw [← h]
    exact List.mem_map.2 ⟨'.', hdot, rfl⟩
  exact (hcs _ hslash).2 rfl

theorem takeWhile_eq_of_slashed_eq {cs ds : List Char} (h : slashed ds = slashed cs)
    (hp : p '.' = false ∧ p '/' = false) : ds.takeWhile p = cs.takeWhile p := by
  have hundotted : Undotted p := hp.1.trans hp.2.symm
  refine eq_of_slashed_eq ?_ fun c hc => ?_
  · rw [← hundotted.takeWhile, h, hundotted.takeWhile]
  · have hpc := List.mem_takeWhile_imp hc
    constructor
    · rintro rfl
      rw [hp.1] at hpc
      cases hpc
    · rintro rfl
      rw [hp.2] at hpc
      cases hpc

end Text

/-- The text with all its dots replaced. -/
def slashedText (text : String) : String := String.ofList (slashed text.toList)

/-- Texts that are the same but for dots and slashes in each other's place. -/
def SpelledAlike (a b : String) : Prop := slashedText b = slashedText a

instance : DecidableRel SpelledAlike := fun a b =>
  inferInstanceAs (Decidable (slashedText b = slashedText a))

theorem spelledAlike_iff {a b : String} : SpelledAlike a b ↔ slashed b.toList = slashed a.toList :=
  ⟨fun h => String.ofList_injective h, congrArg String.ofList⟩

theorem SpelledAlike.eq_empty_iff {a b : String} (h : SpelledAlike a b) : b = "" ↔ a = "" := by
  rw [← String.toList_eq_nil_iff, ← String.toList_eq_nil_iff, ← slashed_eq_nil_iff,
    spelledAlike_iff.1 h, slashed_eq_nil_iff]

namespace Directive

/-! ### Directives -/

theorem undotted_isNameChar : Undotted isNameChar := by unfold Undotted; decide

theorem undotted_notBar : Undotted (· != '|') := by unfold Undotted; decide

/-- The directive with all dots of its values replaced. -/
def slashed (d : Directive) : Directive :=
  { d with attributes := d.attributes.map fun (key, value) => (key, slashedText value) }

theorem eq_of_slashed_char {c k : Char} (hk : k ≠ '.' ∧ k ≠ '/') :
    (if c = '.' then '/' else c) = k ↔ c = k := by
  split
  · rename_i hc
    rw [hc]
    exact ⟨fun h => absurd h.symm hk.2, fun h => absurd h.symm hk.1⟩
  · exact Iff.rfl

theorem takeAttribute_of_ne_bar {c : Char} (hc : c ≠ '|') (cs : List Char) :
    takeAttribute (c :: cs) = none := by
  unfold takeAttribute
  split
  · rename_i heq
    exact absurd (List.cons.inj heq).1 hc
  · rfl

theorem takeAttribute_slashed (cs : List Char) :
    takeAttribute (UnitLink.slashed cs) = (takeAttribute cs).map fun ((key, value), rest) =>
      ((key, UnitLink.slashed value), UnitLink.slashed rest) := by
  cases cs with
  | nil => rfl
  | cons c cs =>
    by_cases hbar : c = '|'
    · subst hbar
      have hname : (UnitLink.slashed cs).takeWhile isNameChar = cs.takeWhile isNameChar :=
        takeWhile_eq_of_slashed_eq (slashed_slashed cs) (by decide)
      rw [slashed_cons, if_neg (by decide)]
      unfold takeAttribute
      simp only [hname, undotted_isNameChar.dropWhile]
      split
      · rfl
      · cases cs.dropWhile isNameChar with
        | nil => rfl
        | cons e value =>
          rw [slashed_cons]
          by_cases he : e = '='
          · subst he
            simp [undotted_notBar.takeWhile, undotted_notBar.dropWhile]
          · have he' : (if e = '.' then '/' else e) ≠ '=' :=
              fun h => he ((eq_of_slashed_char (by decide)).1 h)
            split
            · rename_i heq
              exact absurd (List.cons.inj heq).1 he'
            · split
              · rename_i heq
                exact absurd (List.cons.inj heq).1 he
              · rfl
    · have hbar' : (if c = '.' then '/' else c) ≠ '|' :=
        fun h => hbar ((eq_of_slashed_char (by decide)).1 h)
      rw [slashed_cons, takeAttribute_of_ne_bar hbar', takeAttribute_of_ne_bar hbar]
      rfl

theorem takeAttributes_slashed (cs : List Char) :
    takeAttributes (UnitLink.slashed cs) =
      ((takeAttributes cs).1.map fun (key, value) => (key, UnitLink.slashed value),
        UnitLink.slashed (takeAttributes cs).2) := by
  induction cs using takeAttributes.induct with
  | case1 cs hnone =>
    have hnone' : takeAttribute (UnitLink.slashed cs) = none := by
      rw [takeAttribute_slashed, hnone]
      rfl
    rw [takeAttributes_of_none hnone, takeAttributes_of_none hnone']
    rfl
  | case2 cs first rest hsome _ _ _ ih =>
    have hsome' : takeAttribute (UnitLink.slashed cs) =
        some ((first.1, UnitLink.slashed first.2), UnitLink.slashed rest) := by
      rw [takeAttribute_slashed, hsome]
      rfl
    rw [takeAttributes_of_some hsome, takeAttributes_of_some hsome', ih]
    rfl

theorem repeatedKey?_map (seen : List (List Char)) (attributes : List (List Char × List Char))
    (f : List Char → List Char) :
    repeatedKey? seen (attributes.map fun (key, value) => (key, f value)) =
      repeatedKey? seen attributes := by
  induction attributes generalizing seen with
  | nil => rfl
  | cons first attributes ih =>
    obtain ⟨key, value⟩ := first
    rw [List.map_cons, repeatedKey?, repeatedKey?, ih]

theorem parseBody_slashed (indent body rest : List Char) :
    (parseBody indent (UnitLink.slashed body) (UnitLink.slashed rest)).toOption =
      (parseBody indent body rest).toOption.map slashed := by
  have hname : (UnitLink.slashed rest).takeWhile isNameChar = rest.takeWhile isNameChar :=
    takeWhile_eq_of_slashed_eq (slashed_slashed rest) (by decide)
  unfold parseBody
  simp only [hname, undotted_isNameChar.dropWhile, takeAttributes_slashed, repeatedKey?_map,
    ne_eq, slashed_eq_nil_iff]
  split
  · rfl
  · split
    · rfl
    · cases DirectiveKind.ofText? (String.ofList (rest.takeWhile isNameChar)) with
      | none => rfl
      | some kind =>
        simp only
        cases repeatedKey? [] (takeAttributes (rest.dropWhile isNameChar)).1 with
        | some key => rfl
        | none =>
          simp only [Except.toOption, Option.map_some, slashed, List.map_map]
          congr 2
          refine List.map_congr_left fun pair _ => ?_
          simp [slashedText, slashed_trim]

theorem marked_of_slashed {cs rest : List Char} (h : UnitLink.slashed cs = ';' :: '@' :: rest) :
    ∃ rest', cs = ';' :: '@' :: rest' ∧ rest = UnitLink.slashed rest' := by
  obtain _ | ⟨c, _ | ⟨e, rest'⟩⟩ := cs
  · cases h
  · exact absurd (List.cons.inj h).2.symm (List.cons_ne_nil _ _)
  · rw [slashed_cons, slashed_cons] at h
    obtain ⟨hc, h⟩ := List.cons.inj h
    obtain ⟨he, h⟩ := List.cons.inj h
    rw [eq_of_slashed_char (by decide)] at hc he
    exact ⟨rest', by rw [hc, he], h.symm⟩

/-- Replacing dots before a directive is read comes to the same as replacing them after. -/
theorem parse_slashed (line : String) :
    (parse (slashedText line)).toOption = (parse line).toOption.map (Option.map slashed) := by
  have hblank : (UnitLink.slashed (Text.trimEnd line.toList)).takeWhile Text.isBlank =
      (Text.trimEnd line.toList).takeWhile Text.isBlank :=
    takeWhile_eq_of_slashed_eq (slashed_slashed _) (by decide)
  unfold parse
  rw [slashedText, String.toList_ofList, ← slashed_trimEnd]
  simp only [hblank, undotted_isBlank.dropWhile]
  generalize (Text.trimEnd line.toList).takeWhile Text.isBlank = indent
  generalize (Text.trimEnd line.toList).dropWhile Text.isBlank = body
  split
  · rename_i rest heq
    obtain ⟨rest', rfl, rfl⟩ := marked_of_slashed heq
    have hread := parseBody_slashed indent (';' :: '@' :: rest') rest'
    rw [heq] at hread
    cases hx : parseBody indent (';' :: '@' :: rest') rest' <;>
      cases hy : parseBody indent (';' :: '@' :: UnitLink.slashed rest')
        (UnitLink.slashed rest') <;>
      simp_all [Except.toOption, Except.map]
  · rename_i hnone
    split
    · exact absurd rfl (hnone _)
    · rfl

/-! ### What may be respelled -/

/-- The part of a value in which dots and slashes are not in each other's place: nothing of a
class's name and of those of its supertypes, what follows the qualified name in the signature of
a reference, and all of any other value. -/
def fixedPart (kind : DirectiveKind) (key value : String) : List Char :=
  match kind, key with
  | .classHeader, "name" | .classHeader, "super" | .classHeader, "implements" => []
  | .invokeEnd, "sig" | .classOf, "sig" => (Text.trim value.toList).dropWhile (· != '(')
  | .readField, "sig" => (Text.trim value.toList).dropWhile fun c => !Text.isBlank c
  | _, _ => value.toList

/-- The keys of a directive and, as far as they are fixed, its values are those of the other. -/
def SameFixed (d d' : Directive) : Prop :=
  (d'.attributes.map fun (key, value) => (key, fixedPart d.kind key value)) =
    d.attributes.map fun (key, value) => (key, fixedPart d.kind key value)

/-- The same directive, but for dots and slashes where these may be in each other's place. -/
structure Respelled (d d' : Directive) : Prop where
  slashed_eq : d'.slashed = d.slashed
  same_fixed : d.SameFixed d'

theorem lookup_map {β : Type} (f : String → String → β) (key : String)
    (attributes : List (String × String)) :
    (attributes.map fun (key, value) => (key, f key value)).lookup key =
      (attributes.lookup key).map (f key) := by
  induction attributes with
  | nil => rfl
  | cons first others ih =>
    obtain ⟨other, value⟩ := first
    simp only [List.map_cons, List.lookup_cons, ih]
    cases hkey : key == other with
    | true => rw [eq_of_beq hkey]; rfl
    | false => rfl

theorem value?_slashed (d : Directive) (key : String) :
    d.slashed.value? key = (d.value? key).map slashedText :=
  lookup_map (fun _ value => slashedText value) key d.attributes

namespace Respelled

variable {d d' : Directive}

theorem kind_eq (h : d.Respelled d') : d'.kind = d.kind :=
  show d'.slashed.kind = d.slashed.kind by rw [h.slashed_eq]

theorem indent_eq (h : d.Respelled d') : d'.indent = d.indent :=
  show d'.slashed.indent = d.slashed.indent by rw [h.slashed_eq]

theorem symm (h : d.Respelled d') : d'.Respelled d where
  slashed_eq := h.slashed_eq.symm
  same_fixed := by
    unfold SameFixed
    rw [h.kind_eq, h.same_fixed]

theorem map_fixedPart (h : d.Respelled d') (key : String) :
    (d'.value? key).map (fixedPart d.kind key) = (d.value? key).map (fixedPart d.kind key) := by
  rw [value?, value?, ← lookup_map (fixedPart d.kind), h.same_fixed, lookup_map]

theorem value?_eq (h : d.Respelled d') (key : String)
    (hkey : ∀ value, fixedPart d.kind key value = value.toList) : d'.value? key = d.value? key := by
  have hfixed : fixedPart d.kind key = String.toList := funext hkey
  have heq := h.map_fixedPart key
  rw [hfixed] at heq
  exact Option.map_injective (fun _ _ => String.toList_inj.1) heq

theorem value?_alike (h : d.Respelled d') (key : String) :
    (d.value? key = none ∧ d'.value? key = none) ∨
      ∃ value value', d.value? key = some value ∧ d'.value? key = some value' ∧
        SpelledAlike value value' := by
  have hboth : (d'.value? key).map slashedText = (d.value? key).map slashedText := by
    rw [← value?_slashed, ← value?_slashed, h.slashed_eq]
  cases hvalue : d.value? key with
  | none =>
    rw [hvalue] at hboth
    exact .inl ⟨rfl, Option.map_eq_none_iff.1 hboth⟩
  | some value =>
    rw [hvalue] at hboth
    obtain ⟨value', hvalue', halike⟩ := Option.map_eq_some_iff.1 hboth
    exact .inr ⟨value, value', rfl, hvalue', halike⟩

end Respelled
end Directive

/-- Two readings of which, if both are directives, the one has the fixed values of the other. -/
def SameReading : (reading reading' : Except DirectiveFault (Option Directive)) → Prop
  | .ok (some d), .ok (some d') => d.SameFixed d'
  | _, _ => True

instance : DecidableRel SameReading
  | .ok (some _), .ok (some _) => inferInstanceAs (Decidable (_ = _))
  | .ok (some _), .ok none => isTrue trivial
  | .ok (some _), .error _ => isTrue trivial
  | .ok none, _ => isTrue trivial
  | .error _, _ => isTrue trivial

theorem sameReading_iff {reading reading' : Except DirectiveFault (Option Directive)} :
    SameReading reading reading' ↔
      ∀ d d', reading = .ok (some d) → reading' = .ok (some d') → d.SameFixed d' := by
  unfold SameReading
  split
  · simp
  · rename_i hnot
    exact ⟨fun _ d d' hd hd' => absurd hd' (hnot d d' hd), fun _ => trivial⟩

/-- Lines that differ in dots and slashes at most, and in these only where a directive's may be
in each other's place. -/
structure LineRespelled (line line' : String) : Prop where
  alike : SpelledAlike line line'
  eq_of_no_directive : Directive.parse line = .ok none → line' = line
  same_reading : SameReading (Directive.parse line) (Directive.parse line')

instance (line line' : String) : Decidable (LineRespelled line line') :=
  decidable_of_iff (slashedText line' = slashedText line ∧
      (Directive.parse line = .ok none → line' = line) ∧
      SameReading (Directive.parse line) (Directive.parse line'))
    ⟨fun ⟨halike, heq, hsame⟩ => ⟨halike, heq, hsame⟩,
      fun ⟨halike, heq, hsame⟩ => ⟨halike, heq, hsame⟩⟩

namespace LineRespelled

variable {line line' : String}

theorem parse_alike (h : SpelledAlike line line') :
    (Directive.parse line').toOption.map (Option.map Directive.slashed) =
      (Directive.parse line).toOption.map (Option.map Directive.slashed) := by
  rw [← Directive.parse_slashed, ← Directive.parse_slashed, show slashedText line' = _ from h]

theorem exists_directive (h : LineRespelled line line') {d : Directive}
    (hparsed : Directive.parse line = .ok (some d)) :
    ∃ d', Directive.parse line' = .ok (some d') ∧ d.Respelled d' := by
  have hboth := parse_alike h.alike
  have hsame := h.same_reading
  rw [hparsed] at hboth hsame
  cases hparsed' : Directive.parse line' with
  | error fault =>
    rw [hparsed'] at hboth
    cases hboth
  | ok directive =>
    rw [hparsed'] at hboth hsame
    cases directive with
    | none => cases hboth
    | some d' =>
      have hslashed : d'.slashed = d.slashed := by
        simpa [Except.toOption] using hboth
      exact ⟨d', rfl, hslashed, hsame⟩

protected theorem refl (line : String) : LineRespelled line line where
  alike := rfl
  eq_of_no_directive _ := rfl
  same_reading := sameReading_iff.2 fun d d' hd hd' => by
    obtain rfl := Option.some.inj (Except.ok.inj (hd.symm.trans hd'))
    rfl

theorem symm (h : LineRespelled line line') : LineRespelled line' line := by
  have hboth := parse_alike h.alike
  refine ⟨h.alike.symm, fun hnone => ?_, ?_⟩
  · rw [hnone] at hboth
    cases hparsed : Directive.parse line with
    | error fault =>
      rw [hparsed] at hboth
      cases hboth
    | ok directive =>
      cases directive with
      | none => exact (h.eq_of_no_directive hparsed).symm
      | some d =>
        rw [hparsed] at hboth
        cases hboth
  · refine sameReading_iff.2 fun d' d hparsed' hparsed => ?_
    obtain ⟨_, hagain, hrespelled⟩ := h.exists_directive hparsed
    obtain rfl := Option.some.inj (Except.ok.inj (hparsed'.symm.trans hagain))
    exact hrespelled.symm.same_fixed

end LineRespelled
end UnitLink
