import Mathlib.Data.List.Perm.Subperm
import Mathlib.Order.Bounds.Basic
import UnitLink.Proofs.Dependencies
/-! The names of glue fields. A stem and a number are put together without anything between them,
so names of different owners can meet; the number is counted on from how many owners there were
until the name is free. -/
namespace UnitLink.GlueFields

/-- Counting on from a number ends at the first one whose name is not taken. -/
inductive CountsTo (stem : String) (issued : List String) : Nat → Nat → Prop
  | free {n : Nat} : stem ++ toString n ∉ issued → CountsTo stem issued n n
  | taken {n last : Nat} : stem ++ toString n ∈ issued → CountsTo stem issued (n + 1) last →
      CountsTo stem issued n last

theorem numbered_injective (stem : String) :
    Function.Injective fun n : Nat => stem ++ toString n := by
  intro m n h
  have hchars := congrArg String.toList h
  simp only [String.toList_append, Nat.toString_eq_ofList_toDigits, String.toList_ofList] at hchars
  have hdigits := List.append_cancel_left hchars
  simpa using congrArg (fun digits => Nat.ofDigitChars 10 digits 0) hdigits

section Counting

variable {stem : String} {issued : List String} {n last : Nat}

theorem countsTo_iff_isLeast :
    CountsTo stem issued n last ↔ IsLeast {k | n ≤ k ∧ stem ++ toString k ∉ issued} last := by
  constructor
  · intro h
    induction h with
    | free hfree => exact ⟨⟨le_rfl, hfree⟩, fun k hk => hk.1⟩
    | @taken n last htaken _ ih =>
      obtain ⟨⟨hle, hfree⟩, hleast⟩ := ih
      refine ⟨⟨by omega, hfree⟩, fun k hk => hleast ⟨?_, hk.2⟩⟩
      have hne : n ≠ k := by
        rintro rfl
        exact hk.2 htaken
      have := hk.1
      omega
  · rintro ⟨⟨hle, hfree⟩, hleast⟩
    induction hle using Nat.decreasingInduction with
    | self => exact .free hfree
    | of_succ k hk ih =>
      have htaken : stem ++ toString k ∈ issued := by
        by_contra hnot
        have := hleast ⟨le_rfl, hnot⟩
        omega
      exact .taken htaken (ih fun other hother => hleast ⟨by have := hother.1; omega, hother.2⟩)

/-- There are no more numbers in a row to count past than there are names taken. -/
theorem length_le_of_taken (stem : String) {m : Nat}
    (h : ∀ k, n ≤ k → k < n + m → stem ++ toString k ∈ issued) : m ≤ issued.length := by
  have htaken : (List.range' n m).map (fun k => stem ++ toString k) ⊆ issued := by
    intro name hname
    obtain ⟨k, hk, rfl⟩ := List.mem_map.1 hname
    obtain ⟨hnk, hkm⟩ := List.mem_range'_1.1 hk
    exact h k hnk hkm
  have hrange : (List.range' n m).Nodup := List.nodup_range'
  have hnodup := hrange.map (numbered_injective stem)
  simpa using (hnodup.subperm htaken).length_le

theorem exists_countsTo (stem : String) (issued : List String) (n : Nat) :
    ∃ last, CountsTo stem issued n last := by
  have hfree : ∃ k, n ≤ k ∧ stem ++ toString k ∉ issued := by
    by_contra hall
    have hle : issued.length + 1 ≤ issued.length := by
      apply length_le_of_taken stem
      intro k hnk _
      by_contra hnot
      exact hall ⟨k, hnk, hnot⟩
    omega
  refine ⟨Nat.find hfree, countsTo_iff_isLeast.2 ⟨Nat.find_spec hfree, fun k hk => ?_⟩⟩
  exact Nat.find_min' hfree hk

theorem freshName_of_le (h : CountsTo stem issued n last) {tries : Nat}
    (htries : last ≤ n + tries) : freshName stem issued tries n = stem ++ toString last := by
  induction h generalizing tries with
  | free hfree =>
    cases tries with
    | zero => rfl
    | succ tries => rw [freshName, if_neg hfree]
  | @taken n last htaken hmore ih =>
    have hle := (countsTo_iff_isLeast.1 hmore).1.1
    cases tries with
    | zero => omega
    | succ tries =>
      rw [freshName, if_pos htaken]
      apply ih
      omega

/-- As many tries as there are names taken are enough. -/
theorem freshName_eq (h : CountsTo stem issued n last) :
    freshName stem issued issued.length n = stem ++ toString last := by
  obtain ⟨⟨hle, -⟩, hleast⟩ := countsTo_iff_isLeast.1 h
  have hlength : last - n ≤ issued.length := by
    apply length_le_of_taken stem
    intro k hnk hk
    by_contra hnot
    have := hleast ⟨hnk, hnot⟩
    omega
  apply freshName_of_le h
  omega

end Counting

/-! ### Recording -/

variable {g : GlueFields}

def names (g : GlueFields) : List String := g.fields.map Prod.snd

/-- A new owner gets the name that the count of owners is counted on to. -/
theorem record_eq {owner : ClassName} {last : Nat} (hnew : owner ∉ g.owners)
    (h : CountsTo (stem owner) g.issued g.size last) :
    g.record owner = { g with
      fields := g.fields ++ [(owner, stem owner ++ toString last)]
      issued := (stem owner ++ toString last) :: g.issued } := by
  rw [record, if_neg (mt isSome_find?_iff.1 hnew), freshName_eq h]

/-- The simple name in lower case behind `glue$`, and a number. -/
def fieldName (owner : ClassName) (n : Nat) : String :=
  "glue$" ++ String.ofList (Text.lower owner.simple.toList) ++ toString n

theorem fieldName_eq (owner : ClassName) (n : Nat) :
    fieldName owner n = stem owner ++ toString n := rfl

/-- The name of each owner has the least number that made it unused, from the count of the owners
before on. -/
def Numbered (fields : List (ClassName × String)) : Prop :=
  ∀ earlier owner name later, fields = earlier ++ (owner, name) :: later →
    ∃ n, name = fieldName owner n ∧
      IsLeast {k | earlier.length ≤ k ∧ fieldName owner k ∉ earlier.map Prod.snd} n

/-- What recording keeps. -/
structure WellNamed (g : GlueFields) : Prop where
  issued : ∀ name, name ∈ g.issued ↔ name ∈ g.names
  nodup : g.names.Nodup
  numbered : Numbered g.fields

theorem Numbered.concat {fields : List (ClassName × String)} (h : Numbered fields)
    {owner : ClassName} {n : Nat}
    (hn : IsLeast {k | fields.length ≤ k ∧ fieldName owner k ∉ fields.map Prod.snd} n) :
    Numbered (fields ++ [(owner, fieldName owner n)]) := by
  intro earlier other name later hsplit
  rcases List.eq_nil_or_concat later with rfl | ⟨before, last, rfl⟩
  · obtain ⟨rfl, hlast⟩ := List.append_inj' hsplit rfl
    obtain ⟨rfl, rfl⟩ := Prod.mk.inj (List.singleton_inj.1 hlast)
    exact ⟨n, rfl, hn⟩
  · rw [List.concat_eq_append, ← List.cons_append, ← List.append_assoc] at hsplit
    exact h earlier other name before (List.append_inj' hsplit rfl).1

theorem WellNamed.record (h : g.WellNamed) (owner : ClassName) : (g.record owner).WellNamed := by
  by_cases hmem : owner ∈ g.owners
  · rw [owners_record_of_mem hmem]
    exact h
  · obtain ⟨n, hn⟩ := exists_countsTo (stem owner) g.issued g.size
    have hleast := countsTo_iff_isLeast.1 hn
    have hnames : {k | g.size ≤ k ∧ stem owner ++ toString k ∉ g.issued} =
        {k | g.fields.length ≤ k ∧ fieldName owner k ∉ g.fields.map Prod.snd} := by
      ext k
      simp [h.issued, names, size, fieldName_eq]
    rw [record_eq hmem hn]
    constructor
    · intro name
      simp [names, h.issued, or_comm]
    · have hfree : stem owner ++ toString n ∉ g.names := mt (h.issued _).2 hleast.1.2
      simpa [names] using List.Nodup.concat hfree h.nodup
    · exact h.numbered.concat (hnames ▸ hleast)

theorem WellNamed.foldl_record (h : g.WellNamed) (owners : List ClassName) :
    (owners.foldl GlueFields.record g).WellNamed := by
  induction owners generalizing g with
  | nil => exact h
  | cons owner owners ih => exact ih (h.record owner)

theorem wellNamed_start (context : ClassName) : (start context).WellNamed :=
  WellNamed.record ⟨by simp [names], by simp [names], by simp [Numbered]⟩ context

/-! ### All owners -/

theorem prefix_foldl_record (g : GlueFields) (owners : List ClassName) :
    g.fields <+: (owners.foldl record g).fields := by
  induction owners generalizing g with
  | nil => exact List.prefix_rfl
  | cons owner owners ih =>
    refine List.IsPrefix.trans ?_ (ih (g.record owner))
    by_cases hmem : owner ∈ g.owners
    · have hsame := owners_record_of_mem hmem
      exact (congrArg fields hsame).symm ▸ List.prefix_rfl
    · obtain ⟨n, hn⟩ := exists_countsTo (stem owner) g.issued g.size
      rw [record_eq hmem hn]
      exact List.prefix_append _ _

theorem owners_recorded (context : ClassName) (owners : List ClassName) :
    (owners.foldl record (start context)).owners = (context :: owners).eraseDups := by
  rw [owners_foldl_record, owners_start, List.eraseDups_cons, List.singleton_append]
  congr 2
  unfold List.removeAll
  apply List.filter_congr
  intro owner _
  simp [Bool.beq_eq_decide_eq]

theorem nodup_recorded (context : ClassName) (owners : List ClassName) :
    (owners.foldl record (start context)).owners.Nodup := by
  suffices ∀ g : GlueFields, g.owners.Nodup → (owners.foldl record g).owners.Nodup from
    this _ (by simp [owners_start])
  induction owners with
  | nil => exact fun _ h => h
  | cons owner owners ih => exact fun g h => ih _ (nodup_owners_record h owner)

theorem find?_eq_some_iff (h : g.owners.Nodup) {owner : ClassName} {name : String} :
    g.find? owner = some name ↔ (owner, name) ∈ g.fields := by
  refine ⟨mem_fields_of_find?, fun hmem => ?_⟩
  obtain ⟨before, after, hfields⟩ := List.append_of_mem hmem
  refine List.lookup_eq_some_iff.2 ⟨before, after, hfields, fun field hfield => ?_⟩
  have hne : owner ≠ field.1 := by
    rintro rfl
    rw [owners, hfields, List.map_append, List.nodup_append] at h
    exact h.2.2 _ (List.mem_map_of_mem hfield) _ (by simp) rfl
  simpa using hne

theorem WellNamed.owner_eq (h : g.WellNamed) {a b : ClassName} {name : String}
    (ha : (a, name) ∈ g.fields) (hb : (b, name) ∈ g.fields) : a = b :=
  congrArg Prod.fst (List.inj_on_of_nodup_map h.nodup ha hb rfl)

/-- What the fields are after owners were recorded. -/
structure Names (context : ClassName) (owners : List ClassName) (g : GlueFields) : Prop where
  /-- Counting ends for any other owner, and its field is named with the number counted to. -/
  ends : ∀ owner ∉ g.owners, ∃ n, CountsTo (stem owner) g.issued g.size n ∧
    (g.record owner).fields = g.fields ++ [(owner, fieldName owner n)]
  distinct : ∀ a b name, g.find? a = some name → g.find? b = some name → a = b
  kept : ∀ more : List ClassName, g.fields <+: (more.foldl record g).fields
  first : g.owners.head? = some context
  order : g.owners = (context :: owners).eraseDups
  issued : ∀ name, name ∈ g.issued ↔ ∃ owner, g.find? owner = some name
  numbered : Numbered g.fields

/-- Whatever owners are recorded, their fields have different names, which they keep. -/
theorem names_recorded (context : ClassName) (owners : List ClassName) :
    Names context owners (owners.foldl record (start context)) := by
  have hnamed := (wellNamed_start context).foldl_record owners
  have hnodup := nodup_recorded context owners
  have horder := owners_recorded context owners
  generalize owners.foldl record (start context) = g at hnamed hnodup horder
  constructor
  case ends =>
    intro owner hnew
    obtain ⟨n, hn⟩ := exists_countsTo (stem owner) g.issued g.size
    exact ⟨n, hn, by rw [record_eq hnew hn, fieldName_eq]⟩
  case distinct =>
    intro a b name ha hb
    exact hnamed.owner_eq (mem_fields_of_find? ha) (mem_fields_of_find? hb)
  case kept => exact g.prefix_foldl_record
  case first => simp [horder, List.eraseDups_cons]
  case order => exact horder
  case issued =>
    intro name
    simp [hnamed.issued, names, find?_eq_some_iff hnodup]
  case numbered => exact hnamed.numbered

/-- `Foo` would be number 11, but `glue$foo11` is the name of `Foo1`. -/
example :
    let owners := ["a/Foo1", "f/B", "f/C", "f/D", "f/E", "f/F", "f/G", "f/H", "f/I", "f/J", "b/Foo"]
    let g := (owners.map ClassName.ofString).foldl record (start (.ofString "Ctx"))
    g.find? (.ofString "a/Foo1") = some "glue$foo11" ∧
      g.find? (.ofString "b/Foo") = some "glue$foo12" := by
  decide +kernel

end UnitLink.GlueFields
