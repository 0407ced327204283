import Mathlib.Data.Finset.Card
import Mathlib.Logic.Relation
import UnitLink.ClassUnit
/-! Walks through the supertypes of classes. A walk goes depth first, a class's superclass
before its interfaces, and into each class once: the names that it has visited are shared by
all its branches. Of finitely many classes, however they refer to each other, there is exactly
one such walk, and it comes to all classes that can be reached. -/
namespace UnitLink

/-- The supertypes that are known, the superclass first. -/
def ClassUnit.knownSupertypes (known : ClassName → Option ClassUnit) (c : ClassUnit) :
    List ClassUnit :=
  c.supertypes.filterMap known

/-- The names visited once classes have been gone into, the latest first. -/
def visitedAfter (visited : List ClassName) (order : List ClassUnit) : List ClassName :=
  (order.map fun c => c.name).reverse ++ visited

/-- The order in which a walk goes into classes. It takes the pending classes one after the
other, each with everything below it before the next, and passes over those whose names have
been visited. -/
inductive DepthFirst (known : ClassName → Option ClassUnit) :
    (visited : List ClassName) → (pending order : List ClassUnit) → Prop
  | done {visited : List ClassName} : DepthFirst known visited [] []
  | again {visited : List ClassName} {c : ClassUnit} {pending order : List ClassUnit} :
      c.name ∈ visited → DepthFirst known visited pending order →
      DepthFirst known visited (c :: pending) order
  | enter {visited : List ClassName} {c : ClassUnit} {pending below others : List ClassUnit} :
      c.name ∉ visited →
      DepthFirst known (c.name :: visited) (c.knownSupertypes known) below →
      DepthFirst known (visitedAfter (c.name :: visited) below) pending others →
      DepthFirst known visited (c :: pending) (c :: (below ++ others))

/-- One class is among the known supertypes of another, or among theirs, and so on; a class
is below itself. -/
def Below (known : ClassName → Option ClassUnit) : ClassUnit → ClassUnit → Prop :=
  Relation.ReflTransGen fun c d => d ∈ c.knownSupertypes known

variable {known : ClassName → Option ClassUnit} {visited : List ClassName}
  {pending order : List ClassUnit}

@[simp] theorem visitedAfter_nil : visitedAfter visited [] = visited := rfl

@[simp] theorem visitedAfter_cons (c : ClassUnit) :
    visitedAfter visited (c :: order) = visitedAfter (c.name :: visited) order := by
  simp [visitedAfter]

@[simp] theorem visitedAfter_append (others : List ClassUnit) :
    visitedAfter visited (order ++ others) = visitedAfter (visitedAfter visited order) others := by
  simp [visitedAfter]

theorem mem_visitedAfter {name : ClassName} :
    name ∈ visitedAfter visited order ↔ name ∈ visited ∨ ∃ c ∈ order, c.name = name := by
  simp [visitedAfter, or_comm]

theorem subset_visitedAfter : visited ⊆ visitedAfter visited order :=
  fun _ h => mem_visitedAfter.2 (.inl h)

namespace DepthFirst

/-! ### One walk -/

theorem unique {order' : List ClassUnit} (h : DepthFirst known visited pending order)
    (h' : DepthFirst known visited pending order') : order' = order := by
  induction h generalizing order' with
  | done =>
    cases h'
    rfl
  | again hmem _ ih =>
    cases h' with
    | again _ hrest => exact ih hrest
    | enter hnew => exact absurd hmem hnew
  | enter hnew _ _ ihBelow ihOthers =>
    cases h' with
    | again hmem => exact absurd hmem hnew
    | enter _ hbelow hothers =>
      obtain rfl := ihBelow hbelow
      obtain rfl := ihOthers hothers
      rfl

theorem fresh (h : DepthFirst known visited pending order) :
    (order.map fun c => c.name).Nodup ∧ ∀ c ∈ order, c.name ∉ visited := by
  induction h with
  | done => simp
  | again _ _ ih => exact ih
  | @enter visited c pending below others hnew _ _ ihBelow ihOthers =>
    obtain ⟨hbelow, hbelowNew⟩ := ihBelow
    obtain ⟨hothers, hothersNew⟩ := ihOthers
    have hothersBelow : ∀ d ∈ others, d.name ≠ c.name ∧ d.name ∉ visited ∧
        ∀ e ∈ below, e.name ≠ d.name := by
      intro d hd
      have hd' := hothersNew d hd
      rw [mem_visitedAfter, List.mem_cons] at hd'
      push Not at hd'
      exact ⟨hd'.1.1, hd'.1.2, hd'.2⟩
    constructor
    · rw [List.map_cons, List.map_append, List.nodup_cons, List.nodup_append]
      refine ⟨?_, hbelow, hothers, ?_⟩
      · rw [List.mem_append, List.mem_map, List.mem_map]
        rintro (⟨d, hd, heq⟩ | ⟨d, hd, heq⟩)
        · exact hbelowNew d hd (heq ▸ List.mem_cons_self)
        · exact (hothersBelow d hd).1 heq
      · intro name hname name' hname' heq
        obtain ⟨e, he, rfl⟩ := List.mem_map.1 hname
        obtain ⟨d, hd, rfl⟩ := List.mem_map.1 hname'
        exact (hothersBelow d hd).2.2 e he heq
    · intro d hd
      rcases List.mem_cons.1 hd with rfl | hd
      · exact hnew
      · rcases List.mem_append.1 hd with hd | hd
        · exact fun hmem => hbelowNew d hd (List.mem_cons_of_mem _ hmem)
        · exact (hothersBelow d hd).2.1

/-! ### Finitely many classes -/

section Finite

variable {names : List ClassName}

/-- How many of the names have not been visited. -/
def unvisited (names visited : List ClassName) : Nat := (names.toFinset \ visited.toFinset).card

theorem unvisited_cons_lt {name : ClassName} (hmem : name ∈ names) (hnew : name ∉ visited) :
    unvisited names (name :: visited) < unvisited names visited := by
  refine Finset.card_lt_card (Finset.ssubset_iff_of_subset ?_ |>.2 ⟨name, ?_, ?_⟩)
  · intro other hother
    simp_all
  · simp [hmem, hnew]
  · simp

theorem unvisited_le_length : unvisited names visited ≤ names.length :=
  (Finset.card_le_card Finset.sdiff_subset).trans names.toFinset_card_le

theorem unvisited_visitedAfter_le :
    unvisited names (visitedAfter visited order) ≤ unvisited names visited := by
  refine Finset.card_le_card (Finset.sdiff_subset_sdiff (Finset.Subset.refl _) ?_)
  intro name hname
  rw [List.mem_toFinset] at hname ⊢
  exact subset_visitedAfter hname

/-- Where only finitely many names are known, a walk comes to an end, whatever is pending. -/
theorem exists_order (hknown : ∀ name c, known name = some c → c.name ∈ names)
    (hpending : ∀ c ∈ pending, c.name ∈ names) :
    ∃ order, DepthFirst known visited pending order := by
  -- going into a class visits one more name, passing over one leaves fewer pending
  induction hn : unvisited names visited using Nat.strong_induction_on
    generalizing visited pending with
  | _ n ih =>
    subst hn
    induction pending with
    | nil => exact ⟨[], .done⟩
    | cons c pending ihPending =>
      have hrest : ∀ d ∈ pending, d.name ∈ names := fun d hd =>
        hpending d (List.mem_cons_of_mem _ hd)
      by_cases hmem : c.name ∈ visited
      · obtain ⟨order, horder⟩ := ihPending hrest
        exact ⟨order, .again hmem horder⟩
      · have hlt := unvisited_cons_lt (hpending c List.mem_cons_self) hmem
        have hsupertypes : ∀ d ∈ c.knownSupertypes known, d.name ∈ names := by
          intro d hd
          obtain ⟨name, -, hname⟩ := List.mem_filterMap.1 hd
          exact hknown name d hname
        obtain ⟨below, hbelow⟩ := ih _ hlt hsupertypes rfl
        have hle : unvisited names (visitedAfter (c.name :: visited) below) <
            unvisited names visited := unvisited_visitedAfter_le.trans_lt hlt
        obtain ⟨others, hothers⟩ := ih _ hle hrest rfl
        exact ⟨c :: (below ++ others), .enter hmem hbelow hothers⟩

theorem mem_of_order (h : DepthFirst known visited pending order)
    (hknown : ∀ name c, known name = some c → c.name ∈ names)
    (hpending : ∀ c ∈ pending, c.name ∈ names) : ∀ c ∈ order, c.name ∈ names := by
  induction h with
  | done => simp
  | again _ _ ih => exact ih fun c hc => hpending c (List.mem_cons_of_mem _ hc)
  | @enter visited c pending below others _ _ _ ihBelow ihOthers =>
    intro d hd
    rcases List.mem_cons.1 hd with rfl | hd
    · exact hpending _ List.mem_cons_self
    · rcases List.mem_append.1 hd with hd | hd
      · refine ihBelow (fun e he => ?_) d hd
        obtain ⟨name, -, hname⟩ := List.mem_filterMap.1 he
        exact hknown name e hname
      · exact ihOthers (fun e he => hpending e (List.mem_cons_of_mem _ he)) d hd

theorem length_le (h : DepthFirst known visited pending order)
    (hknown : ∀ name c, known name = some c → c.name ∈ names)
    (hpending : ∀ c ∈ pending, c.name ∈ names) : order.length ≤ names.length := by
  have hsub : order.map (fun c => c.name) ⊆ names := by
    intro name hname
    obtain ⟨c, hc, rfl⟩ := List.mem_map.1 hname
    exact h.mem_of_order hknown hpending c hc
  have := (h.fresh.1.subperm hsub).length_le
  rwa [List.length_map] at this

end Finite

/-! ### What a walk comes to -/

theorem exists_below (h : DepthFirst known visited pending order) {d : ClassUnit} (hd : d ∈ order) :
    ∃ c ∈ pending, Below known c d := by
  induction h with
  | done => cases hd
  | again _ _ ih =>
    obtain ⟨c, hc, hbelow⟩ := ih hd
    exact ⟨c, List.mem_cons_of_mem _ hc, hbelow⟩
  | @enter visited c pending below others _ _ _ ihBelow ihOthers =>
    rcases List.mem_cons.1 hd with rfl | hd
    · exact ⟨d, List.mem_cons_self, .refl⟩
    · rcases List.mem_append.1 hd with hd | hd
      · obtain ⟨e, he, hbelow⟩ := ihBelow hd
        exact ⟨c, List.mem_cons_self, .head he hbelow⟩
      · obtain ⟨e, he, hbelow⟩ := ihOthers hd
        exact ⟨e, List.mem_cons_of_mem _ he, hbelow⟩

/-- When a walk is over, what was pending has been visited, and so have the supertypes of all
classes that it went into. -/
theorem covers (h : DepthFirst known visited pending order) :
    (∀ c ∈ pending, c.name ∈ visitedAfter visited order) ∧
      ∀ c ∈ order, ∀ d ∈ c.knownSupertypes known, d.name ∈ visitedAfter visited order := by
  induction h with
  | done => simp
  | again hmem _ ih =>
    refine ⟨fun c hc => ?_, ih.2⟩
    rcases List.mem_cons.1 hc with rfl | hc
    · exact subset_visitedAfter hmem
    · exact ih.1 c hc
  | @enter visited c pending below others _ _ _ ihBelow ihOthers =>
    have hsub : visitedAfter (c.name :: visited) below ⊆
        visitedAfter visited (c :: (below ++ others)) := by
      rw [visitedAfter_cons, visitedAfter_append]
      exact subset_visitedAfter
    have hothers : visitedAfter (visitedAfter (c.name :: visited) below) others =
        visitedAfter visited (c :: (below ++ others)) := by
      rw [visitedAfter_cons, visitedAfter_append]
    rw [hothers] at ihOthers
    constructor
    · intro d hd
      rcases List.mem_cons.1 hd with rfl | hd
      · exact hsub (subset_visitedAfter List.mem_cons_self)
      · exact ihOthers.1 d hd
    · intro d hd e he
      rcases List.mem_cons.1 hd with rfl | hd
      · exact hsub (ihBelow.1 e he)
      · rcases List.mem_append.1 hd with hd | hd
        · exact hsub (ihBelow.2 d hd e he)
        · exact ihOthers.2 d hd e he

/-- Where classes are known by their names, a walk from a known class goes into exactly the
classes below it. -/
theorem mem_iff_below {c d : ClassUnit} (h : DepthFirst known [] [c] order)
    (hnames : ∀ name e, known name = some e → e.name = name) (hc : known c.name = some c) :
    d ∈ order ↔ Below known c d := by
  have hself : ∀ e, Below known c e → known e.name = some e := by
    intro e he
    induction he with
    | refl => exact hc
    | tail _ hstep _ =>
      obtain ⟨name, -, hname⟩ := List.mem_filterMap.1 hstep
      rwa [hnames name _ hname]
  obtain ⟨hstart, hclosed⟩ := h.covers
  have hvisited : ∀ e, Below known c e → e.name ∈ visitedAfter [] order → e ∈ order := by
    intro e he hmem
    rw [mem_visitedAfter] at hmem
    obtain ⟨e', he', heq⟩ := hmem.resolve_left (List.not_mem_nil)
    obtain ⟨start, hstart, hbelow⟩ := h.exists_below he'
    obtain rfl := List.mem_singleton.1 hstart
    have hsame := hself e' hbelow
    rw [heq, hself e he] at hsame
    exact Option.some.inj hsame ▸ he'
  constructor
  · intro hd
    obtain ⟨start, hstart, hbelow⟩ := h.exists_below hd
    obtain rfl := List.mem_singleton.1 hstart
    exact hbelow
  · intro hd
    induction hd with
    | refl => exact hvisited c .refl (hstart c List.mem_cons_self)
    | @tail e f he hstep ih => exact hvisited f (he.tail hstep) (hclosed e ih f hstep)

end DepthFirst
end UnitLink
