import UnitLink.Proofs.MemoryLinks
import UnitLink.Proofs.Selection
/-! The lines of a source and the references that are selected for them. A resolution reads the
lines that the input has when it is opened, binds the directive of each line to what is selected
for it, and pairs the ends of the invocations. What the input has may change until it is opened
again; that of a steady source does not. -/
namespace UnitLink

variable {σ τ : Type}

/-! ### What lines are bound to -/

namespace Bindings

variable {r : Resolver} {loader : Loader τ} {c : ClassUnit}

/-- The bindings of lines, in their order, each selected for its line's directive. -/
inductive AllSelected (r : Resolver) (loader : Loader τ) (c : ClassUnit) :
    List Line → List (Nat × Binding) → Prop
  | nil : AllSelected r loader c [] []
  | unbound {line : Line} {lines : List Line} {bs : List (Nat × Binding)} :
      (∀ d, line.directive = some d → d.kind.binds = false) → AllSelected r loader c lines bs →
      AllSelected r loader c (line :: lines) bs
  | bound {line : Line} {d : Directive} {binding : Binding} {lines : List Line}
      {bs : List (Nat × Binding)} :
      line.directive = some d → SelectedBy r loader c d binding →
      AllSelected r loader c lines bs →
      AllSelected r loader c (line :: lines) ((line.number, binding) :: bs)

variable {lines more : List Line} {bs cs : List (Nat × Binding)}

theorem AllSelected.append (h : AllSelected r loader c lines bs)
    (h' : AllSelected r loader c more cs) : AllSelected r loader c (lines ++ more) (bs ++ cs) := by
  induction h with
  | nil => exact h'
  | unbound hline _ ih => exact .unbound hline ih
  | bound hd hselected _ ih => exact .bound hd hselected ih

theorem SelectedBy.binds {d : Directive} {binding : Binding}
    (h : SelectedBy r loader c d binding) : d.kind.binds = true := by
  rw [← h.kind_eq]
  cases binding <;> rfl

theorem AllSelected.kinds_eq (h : AllSelected r loader c lines bs) :
    bs.map (fun x => (x.1, x.2.kind)) = boundKinds lines := by
  induction h with
  | nil => rfl
  | @unbound line lines bs hline _ ih =>
    rw [ih]
    unfold boundKinds
    rw [List.filterMap_cons_none]
    cases hd : line.directive with
    | none => rfl
    | some d => simp [hline d hd]
  | @bound line d binding lines bs hd hselected _ ih =>
    rw [List.map_cons, ih, hselected.kind_eq]
    unfold boundKinds
    rw [List.filterMap_cons_some]
    simp [hd, hselected.binds]

theorem AllSelected.exists_line (h : AllSelected r loader c lines bs) {number : Nat}
    {binding : Binding} (hmem : (number, binding) ∈ bs) :
    ∃ line ∈ lines, line.number = number ∧
      ∃ d, line.directive = some d ∧ SelectedBy r loader c d binding := by
  induction h with
  | nil => cases hmem
  | unbound _ _ ih =>
    obtain ⟨line, hline, hfound⟩ := ih hmem
    exact ⟨line, List.mem_cons_of_mem _ hline, hfound⟩
  | @bound line d _ _ _ hd hselected _ ih =>
    rcases List.mem_cons.1 hmem with heq | hmem
    · obtain ⟨rfl, rfl⟩ := Prod.mk.inj heq
      exact ⟨line, List.mem_cons_self, rfl, d, hd, hselected⟩
    · obtain ⟨line, hline, hfound⟩ := ih hmem
      exact ⟨line, List.mem_cons_of_mem _ hline, hfound⟩

theorem AllSelected.exists_binding (h : AllSelected r loader c lines bs) {line : Line}
    (hline : line ∈ lines) {d : Directive} (hd : line.directive = some d)
    (hbinds : d.kind.binds = true) :
    ∃ binding, (line.number, binding) ∈ bs ∧ SelectedBy r loader c d binding := by
  induction h with
  | nil => cases hline
  | unbound hnone _ ih =>
    rcases List.mem_cons.1 hline with rfl | hline
    · rw [hnone d hd] at hbinds
      cases hbinds
    · exact ih hline
  | @bound _ _ binding _ _ he hselected _ ih =>
    rcases List.mem_cons.1 hline with rfl | hline
    · obtain rfl := Option.some.inj (he.symm.trans hd)
      exact ⟨binding, List.mem_cons_self, hselected⟩
    · obtain ⟨found, hmem, hfound⟩ := ih hline
      exact ⟨found, List.mem_cons_of_mem _ hmem, hfound⟩

/-! ### The pass -/

theorem AllSelected.visit {source : String} {context : ClassName} {b : Bindings}
    (h : AllSelected r loader c lines bs) (hentered : (start context).enterAll c source bs = .ok b)
    (line : Line) :
    (Bindings.visit r c line b).Meets (r.protocol loader) fun result => result.1 = .ok () →
      ∃ bs, AllSelected r loader c (lines ++ [line]) bs ∧
        (start context).enterAll c source bs = .ok result.2 := by
  have hunbound : (∀ d, line.directive = some d → d.kind.binds = false) →
      AllSelected r loader c (lines ++ [line]) bs := by
    intro hline
    simpa using h.append (.unbound hline .nil)
  rw [visit_eq]
  cases hd : line.directive with
  | none =>
    refine Session.meets_pure fun _ => ⟨bs, hunbound fun d he => ?_, hentered⟩
    rw [hd] at he
    cases he
  | some d =>
    refine Session.Meets.bind (bindDirective_selects c d) ?_
    rintro (stop | _ | binding) hbound
    · apply Session.meets_pure
      intro hok
      cases hok
    · refine Session.meets_pure fun _ => ⟨bs, hunbound fun e he => ?_, hentered⟩
      obtain rfl := Option.some.inj (hd.symm.trans he)
      exact hbound
    · apply Session.meets_pure
      simp only [take]
      cases henter : b.enter c line.number binding with
      | error failure =>
        intro hok
        cases hok
      | ok b' =>
        intro _
        refine ⟨bs ++ [(line.number, binding)], h.append (.bound hd hbound .nil), ?_⟩
        rw [enterAll_append, hentered]
        simp only [bind, Except.bind, enterAll, henter]

end Bindings

/-! ### Inputs -/

namespace Source

/-- In some state of the common store the input opens, and has the lines. -/
def OpensWith [CommonStore σ τ] (s opened : Source σ) (lines : List Line) : Prop :=
  ∃ common,
    { s with store := CommonStore.withCommon common s.store }.startInput = (.ok (), opened) ∧
      readLines s.name 1 opened.unread = .ok lines

/-- Whatever happens to the store before anything is written, the input is the same stream. -/
structure KeepsInput [CommonStore σ τ] (s : Source σ) (stream : Stream) (same : σ → Prop) :
    Prop where
  holds : same s.store
  keeps_common : ∀ common store, same store → same (CommonStore.withCommon common store)
  opens : ∀ store, same store →
    (s.backend.openInput store).1 = .ok stream ∧ same (s.backend.openInput store).2
  creates : ∀ store, same store → same (s.backend.createOutput store).2

/-- The input does not change. -/
def Steady [CommonStore σ τ] (s : Source σ) : Prop := ∃ stream same, s.KeepsInput stream same

section KeepsInput

variable [CommonStore σ τ] {s opened created : Source σ} {stream : Stream} {same : σ → Prop}

theorem KeepsInput.withCommon (h : s.KeepsInput stream same) (common : τ) :
    ({ s with store := CommonStore.withCommon common s.store } : Source σ).KeepsInput stream
      same :=
  ⟨h.keeps_common common _ h.holds, h.keeps_common, h.opens, h.creates⟩

theorem KeepsInput.releaseInput (h : s.KeepsInput stream same) :
    s.releaseInput.KeepsInput stream same :=
  ⟨h.holds, h.keeps_common, h.opens, h.creates⟩

theorem KeepsInput.startInput (h : s.KeepsInput stream same)
    (hopened : s.startInput = (.ok (), opened)) :
    opened.KeepsInput stream same ∧ opened.unread = stream.lines := by
  obtain ⟨hstream, hsame⟩ := h.opens s.store h.holds
  unfold Source.startInput at hopened
  split at hopened
  · cases hopened
  split at hopened
  · cases hopened
  generalize s.backend.openInput s.store = opening at hopened hstream hsame
  obtain ⟨outcome, store⟩ := opening
  obtain rfl : outcome = .ok stream := hstream
  obtain ⟨-, rfl⟩ := Prod.mk.inj hopened
  exact ⟨⟨hsame, h.keeps_common, h.opens, h.creates⟩, rfl⟩

theorem KeepsInput.startOutput (h : s.KeepsInput stream same)
    (hcreated : s.startOutput = (.ok (), created)) : created.KeepsInput stream same := by
  have hsame := h.creates s.store h.holds
  unfold Source.startOutput at hcreated
  split at hcreated
  · cases hcreated
  split at hcreated
  · cases hcreated
  generalize s.backend.createOutput s.store = creating at hcreated hsame
  obtain ⟨failure | done, store⟩ := creating
  · cases hcreated
  · obtain ⟨-, rfl⟩ := Prod.mk.inj hcreated
    exact ⟨hsame, h.keeps_common, h.opens, h.creates⟩

/-- What was read of a steady source is what can be read of it again. -/
theorem KeepsInput.opensWith (h : s.KeepsInput stream same) {lines : List Line}
    (hopens : s.OpensWith opened lines) :
    opened.releaseInput.KeepsInput stream same ∧ readLines s.name 1 stream.lines = .ok lines := by
  obtain ⟨common, hopened, hlines⟩ := hopens
  obtain ⟨hkept, hunread⟩ := (h.withCommon common).startInput hopened
  exact ⟨hkept.releaseInput, hunread ▸ hlines⟩

end KeepsInput

theorem opens_of_discover_ok {s found : Source σ} {c : ClassUnit}
    (h : s.discover = (.ok c, found)) : ∃ opened, s.startInput = (.ok (), opened) := by
  unfold discover visitLines visitOwnLines at h
  generalize s.startInput = opening at h
  obtain ⟨failure | done, opened⟩ := opening
  · cases h
  · exact ⟨opened, rfl⟩

theorem Steady.discover [CommonStore σ τ] {s found : Source σ} {c : ClassUnit} (h : s.Steady)
    (hfound : s.discover = (.ok c, found)) : found.Steady := by
  obtain ⟨stream, same, hkeeps⟩ := h
  obtain ⟨opened, hopened⟩ := opens_of_discover_ok hfound
  rw [discover_eq hopened] at hfound
  obtain ⟨-, rfl⟩ := Prod.mk.inj hfound
  exact ⟨stream, same, (hkeeps.startInput hopened).1.releaseInput⟩

theorem steady_inMemory (name text : String) : (inMemory name text).Steady :=
  ⟨.ofString text, fun store => store.input = text, rfl, fun _ _ h => h,
    fun store h => ⟨by rw [← h]; rfl, h⟩, fun _ h => h⟩

end Source

/-- A resolution that succeeds has read all lines, bound each of them to what is selected for
it, and paired the ends of the invocations. -/
theorem Source.resolve_selects [CommonStore σ τ] (s : Source σ) (c : ClassUnit) (r : Resolver)
    (loader : Loader τ) (context : ClassName) :
    (s.resolve c r context).Meets (r.protocol loader) fun result =>
      ∀ resolution, result.1 = .ok resolution →
        ∃ opened lines bs, s.OpensWith opened lines ∧ result.2 = opened.releaseInput ∧
          Bindings.AllSelected r loader c lines bs ∧ Nested bs resolution.lines.toList ∧
          resolution.lines.Ordered ∧ resolution.declared = c := by
  unfold resolve
  refine Session.meets_bind_iff.2 (Session.meets_inTurn (fun _ => trivial) fun common => ?_)
  have hname := name_startInput { s with store := CommonStore.withCommon common s.store }
  generalize hstarted : ({ s with
    store := CommonStore.withCommon common s.store } : Source σ).startInput = started at hname
  obtain ⟨failure | done, opened⟩ := started
  · apply Session.meets_pure
    intro resolution hok
    cases hok
  rw [visitStarted_reading, bind_assoc]
  -- the bindings of the lines seen so far are selected, and have been entered
  have hpass := visitLines_spec (Judgement.underProtocol (r.protocol loader)) opened.name
    (Bindings.visit r c) opened.unread
    (fun seen b => ∃ bs, Bindings.AllSelected r loader c seen bs ∧
      (Bindings.start context).enterAll c opened.name bs = .ok b)
    (fun _ _ => True) (fun seen text line b _ _ hseen => ?_) (fun _ _ _ _ _ _ _ => trivial)
    ⟨[], .nil, rfl⟩
  · refine Session.Meets.bind hpass ?_
    rintro ⟨stop | done, b⟩ hresult
    · apply Session.meets_pure
      intro resolution hok
      cases hok
    obtain ⟨lines, hlines, bs, hselected, hentered⟩ := hresult
    apply Session.meets_pure
    intro resolution hok
    cases hfinish : b.finish opened.name c with
    | error failure =>
      simp only [name_releaseInput, hfinish] at hok
      cases hok
    | ok finished =>
      simp only [name_releaseInput, hfinish] at hok
      obtain rfl := Except.ok.inj hok
      obtain ⟨hclosed, rfl⟩ := Bindings.finish_eq_ok_iff.1 hfinish
      have hready := Bindings.ready_start context (ascending_of_readLines hlines).1
        hselected.kinds_eq
      obtain ⟨table, hnested, hresolved⟩ :=
        Bindings.nested_of_enterAll_ok hready rfl hentered hclosed
      have htable : b.lines.toList = table := by
        simpa [Bindings.start] using hresolved.lines_eq
      exact ⟨opened, lines, bs, ⟨common, hstarted, hname ▸ hlines⟩, rfl, hselected,
        htable ▸ hnested, hresolved.ordered, rfl⟩
  · refine Session.Meets.mono (hseen.elim fun bs h => h.1.visit h.2 line) ?_
    rintro ⟨stop | done, b⟩ hnext
    · trivial
    · exact hnext rfl

end UnitLink
