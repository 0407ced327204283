import UnitLink.Proofs.LineTable
import UnitLink.Resolution
/-! Invocations as brackets. The begins and ends among the bindings of a source open and
close invocations, and a binding sequence that nests determines the table that its lines
get: each begin stands for what its own end closes it with. The bindings are entered one
after the other with a stack of open lines and a table that is changed in place; entering a
nested sequence adds its table and leaves the stack as it was. -/
namespace UnitLink

/-- A nested sequence of bindings and what its lines stand for. -/
inductive Nested : List (Nat × Binding) → List (Nat × Resolved) → Prop
  | nil : Nested [] []
  | fieldRead {line : Nat} {reference : Reference .field} {bs : List (Nat × Binding)}
      {table : List (Nat × Resolved)} : Nested bs table →
      Nested ((line, .fieldRead reference) :: bs) ((line, .fieldRead reference) :: table)
  | classOf {line : Nat} {owner : ClassName} {bs : List (Nat × Binding)}
      {table : List (Nat × Resolved)} : Nested bs table →
      Nested ((line, .classOf owner) :: bs) ((line, .classOf owner) :: table)
  /-- What stands between the two ends of an invocation is nested by itself. -/
  | invocation {opening closing : Nat} {reference : Reference .method}
      {inner bs : List (Nat × Binding)} {innerTable table : List (Nat × Resolved)} :
      Nested inner innerTable → Nested bs table →
      Nested ((opening, .opening) :: (inner ++ (closing, .closing reference) :: bs))
        ((opening, .invocation reference) ::
          (innerTable ++ (closing, .invocation reference) :: table))

/-- Every begin has its end and every end its begin. -/
def Balanced (bs : List (Nat × Binding)) : Prop := ∃ table, Nested bs table

/-- The line is that of the first end without an open begin: all before it is balanced. -/
def UnmatchedEnd (bs : List (Nat × Binding)) (line : Nat) : Prop :=
  ∃ before reference after, bs = before ++ (line, .closing reference) :: after ∧ Balanced before

/-- The line is that of the earliest begin left unclosed: all before it is balanced, and
nothing after it is an end for it. -/
def UnclosedBegin (bs : List (Nat × Binding)) (line : Nat) : Prop :=
  ∃ before after, bs = before ++ (line, .opening) :: after ∧ Balanced before ∧
    ∀ closing, ¬UnmatchedEnd after closing

theorem balanced_nil : Balanced [] := ⟨[], .nil⟩

theorem Nested.lines_eq {bs : List (Nat × Binding)} {table : List (Nat × Resolved)}
    (h : Nested bs table) : table.map Prod.fst = bs.map Prod.fst := by
  induction h with
  | nil => rfl
  | fieldRead _ ih => simp [ih]
  | classOf _ ih => simp [ih]
  | invocation _ _ ihInner ih => simp [ihInner, ih]

theorem Nested.append {bs cs : List (Nat × Binding)} {table more : List (Nat × Resolved)}
    (h : Nested bs table) (hmore : Nested cs more) : Nested (bs ++ cs) (table ++ more) := by
  induction h with
  | nil => exact hmore
  | fieldRead _ ih => exact .fieldRead ih
  | classOf _ ih => exact .classOf ih
  | invocation hinner _ _ ih => simpa using Nested.invocation hinner ih

theorem Nested.not_unpaired {bs : List (Nat × Binding)} {table : List (Nat × Resolved)}
    (h : Nested bs table) : ∀ entry ∈ table, entry.2 ≠ .unpaired := by
  induction h with
  | nil => simp
  | fieldRead _ ih => simpa using ih
  | classOf _ ih => simpa using ih
  | invocation _ _ ihInner ih =>
    intro entry hentry
    simp only [List.mem_cons, List.mem_append] at hentry
    rcases hentry with rfl | hentry | rfl | hentry
    · simp
    · exact ihInner entry hentry
    · simp
    · exact ih entry hentry

/-- What a bound line stands for in a nested sequence: a begin for what some end says. -/
def StandsIn (bs : List (Nat × Binding)) : Binding → Resolved → Prop
  | .opening, resolved => ∃ closing reference, (closing, .closing reference) ∈ bs ∧
      resolved = .invocation reference
  | .closing reference, resolved => resolved = .invocation reference
  | .fieldRead reference, resolved => resolved = .fieldRead reference
  | .classOf owner, resolved => resolved = .classOf owner

theorem StandsIn.mono {bs cs : List (Nat × Binding)} {binding : Binding} {resolved : Resolved}
    (h : StandsIn bs binding resolved) (hsub : ∀ x ∈ bs, x ∈ cs) :
    StandsIn cs binding resolved := by
  cases binding with
  | opening =>
    obtain ⟨closing, reference, hmem, heq⟩ := h
    exact ⟨closing, reference, hsub _ hmem, heq⟩
  | closing reference | fieldRead reference | classOf owner => exact h

theorem Nested.exists_entry {bs : List (Nat × Binding)} {table : List (Nat × Resolved)}
    (h : Nested bs table) {line : Nat} {binding : Binding} (hmem : (line, binding) ∈ bs) :
    ∃ resolved, (line, resolved) ∈ table ∧ StandsIn bs binding resolved := by
  induction h with
  | nil => cases hmem
  | fieldRead _ ih =>
    rcases List.mem_cons.1 hmem with heq | hmem
    · obtain ⟨rfl, rfl⟩ := Prod.mk.inj heq
      exact ⟨_, List.mem_cons_self, rfl⟩
    · obtain ⟨resolved, hentry, hstands⟩ := ih hmem
      exact ⟨resolved, List.mem_cons_of_mem _ hentry,
        hstands.mono fun x hx => List.mem_cons_of_mem _ hx⟩
  | classOf _ ih =>
    rcases List.mem_cons.1 hmem with heq | hmem
    · obtain ⟨rfl, rfl⟩ := Prod.mk.inj heq
      exact ⟨_, List.mem_cons_self, rfl⟩
    · obtain ⟨resolved, hentry, hstands⟩ := ih hmem
      exact ⟨resolved, List.mem_cons_of_mem _ hentry,
        hstands.mono fun x hx => List.mem_cons_of_mem _ hx⟩
  | @invocation opening closing reference inner bs innerTable table _ _ ihInner ih =>
    simp only [List.mem_cons, List.mem_append] at hmem
    rcases hmem with heq | hmem | heq | hmem
    · obtain ⟨rfl, rfl⟩ := Prod.mk.inj heq
      exact ⟨.invocation reference, by simp, closing, reference, by simp, rfl⟩
    · obtain ⟨resolved, hentry, hstands⟩ := ihInner hmem
      exact ⟨resolved, by simp [hentry], hstands.mono fun x hx => by simp [hx]⟩
    · obtain ⟨rfl, rfl⟩ := Prod.mk.inj heq
      exact ⟨.invocation reference, by simp, rfl⟩
    · obtain ⟨resolved, hentry, hstands⟩ := ih hmem
      exact ⟨resolved, by simp [hentry], hstands.mono fun x hx => by simp [hx]⟩

section Prepending

variable {bs cs : List (Nat × Binding)} {line : Nat}

theorem Balanced.append (h : Balanced bs) (h' : Balanced cs) : Balanced (bs ++ cs) := by
  obtain ⟨table, htable⟩ := h
  obtain ⟨more, hmore⟩ := h'
  exact ⟨table ++ more, htable.append hmore⟩

theorem UnmatchedEnd.prepend (h : UnmatchedEnd bs line) (h' : Balanced cs) :
    UnmatchedEnd (cs ++ bs) line := by
  obtain ⟨before, reference, after, rfl, hbefore⟩ := h
  exact ⟨cs ++ before, reference, after, (List.append_assoc ..).symm, h'.append hbefore⟩

theorem UnclosedBegin.prepend (h : UnclosedBegin bs line) (h' : Balanced cs) :
    UnclosedBegin (cs ++ bs) line := by
  obtain ⟨before, after, rfl, hbefore, hafter⟩ := h
  exact ⟨cs ++ before, after, (List.append_assoc ..).symm, h'.append hbefore, hafter⟩

end Prepending

/-- A sequence that is not balanced has an end too many, or else a begin too many. -/
theorem balanced_or_unmatched (bs : List (Nat × Binding)) :
    Balanced bs ∨ (∃ line, UnmatchedEnd bs line) ∨ ∃ line, UnclosedBegin bs line := by
  -- what goes before a shorter sequence is balanced and changes nothing about it
  have hprepend : ∀ (cs : List (Nat × Binding)) {bs : List (Nat × Binding)}, Balanced cs →
      (Balanced bs ∨ (∃ line, UnmatchedEnd bs line) ∨ ∃ line, UnclosedBegin bs line) →
      Balanced (cs ++ bs) ∨ (∃ line, UnmatchedEnd (cs ++ bs) line) ∨
        ∃ line, UnclosedBegin (cs ++ bs) line := by
    rintro cs bs hcs (h | ⟨line, h⟩ | ⟨line, h⟩)
    · exact .inl (hcs.append h)
    · exact .inr (.inl ⟨line, h.prepend hcs⟩)
    · exact .inr (.inr ⟨line, h.prepend hcs⟩)
  induction hn : bs.length using Nat.strong_induction_on generalizing bs with
  | _ n ih =>
    subst hn
    cases bs with
    | nil => exact .inl balanced_nil
    | cons first rest =>
      obtain ⟨line, binding⟩ := first
      cases binding with
      | fieldRead reference =>
        exact hprepend [(line, .fieldRead reference)] ⟨_, .fieldRead .nil⟩
          (ih _ (by simp) rest rfl)
      | classOf owner =>
        exact hprepend [(line, .classOf owner)] ⟨_, .classOf .nil⟩ (ih _ (by simp) rest rfl)
      | closing reference => exact .inr (.inl ⟨line, [], reference, rest, rfl, balanced_nil⟩)
      | opening =>
        by_cases hend : ∃ closing, UnmatchedEnd rest closing
        · obtain ⟨closing, inner, reference, after, rfl, innerTable, hinner⟩ := hend
          have hpair : Balanced
              ((line, .opening) :: (inner ++ [(closing, .closing reference)])) :=
            ⟨_, .invocation hinner .nil⟩
          have := hprepend _ hpair (ih _ (by simp; omega) after rfl)
          simpa using this
        · exact .inr (.inr ⟨line, [], rest, rfl, balanced_nil, fun closing h => hend ⟨closing, h⟩⟩)

/-! ### Entering bindings -/

/-- Records the owner that the instance for a reference is to be had of. -/
def GlueFields.recordFor {kind : MemberKind} (g : GlueFields) (c : ClassUnit)
    (r : Reference kind) : GlueFields :=
  if r.isLocal || r.owner == c.name then g else g.record r.owner

def GlueFields.after (c : ClassUnit) (g : GlueFields) : Binding → GlueFields
  | .closing reference => g.recordFor c reference
  | .fieldRead reference => g.recordFor c reference
  | _ => g

namespace Bindings

/-- Enters bindings in order, up to the first that cannot be entered. -/
def enterAll (c : ClassUnit) (source : String) (b : Bindings) :
    List (Nat × Binding) → Except Failure Bindings
  | [] => .ok b
  | (line, binding) :: rest =>
    match b.enter c line binding with
    | .ok b => b.enterAll c source rest
    | .error failure => .error (failure.locate ⟨source, line⟩)

theorem enterAll_append (c : ClassUnit) (source : String) (b : Bindings)
    (bs cs : List (Nat × Binding)) :
    b.enterAll c source (bs ++ cs) =
      b.enterAll c source bs >>= fun b => b.enterAll c source cs := by
  induction bs generalizing b with
  | nil => rfl
  | cons first bs ih =>
    obtain ⟨line, binding⟩ := first
    simp only [List.cons_append, enterAll]
    split
    · exact ih _
    · rfl

theorem recordOwner_eq {kind : MemberKind} (b : Bindings) (c : ClassUnit) (r : Reference kind) :
    b.recordOwner c r = { b with glue := b.glue.recordFor c r } := by
  unfold recordOwner GlueFields.recordFor
  split <;> rfl

/-- A table to which all the lines can be added in order. -/
structure Ready (b : Bindings) (bs : List (Nat × Binding)) : Prop where
  ordered : b.lines.Ordered
  above : ∀ entry ∈ b.lines.toList, ∀ x ∈ bs, entry.1 < x.1
  ascending : bs.Pairwise fun x y => x.1 < y.1

theorem Ready.of_append_left {b : Bindings} {bs cs : List (Nat × Binding)}
    (h : b.Ready (bs ++ cs)) : b.Ready bs where
  ordered := h.ordered
  above entry hentry x hx := h.above entry hentry x (List.mem_append_left _ hx)
  ascending := (List.pairwise_append.1 h.ascending).1

theorem Ready.of_entered {b after : Bindings} (bs : List (Nat × Binding))
    {cs : List (Nat × Binding)} {table : List (Nat × Resolved)} (h : b.Ready (bs ++ cs))
    (hordered : after.lines.Ordered)
    (hlines : after.lines.toList = b.lines.toList ++ table)
    (htable : table.map Prod.fst = bs.map Prod.fst) : after.Ready cs where
  ordered := hordered
  above entry hentry x hx := by
    rw [hlines] at hentry
    rcases List.mem_append.1 hentry with hold | hnew
    · exact h.above entry hold x (List.mem_append_right _ hx)
    · have hline : entry.1 ∈ bs.map Prod.fst := htable ▸ List.mem_map_of_mem hnew
      obtain ⟨y, hy, hyentry⟩ := List.mem_map.1 hline
      rw [← hyentry]
      exact (List.pairwise_append.1 h.ascending).2.2 y hy x hx
  ascending := (List.pairwise_append.1 h.ascending).2.1

theorem Ready.add {b : Bindings} {line : Nat} {binding : Binding} {bs : List (Nat × Binding)}
    (h : b.Ready ((line, binding) :: bs)) (resolved : Resolved) :
    ∃ lines, b.add line resolved = .ok { b with lines } ∧
      lines.toList = b.lines.toList ++ [(line, resolved)] ∧ lines.Ordered := by
  obtain ⟨lines, hadd, htoList, hordered⟩ :=
    h.ordered.add resolved fun entry hentry => h.above entry hentry _ List.mem_cons_self
  refine ⟨lines, ?_, htoList, hordered⟩
  rw [Bindings.add, hadd]

theorem enter_opening {b : Bindings} (c : ClassUnit) {line : Nat} {bs : List (Nat × Binding)}
    (h : b.Ready ((line, .opening) :: bs)) :
    ∃ lines, b.enter c line .opening = .ok ⟨lines, b.glue, line :: b.begun⟩ ∧
      lines.toList = b.lines.toList ++ [(line, .unpaired)] ∧ lines.Ordered := by
  obtain ⟨lines, hadd, htoList, hordered⟩ := h.add .unpaired
  refine ⟨lines, ?_, htoList, hordered⟩
  simp [enter, begin, hadd, bind, Except.bind, pure, Except.pure]

theorem enter_closing {b : Bindings} (c : ClassUnit) {opening closing : Nat} {begun : List Nat}
    (reference : Reference .method) {before inner : List (Nat × Resolved)}
    (hordered : b.lines.Ordered) (hbegun : b.begun = opening :: begun)
    (hlines : b.lines.toList = before ++ (opening, .unpaired) :: inner)
    (habove : ∀ entry ∈ b.lines.toList, entry.1 < closing) :
    ∃ lines, b.enter c closing (.closing reference) =
        .ok ⟨lines, b.glue.recordFor c reference, begun⟩ ∧
      lines.toList = before ++ (opening, .invocation reference) ::
        (inner ++ [(closing, .invocation reference)]) ∧ lines.Ordered := by
  obtain ⟨replaced, hreplace, hreplaced, hordered'⟩ :=
    hordered.replace hlines (.invocation reference)
  have habove' : ∀ entry ∈ replaced.toList, entry.1 < closing := by
    intro entry hentry
    rw [hlines] at habove
    rw [hreplaced, List.mem_append, List.mem_cons] at hentry
    rcases hentry with hentry | rfl | hentry
    · exact habove entry (List.mem_append_left _ hentry)
    · exact habove (opening, .unpaired) (List.mem_append_right _ List.mem_cons_self)
    · exact habove entry (List.mem_append_right _ (List.mem_cons_of_mem _ hentry))
  obtain ⟨lines, hadd, htoList, hordered''⟩ := hordered'.add (.invocation reference) habove'
  refine ⟨lines, ?_, ?_, hordered''⟩
  · simp [enter, close, recordOwner_eq, hbegun, Bindings.replace, hreplace, Bindings.add, hadd,
      bind, Except.bind, pure, Except.pure]
  · rw [htoList, hreplaced]
    simp

/-- What entering a nested sequence comes to. -/
structure Entered (c : ClassUnit) (b after : Bindings) (bs : List (Nat × Binding))
    (table : List (Nat × Resolved)) : Prop where
  ordered : after.lines.Ordered
  lines_eq : after.lines.toList = b.lines.toList ++ table
  begun_eq : after.begun = b.begun
  glue_eq : after.glue = (bs.map Prod.snd).foldl (GlueFields.after c) b.glue

variable (c : ClassUnit) (source : String)

/-- A nested sequence is entered without a look at what is around it. -/
theorem enterAll_of_nested {b : Bindings} {bs : List (Nat × Binding)}
    {table : List (Nat × Resolved)} (hnested : Nested bs table) (hready : b.Ready bs) :
    ∃ after, b.enterAll c source bs = .ok after ∧ Entered c b after bs table := by
  induction hnested generalizing b with
  | nil => exact ⟨b, rfl, hready.ordered, by simp, rfl, rfl⟩
  | @fieldRead line reference bs table _ ih =>
    have hready' : (b.recordOwner c reference).Ready ((line, .fieldRead reference) :: bs) := by
      rw [recordOwner_eq]
      exact ⟨hready.ordered, hready.above, hready.ascending⟩
    obtain ⟨lines, hadd, htoList, hordered⟩ := hready'.add (.fieldRead reference)
    rw [recordOwner_eq] at htoList
    obtain ⟨after, hafter, hentered⟩ := ih (b := { b.recordOwner c reference with lines })
      (Ready.of_entered [(line, .fieldRead reference)] hready hordered htoList rfl)
    refine ⟨after, ?_, hentered.ordered, ?_, ?_, ?_⟩
    · simp only [enterAll, enter, hadd, hafter]
    · rw [hentered.lines_eq]
      simp [htoList]
    · rw [hentered.begun_eq, recordOwner_eq]
    · rw [hentered.glue_eq, recordOwner_eq]
      rfl
  | @classOf line owner bs table _ ih =>
    obtain ⟨lines, hadd, htoList, hordered⟩ := hready.add (.classOf owner)
    obtain ⟨after, hafter, hentered⟩ := ih (b := { b with lines })
      (Ready.of_entered [(line, .classOf owner)] hready hordered htoList rfl)
    refine ⟨after, ?_, hentered.ordered, ?_, hentered.begun_eq, hentered.glue_eq⟩
    · simp only [enterAll, enter, hadd, hafter]
    · rw [hentered.lines_eq]
      simp [htoList]
  | @invocation opening closing reference inner bs innerTable table hinner _ ihInner ih =>
    -- the begin is entered, then what is inside, then the end, and the rest after that
    obtain ⟨lines, henter, htoList, hordered⟩ := enter_opening c hready
    have hready₁ : (⟨lines, b.glue, opening :: b.begun⟩ : Bindings).Ready
        (inner ++ (closing, .closing reference) :: bs) :=
      Ready.of_entered [(opening, .opening)] hready hordered htoList rfl
    obtain ⟨b₂, hb₂, hentered₂⟩ := ihInner hready₁.of_append_left
    have hlines₂ : b₂.lines.toList =
        b.lines.toList ++ (opening, .unpaired) :: innerTable := by
      rw [hentered₂.lines_eq, htoList]
      simp
    have hready₂ := Ready.of_entered inner hready₁ hentered₂.ordered hentered₂.lines_eq
      hinner.lines_eq
    obtain ⟨lines₃, henter₃, htoList₃, hordered₃⟩ := enter_closing c reference
      hentered₂.ordered hentered₂.begun_eq hlines₂
      fun entry hentry => hready₂.above entry hentry _ List.mem_cons_self
    have hready₃ : (⟨lines₃, b₂.glue.recordFor c reference, b.begun⟩ : Bindings).Ready bs := by
      refine Ready.of_entered (b := b)
        ((opening, .opening) :: (inner ++ [(closing, .closing reference)]))
        (by simpa using hready) hordered₃ htoList₃ ?_
      simp [hinner.lines_eq]
    obtain ⟨after, hafter, hentered⟩ := ih hready₃
    refine ⟨after, ?_, hentered.ordered, ?_, hentered.begun_eq, ?_⟩
    · simp only [enterAll, henter, enterAll_append, hb₂, henter₃, hafter, bind, Except.bind]
    · rw [hentered.lines_eq, htoList₃]
      simp
    · rw [hentered.glue_eq, hentered₂.glue_eq]
      simp [GlueFields.after]

theorem enterAll_of_unmatchedEnd {b : Bindings} {bs : List (Nat × Binding)} {line : Nat}
    (h : UnmatchedEnd bs line) (hready : b.Ready bs) (hbegun : b.begun = []) :
    b.enterAll c source bs =
      .error ((Failure.declaration .unmatchedEnd).locate ⟨source, line⟩) := by
  obtain ⟨before, reference, after, rfl, table, hbefore⟩ := h
  obtain ⟨b', hb', hentered⟩ := enterAll_of_nested c source hbefore
    hready.of_append_left
  have hnone : b'.begun = [] := hentered.begun_eq.trans hbegun
  rw [enterAll_append, hb']
  simp [bind, Except.bind, enterAll, enter, close, recordOwner_eq, hnone, throw, throwThe,
    MonadExceptOf.throw]

/-- A begin after a balanced sequence stays open for as long as what follows only opens
invocations of its own. -/
theorem enterAll_past_begin {b : Bindings} {before rest : List (Nat × Binding)} {line : Nat}
    (hbefore : Balanced before) (hready : b.Ready (before ++ (line, .opening) :: rest))
    (hrest : ∀ b : Bindings, b.Ready rest →
      ∃ after begun, b.enterAll c source rest = .ok after ∧ after.begun = begun ++ b.begun) :
    ∃ after begun, b.enterAll c source (before ++ (line, .opening) :: rest) = .ok after ∧
      after.begun = begun ++ line :: b.begun := by
  obtain ⟨table, hnested⟩ := hbefore
  obtain ⟨b₁, hb₁, hentered⟩ := enterAll_of_nested c source hnested
    hready.of_append_left
  have hready₁ := Ready.of_entered before hready hentered.ordered hentered.lines_eq hnested.lines_eq
  obtain ⟨lines, henter, htoList, hordered⟩ := enter_opening c hready₁
  have hready₂ : (⟨lines, b₁.glue, line :: b₁.begun⟩ : Bindings).Ready rest :=
    Ready.of_entered [(line, .opening)] hready₁ hordered htoList rfl
  obtain ⟨after, begun, hafter, hbegun⟩ := hrest _ hready₂
  refine ⟨after, begun, ?_, ?_⟩
  · simp only [enterAll_append, hb₁, enterAll, henter, hafter, bind, Except.bind]
  · rw [hbegun, hentered.begun_eq]

theorem enterAll_of_no_unmatchedEnd {b : Bindings} {bs : List (Nat × Binding)}
    (h : ∀ line, ¬UnmatchedEnd bs line) (hready : b.Ready bs) :
    ∃ after begun, b.enterAll c source bs = .ok after ∧ after.begun = begun ++ b.begun := by
  induction hn : bs.length using Nat.strong_induction_on generalizing bs b with
  | _ n ih =>
    subst hn
    rcases balanced_or_unmatched bs with ⟨table, hnested⟩ | ⟨line, hend⟩ | ⟨line, hbegin⟩
    · obtain ⟨after, hafter, hentered⟩ := enterAll_of_nested c source
        hnested hready
      exact ⟨after, [], hafter, hentered.begun_eq⟩
    · exact absurd hend (h line)
    · obtain ⟨before, rest, rfl, hbefore, hrest⟩ := hbegin
      obtain ⟨after, begun, hafter, hbegun⟩ := enterAll_past_begin c source hbefore hready
        fun b hb => ih rest.length (by simp; omega) hrest hb rfl
      exact ⟨after, begun ++ [line], hafter, by simpa using hbegun⟩

theorem enterAll_of_unclosedBegin {b : Bindings} {bs : List (Nat × Binding)} {line : Nat}
    (h : UnclosedBegin bs line) (hready : b.Ready bs) (hbegun : b.begun = []) :
    ∃ after, b.enterAll c source bs = .ok after ∧ after.begun.getLast? = some line := by
  obtain ⟨before, rest, rfl, hbefore, hrest⟩ := h
  obtain ⟨after, begun, hafter, hopen⟩ := enterAll_past_begin c source hbefore hready
    fun b hb => enterAll_of_no_unmatchedEnd c source hrest hb
  exact ⟨after, hafter, by simp [hopen, hbegun]⟩

theorem unmatchedEnd_of_enterAll_error {c : ClassUnit} {source : String} {b : Bindings}
    {bs : List (Nat × Binding)}
    {failure : Failure} (hready : b.Ready bs) (hbegun : b.begun = [])
    (h : b.enterAll c source bs = .error failure) :
    ∃ line, UnmatchedEnd bs line ∧
      failure = (Failure.declaration .unmatchedEnd).locate ⟨source, line⟩ := by
  rcases balanced_or_unmatched bs with ⟨table, hnested⟩ | ⟨line, hend⟩ | ⟨line, hbegin⟩
  · obtain ⟨after, hafter, -⟩ := enterAll_of_nested c source hnested hready
    rw [hafter] at h
    cases h
  · rw [enterAll_of_unmatchedEnd c source hend hready hbegun] at h
    exact ⟨line, hend, (Except.error.inj h).symm⟩
  · obtain ⟨after, hafter, -⟩ := enterAll_of_unclosedBegin c source hbegin
      hready hbegun
    rw [hafter] at h
    cases h

/-- What is entered without a begin left open is nested. -/
theorem nested_of_enterAll_ok {c : ClassUnit} {source : String} {b after : Bindings}
    {bs : List (Nat × Binding)}
    (hready : b.Ready bs) (hbegun : b.begun = []) (h : b.enterAll c source bs = .ok after)
    (hclosed : after.begun = []) : ∃ table, Nested bs table ∧ Entered c b after bs table := by
  rcases balanced_or_unmatched bs with ⟨table, hnested⟩ | ⟨line, hend⟩ | ⟨line, hbegin⟩
  · obtain ⟨after', hafter', hentered⟩ := enterAll_of_nested c source hnested
      hready
    obtain rfl := Except.ok.inj (h.symm.trans hafter')
    exact ⟨table, hnested, hentered⟩
  · rw [enterAll_of_unmatchedEnd c source hend hready hbegun] at h
    cases h
  · obtain ⟨after', hafter', hopen⟩ := enterAll_of_unclosedBegin c source hbegin
      hready hbegun
    obtain rfl := Except.ok.inj (h.symm.trans hafter')
    rw [hclosed] at hopen
    cases hopen

end Bindings

/-! ### Glue fields -/

namespace GlueFields

theorem isSome_find?_record_of_isSome {g : GlueFields} {owner : ClassName}
    (h : (g.find? owner).isSome) (other : ClassName) : ((g.record other).find? owner).isSome := by
  cases hother : g.find? other with
  | some name =>
    rw [record_of_isSome (by rw [hother]; rfl)]
    exact h
  | none =>
    obtain ⟨name, hfields⟩ := fields_record_of_eq_none hother
    obtain ⟨found, hfound⟩ := Option.isSome_iff_exists.1 h
    rw [find?] at hfound
    rw [find?, hfields, List.lookup_append, hfound]
    rfl

theorem isSome_find?_recordFor {g : GlueFields} {owner : ClassName}
    (h : (g.find? owner).isSome) (c : ClassUnit) {kind : MemberKind} (r : Reference kind) :
    ((g.recordFor c r).find? owner).isSome := by
  unfold recordFor
  split
  · exact h
  · exact isSome_find?_record_of_isSome h _

theorem isSome_find?_foldl {c : ClassUnit} {owner : ClassName} (bs : List Binding) {g : GlueFields}
    (h : (g.find? owner).isSome) : ((bs.foldl (after c) g).find? owner).isSome := by
  induction bs generalizing g with
  | nil => exact h
  | cons binding bs ih =>
    apply ih
    cases binding with
    | opening | classOf owner => exact h
    | closing reference | fieldRead reference => exact isSome_find?_recordFor h c reference

/-- An instance is had of the class itself or through a recorded field. -/
def Reaches {kind : MemberKind} (g : GlueFields) (c : ClassUnit) (r : Reference kind) : Prop :=
  r.isLocal = true ∨ r.owner = c.name ∨ (g.find? r.owner).isSome

theorem reaches_recordFor (g : GlueFields) (c : ClassUnit) {kind : MemberKind}
    (r : Reference kind) : (g.recordFor c r).Reaches c r := by
  unfold recordFor
  split
  · rename_i h
    rcases Bool.or_eq_true_iff.1 h with hlocal | hown
    · exact .inl hlocal
    · exact .inr (.inl (by simpa using hown))
  · exact .inr (.inr (isSome_find?_record _ _))

theorem reaches_foldl {c : ClassUnit} {kind : MemberKind} {r : Reference kind} (bs : List Binding)
    {g : GlueFields} (h : g.Reaches c r) : (bs.foldl (after c) g).Reaches c r := by
  rcases h with h | h | h
  · exact .inl h
  · exact .inr (.inl h)
  · exact .inr (.inr (isSome_find?_foldl bs h))

theorem reaches_of_mem {c : ClassUnit} {bs : List Binding} (g : GlueFields) :
    (∀ reference, .closing reference ∈ bs → (bs.foldl (after c) g).Reaches c reference) ∧
      ∀ reference, .fieldRead reference ∈ bs → (bs.foldl (after c) g).Reaches c reference := by
  induction bs generalizing g with
  | nil => simp
  | cons binding bs ih =>
    obtain ⟨ihClosing, ihField⟩ := ih (after c g binding)
    constructor
    · intro reference hmem
      rcases List.mem_cons.1 hmem with rfl | hmem
      · exact reaches_foldl bs (reaches_recordFor g c reference)
      · exact ihClosing reference hmem
    · intro reference hmem
      rcases List.mem_cons.1 hmem with rfl | hmem
      · exact reaches_foldl bs (reaches_recordFor g c reference)
      · exact ihField reference hmem

end GlueFields
end UnitLink
