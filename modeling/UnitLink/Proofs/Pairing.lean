import UnitLink.Proofs.Nesting
import UnitLink.Proofs.Passes
/-! Resolution pairs the begins and ends of invocations. The pass stops at the first line that
cannot be read, bound or entered. Set beside it is a pass that binds the directives of all
lines and pairs nothing; whether the brackets of its result are balanced decides how the
resolution ends, and their nesting is the resolution's table. -/
namespace UnitLink

variable {σ τ S : Type}

/-- The kinds of directive that a line table has entries for. -/
def DirectiveKind.binds : DirectiveKind → Bool
  | invokeBegin | invokeEnd | readField | classOf => true
  | _ => false

def Binding.kind : Binding → DirectiveKind
  | opening => .invokeBegin
  | closing _ => .invokeEnd
  | fieldRead _ => .readField
  | classOf _ => .classOf

/-- The lines that are bound, with the kinds of their directives. -/
def boundKinds (lines : List Line) : List (Nat × DirectiveKind) :=
  lines.filterMap fun line => line.directive.bind fun d =>
    if d.kind.binds then some (line.number, d.kind) else none

namespace Bindings

open Resolver (Resolving)

def bindLines (r : Resolver) (c : ClassUnit) : List Line → Resolving τ (List (Nat × Binding))
  | [] => return []
  | line :: lines =>
    match line.directive with
    | none => bindLines r c lines
    | some d => do
      match ← bindDirective r c d with
      | none => bindLines r c lines
      | some binding => return (line.number, binding) :: (← bindLines r c lines)

/-- What a visited line comes to when its directive has been bound. -/
def take (b : Bindings) (c : ClassUnit) (line : Nat) :
    Except Stop (Option Binding) → Except Stop Unit × Bindings
  | .error stop => (.error stop, b)
  | .ok none => (.ok (), b)
  | .ok (some binding) =>
    match b.enter c line binding with
    | .ok b => (.ok (), b)
    | .error failure => (.error (.failed failure), b)

theorem visit_eq (r : Resolver) (c : ClassUnit) (line : Line) (b : Bindings) :
    visit (τ := τ) r c line b =
      match line.directive with
      | none => pure (.ok (), b)
      | some d =>
        (bindDirective r c d).run >>= fun result => pure (b.take c line.number result) := by
  unfold visit
  cases line.directive with
  | none => rfl
  | some d =>
    simp only [visitDirective, ExceptT.run_bind, bind_assoc]
    congr 1
    funext result
    rcases result with stop | _ | binding
    · simp [take]
    · simp [take]
    · simp only [take]
      cases b.enter c line.number binding with
      | ok b => simp
      | error failure =>
        simp [Resolver.fail, throw, throwThe, MonadExceptOf.throw, ExceptT.run, ExceptT.mk]

/-! ### What is bound -/

theorem kind_of_bindDirective (r : Resolver) (c : ClassUnit) (d : Directive) :
    (bindDirective (τ := τ) r c d).run.Meets Protocol.any fun result =>
      ∀ bound, result = .ok bound →
        bound.map Binding.kind = if d.kind.binds then some d.kind else none := by
  unfold bindDirective
  cases d.kind with
  | classHeader | field | method | glueFields | glueInit =>
    refine Session.meets_pure ?_
    rintro _ ⟨⟩
    rfl
  | invokeBegin | invokeEnd | readField =>
    refine Session.meets_run_bind ((Session.meets_any _).mono ?_)
    rintro (stop | value) _
    · simp
    · rintro _ ⟨⟩
      rfl
  | classOf =>
    refine Session.meets_run_bind ((Session.meets_any _).mono ?_)
    rintro (stop | signature) _
    · simp
    · refine Session.meets_run_bind ((Session.meets_any _).mono ?_)
      rintro (stop | reference) _
      · simp
      · rintro _ ⟨⟩
        rfl

/-! ### Resolution beside binding -/

section Against

variable {r : Resolver} {c : ClassUnit} {source : String}
  {answer : S → (op : SharedOp τ) → op.Answer × S}

theorem against_bindLines_cons {line : Line} {d : Directive} (hd : line.directive = some d)
    (lines : List Line) (state : S) :
    (bindLines r c (line :: lines)).run.against answer state =
      match (bindDirective r c d).run.against answer state with
      | (.error stop, state) => (.error stop, state)
      | (.ok none, state) => (bindLines r c lines).run.against answer state
      | (.ok (some binding), state) =>
        (((bindLines r c lines).run.against answer state).1.map ((line.number, binding) :: ·),
          ((bindLines r c lines).run.against answer state).2) := by
  rw [bindLines, hd]
  simp only [ExceptT.run_bind, Session.against_bind]
  generalize (bindDirective r c d).run.against answer state = bound
  obtain ⟨result, state⟩ := bound
  rcases result with stop | _ | binding
  · rfl
  · rfl
  · simp only [ExceptT.run_bind, Session.against_bind]
    generalize (bindLines r c lines).run.against answer state = others
    obtain ⟨result, state⟩ := others
    cases result <;> rfl

theorem against_visitLines_cons {text : Except SystemFault String} {line : Line} {number : Nat}
    (hread : Line.read number text = .ok line) (texts : List (Except SystemFault String))
    (b : Bindings) (state : S) :
    (visitLines source (visit r c) number (text :: texts) b).against answer state =
      match line.directive with
      | none => (visitLines source (visit r c) (number + 1) texts b).against answer state
      | some d =>
        match b.take c line.number ((bindDirective r c d).run.against answer state).1 with
        | (.error stop, b) =>
          ((.error (Located.locate ⟨source, number⟩ stop), b),
            ((bindDirective r c d).run.against answer state).2)
        | (.ok (), b) =>
          (visitLines source (visit r c) (number + 1) texts b).against answer
            ((bindDirective r c d).run.against answer state).2 := by
  rw [visitLines, hread]
  simp only [visit_eq]
  cases line.directive with
  | none => rfl
  | some d =>
    simp only [bind_assoc, pure_bind, Session.against_bind]
    generalize (bindDirective r c d).run.against answer state = bound
    obtain ⟨result, state⟩ := bound
    generalize b.take c line.number result = taken
    obtain ⟨outcome, b⟩ := taken
    cases outcome <;> rfl

theorem boundKinds_cons {line : Line} {d : Directive} (hd : line.directive = some d)
    (lines : List Line) :
    boundKinds (line :: lines) =
      (if d.kind.binds then [(line.number, d.kind)] else []) ++ boundKinds lines := by
  unfold boundKinds
  rw [List.filterMap_cons, hd]
  simp only [Option.bind_some]
  split <;> rename_i h <;> split at h <;> simp_all

/-- The lines that are bound are those whose directives bind, each by its own kind. -/
theorem kinds_of_bindLines {lines : List Line} {bs : List (Nat × Binding)} {state : S}
    (h : ((bindLines r c lines).run.against answer state).1 = .ok bs) :
    bs.map (fun x => (x.1, x.2.kind)) = boundKinds lines := by
  induction lines generalizing bs state with
  | nil =>
    obtain rfl := Except.ok.inj h
    rfl
  | cons line lines ih =>
    cases hd : line.directive with
    | none =>
      rw [bindLines, hd] at h
      rw [ih h]
      simp [boundKinds, hd]
    | some d =>
      have hkind := (kind_of_bindDirective r c d).against answer state
      rw [against_bindLines_cons hd] at h
      rw [boundKinds_cons hd]
      generalize (bindDirective r c d).run.against answer state = bound at h hkind
      obtain ⟨result, state'⟩ := bound
      rcases result with stop | _ | binding
      · cases h
      · have hnone : d.kind.binds = false := by simpa using (hkind _ rfl).symm
        rw [ih h, hnone]
        rfl
      · have hsome := hkind _ rfl
        rw [Option.map_some] at hsome
        simp only at h
        cases hrest : ((bindLines r c lines).run.against answer state').1 with
        | error stop =>
          rw [hrest] at h
          cases h
        | ok rest =>
          rw [hrest] at h
          obtain rfl := Except.ok.inj h
          split at hsome
          · rename_i hbinds
            rw [List.map_cons, ih hrest, Option.some.inj hsome, if_pos hbinds]
            rfl
          · cases hsome

theorem of_visitLines_ok {number : Nat} {texts : List (Except SystemFault String)}
    {b after : Bindings} {state : S}
    (h : ((visitLines source (visit r c) number texts b).against answer state).1 =
      ((.ok (), after) : Except Stop Unit × Bindings)) :
    ∃ lines bs, readLines source number texts = .ok lines ∧
      ((bindLines r c lines).run.against answer state).1 = .ok bs ∧
      b.enterAll c source bs = .ok after := by
  -- a line that binds to nothing changes neither the bindings nor what is shared
  induction texts generalizing number b state with
  | nil =>
    obtain ⟨-, rfl⟩ := Prod.mk.inj h
    exact ⟨[], [], rfl, rfl, rfl⟩
  | cons text texts ih =>
    cases hread : Line.read number text with
    | error failure =>
      rw [visitLines, hread] at h
      cases h
    | ok line =>
      rw [against_visitLines_cons hread] at h
      rw [readLines_cons_of_ok hread]
      cases hd : line.directive with
      | none =>
        simp only [hd] at h
        obtain ⟨lines, bs, hlines, hbound, hentered⟩ := ih h
        refine ⟨line :: lines, bs, by rw [hlines]; rfl, ?_, hentered⟩
        rw [bindLines, hd]
        exact hbound
      | some d =>
        simp only [hd] at h
        have hcons := @against_bindLines_cons _ _ r c answer _ _ hd
        generalize hbind : (bindDirective r c d).run.against answer state = bound at h
        obtain ⟨result, state'⟩ := bound
        rcases result with stop | _ | binding
        · cases h
        · obtain ⟨lines, bs, hlines, hbound, hentered⟩ := ih h
          refine ⟨line :: lines, bs, by rw [hlines]; rfl, ?_, hentered⟩
          rw [hcons, hbind]
          exact hbound
        · simp only [take] at h
          cases henter : b.enter c line.number binding with
          | error failure =>
            rw [henter] at h
            cases h
          | ok b' =>
            rw [henter] at h
            obtain ⟨lines, bs, hlines, hbound, hentered⟩ := ih h
            refine ⟨line :: lines, (line.number, binding) :: bs, by rw [hlines]; rfl, ?_, ?_⟩
            · rw [hcons, hbind]
              simp only [hbound]
              rfl
            · rw [enterAll, henter]
              exact hentered

/-- Where all lines can be read and bound, entering decides how the pass ends. -/
theorem visitLines_of_bound {number : Nat} {texts : List (Except SystemFault String)}
    {lines : List Line} {bs : List (Nat × Binding)} {b : Bindings} {state : S}
    (hlines : readLines source number texts = .ok lines)
    (hbound : ((bindLines r c lines).run.against answer state).1 = .ok bs) :
    match b.enterAll c source bs with
    | .ok after => ((visitLines source (visit r c) number texts b).against answer state).1 =
        ((.ok (), after) : Except Stop Unit × Bindings)
    | .error failure => ((visitLines source (visit r c) number texts b).against answer state).1.1 =
        (.error (.failed failure) : Except Stop Unit) := by
  induction texts generalizing number lines bs b state with
  | nil =>
    obtain rfl := Except.ok.inj hlines
    obtain rfl := Except.ok.inj hbound
    rfl
  | cons text texts ih =>
    obtain ⟨line, others, hread, hothers, rfl⟩ := readLines_cons_eq_ok hlines
    rw [against_visitLines_cons hread]
    cases hd : line.directive with
    | none =>
      rw [bindLines, hd] at hbound
      exact ih hothers hbound
    | some d =>
      rw [against_bindLines_cons hd] at hbound
      simp only
      generalize (bindDirective r c d).run.against answer state = bound at hbound ⊢
      obtain ⟨result, state'⟩ := bound
      rcases result with stop | _ | binding
      · cases hbound
      · exact ih hothers hbound
      · simp only at hbound
        cases hrest : ((bindLines r c others).run.against answer state').1 with
        | error stop =>
          rw [hrest] at hbound
          cases hbound
        | ok rest =>
          rw [hrest] at hbound
          obtain rfl := Except.ok.inj hbound
          simp only [enterAll, take]
          rw [Line.number_of_read hread]
          cases b.enter c number binding with
          | error failure => rfl
          | ok b' => exact ih hothers hrest

end Against

end Bindings

theorem ascending_of_readLines {source : String} {number : Nat}
    {texts : List (Except SystemFault String)} {lines : List Line}
    (h : readLines source number texts = .ok lines) :
    lines.Pairwise (fun a b => a.number < b.number) ∧ ∀ line ∈ lines, number ≤ line.number := by
  induction texts generalizing number lines with
  | nil =>
    obtain rfl := Except.ok.inj h
    simp
  | cons text texts ih =>
    obtain ⟨line, others, hread, hothers, rfl⟩ := readLines_cons_eq_ok h
    obtain ⟨hascending, hle⟩ := ih hothers
    have hnumber := Line.number_of_read hread
    refine ⟨List.pairwise_cons.2 ⟨fun other hother => ?_, hascending⟩, ?_⟩
    · have := hle other hother
      omega
    · intro other hother
      rcases List.mem_cons.1 hother with rfl | hother
      · exact hnumber.ge
      · have := hle other hother
        omega

theorem boundKinds_ascending {lines : List Line}
    (h : lines.Pairwise fun a b => a.number < b.number) :
    (boundKinds lines).Pairwise fun a b => a.1 < b.1 := by
  refine h.filterMap _ fun a b hab x hx y hy => ?_
  obtain ⟨d, -, hd⟩ := Option.bind_eq_some_iff.1 hx
  obtain ⟨e, -, he⟩ := Option.bind_eq_some_iff.1 hy
  split at hd
  · split at he
    · obtain rfl := Option.some.inj hd
      obtain rfl := Option.some.inj he
      exact hab
    · cases he
  · cases hd

theorem Bindings.ready_start {lines : List Line} {bs : List (Nat × Binding)}
    (context : ClassName) (hlines : lines.Pairwise fun a b => a.number < b.number)
    (hkinds : bs.map (fun x => (x.1, x.2.kind)) = boundKinds lines) :
    (Bindings.start context).Ready bs where
  ordered := LineTable.ordered_empty
  above := by simp [Bindings.start]
  ascending := by
    have h := boundKinds_ascending hlines
    rw [← hkinds, List.pairwise_map] at h
    exact h

@[simp] theorem Source.name_releaseInput (s : Source σ) : s.releaseInput.name = s.name := rfl

@[simp] theorem Source.name_startInput (s : Source σ) : s.startInput.2.name = s.name := by
  unfold startInput
  split
  · rfl
  · split
    · rfl
    · split <;> rfl

variable [CommonStore σ τ]

theorem Source.name_against_startInput (s : Source σ)
    (answer : S → (op : SharedOp τ) → op.Answer × S) (state : S) :
    ((s.inTurn startInput).against answer state).1.2.name = s.name := by
  have h : (s.inTurn startInput).Meets Protocol.any fun opened => opened.2.name = s.name :=
    ⟨trivial, fun common _ => name_startInput _⟩
  exact h.against answer state

theorem Source.against_resolve (s : Source σ) (c : ClassUnit) (r : Resolver)
    (context : ClassName) (answer : S → (op : SharedOp τ) → op.Answer × S) (state : S) :
    ((s.resolve c r context).against answer state).1.1 =
      match (s.inTurn startInput).against answer state with
      | ((.error failure, _), _) => .error (.failed failure)
      | ((.ok (), opened), state) =>
        match ((UnitLink.visitLines s.name (Bindings.visit r c) 1 opened.unread
            (Bindings.start context)).against answer state).1 with
        | (.error stop, _) => .error stop
        | (.ok (), b) => (b.finish s.name c).mapError .failed := by
  have hname := s.name_against_startInput answer state
  rw [resolve, Session.against_bind]
  generalize (s.inTurn startInput).against answer state = started at hname
  obtain ⟨⟨outcome, opened⟩, state⟩ := started
  rw [← hname]
  cases outcome with
  | error failure => rfl
  | ok done =>
    rw [visitStarted_reading]
    simp only [bind_assoc, pure_bind, Session.against_bind]
    generalize (UnitLink.visitLines opened.name (Bindings.visit r c) 1 opened.unread
      (Bindings.start context)).against answer state = pass
    obtain ⟨⟨outcome, b⟩, state⟩ := pass
    cases outcome <;> rfl

/-- A source whose input opens and all of whose lines can be read and bound, each line by
itself, and what they are bound to. -/
structure Source.BindsTo (s : Source σ) (c : ClassUnit) (r : Resolver)
    (answer : S → (op : SharedOp τ) → op.Answer × S) (state : S) (lines : List Line)
    (bs : List (Nat × Binding)) : Prop where
  opens : ((s.inTurn startInput).against answer state).1.1 = .ok ()
  reads : readLines s.name 1 ((s.inTurn startInput).against answer state).1.2.unread = .ok lines
  binds : ((Bindings.bindLines r c lines).run.against answer
    ((s.inTurn startInput).against answer state).2).1 = .ok bs

namespace Source.BindsTo

variable {s : Source σ} {c : ClassUnit} {r : Resolver}
  {answer : S → (op : SharedOp τ) → op.Answer × S} {state : S} {lines : List Line}
  {bs : List (Nat × Binding)}

theorem kinds_eq (h : s.BindsTo c r answer state lines bs) :
    bs.map (fun x => (x.1, x.2.kind)) = boundKinds lines :=
  Bindings.kinds_of_bindLines h.binds

theorem ready (h : s.BindsTo c r answer state lines bs) (context : ClassName) :
    (Bindings.start context).Ready bs :=
  Bindings.ready_start context (ascending_of_readLines h.reads).1 h.kinds_eq

theorem against_resolve (h : s.BindsTo c r answer state lines bs) (context : ClassName) :
    ((s.resolve c r context).against answer state).1.1 =
      match (Bindings.start context).enterAll c s.name bs with
      | .error failure => .error (.failed failure)
      | .ok b => (b.finish s.name c).mapError .failed := by
  obtain ⟨hopens, hreads, hbinds⟩ := h
  rw [Source.against_resolve]
  generalize (s.inTurn startInput).against answer state = started at hopens hreads hbinds
  obtain ⟨⟨outcome, opened⟩, state'⟩ := started
  obtain rfl : outcome = .ok () := hopens
  have hpass := Bindings.visitLines_of_bound (b := Bindings.start context) hreads hbinds
  simp only at hpass ⊢
  generalize ((UnitLink.visitLines s.name (Bindings.visit r c) 1 opened.unread
    (Bindings.start context)).against answer state').1 = pass at hpass ⊢
  obtain ⟨outcome, last⟩ := pass
  cases hentered : (Bindings.start context).enterAll c s.name bs with
  | error failure =>
    rw [hentered] at hpass
    obtain rfl : outcome = .error (.failed failure) := hpass
    rfl
  | ok b =>
    rw [hentered] at hpass
    obtain ⟨rfl, rfl⟩ := Prod.mk.inj hpass
    rfl

theorem resolve_of_nested (h : s.BindsTo c r answer state lines bs) (context : ClassName)
    {table : List (Nat × Resolved)} (hnested : Nested bs table) :
    ∃ b, ((s.resolve c r context).against answer state).1.1 = .ok ⟨c, b.lines, b.glue⟩ ∧
      Bindings.Entered c (.start context) b bs table := by
  obtain ⟨b, hb, hentered⟩ := Bindings.enterAll_of_nested c s.name hnested
    (h.ready context)
  have hbegun : b.begun = [] := hentered.begun_eq
  refine ⟨b, ?_, hentered⟩
  rw [h.against_resolve, hb]
  simp only [Bindings.finish, hbegun, List.getLast?_nil]
  rfl

theorem resolve_of_unmatchedEnd (h : s.BindsTo c r answer state lines bs) (context : ClassName)
    {line : Nat} (hend : UnmatchedEnd bs line) :
    ((s.resolve c r context).against answer state).1.1 =
      .error (.failed ⟨[.on ⟨s.name, line⟩], .declaration .unmatchedEnd⟩) := by
  rw [h.against_resolve, Bindings.enterAll_of_unmatchedEnd c s.name hend (h.ready context) rfl]
  rfl

theorem resolve_of_unclosedBegin (h : s.BindsTo c r answer state lines bs) (context : ClassName)
    {line : Nat} (hbegin : UnclosedBegin bs line) :
    ((s.resolve c r context).against answer state).1.1 =
      .error (.failed ⟨[.on ⟨s.name, line⟩], .declaration .unmatchedBegin⟩) := by
  obtain ⟨b, hb, hbegun⟩ := Bindings.enterAll_of_unclosedBegin c s.name
    hbegin (h.ready context) rfl
  rw [h.against_resolve, hb]
  simp only [Bindings.finish, hbegun]
  rfl

end Source.BindsTo

theorem Source.bindsTo_of_resolve_ok {s : Source σ} {c : ClassUnit} {r : Resolver}
    {context : ClassName} {answer : S → (op : SharedOp τ) → op.Answer × S} {state : S}
    {resolution : Resolution}
    (h : ((s.resolve c r context).against answer state).1.1 = .ok resolution) :
    ∃ lines bs, s.BindsTo c r answer state lines bs := by
  rw [Source.against_resolve] at h
  generalize hstarted : (s.inTurn startInput).against answer state = started at h
  obtain ⟨⟨outcome, opened⟩, state'⟩ := started
  cases outcome with
  | error failure => cases h
  | ok done =>
    simp only at h
    generalize hpass : ((UnitLink.visitLines s.name (Bindings.visit r c) 1 opened.unread
      (Bindings.start context)).against answer state').1 = pass at h
    obtain ⟨outcome, b⟩ := pass
    cases outcome with
    | error stop => cases h
    | ok done =>
      obtain ⟨lines, bs, hlines, hbound, -⟩ := Bindings.of_visitLines_ok hpass
      exact ⟨lines, bs, by rw [hstarted], by rw [hstarted]; exact hlines,
        by rw [hstarted]; exact hbound⟩

/-- Among the sources that bind, those that resolve are the balanced ones. -/
theorem Source.BindsTo.exists_nested {s : Source σ} {c : ClassUnit} {r : Resolver}
    {context : ClassName} {answer : S → (op : SharedOp τ) → op.Answer × S} {state : S}
    {lines : List Line} {bs : List (Nat × Binding)} {resolution : Resolution}
    (h : s.BindsTo c r answer state lines bs)
    (hok : ((s.resolve c r context).against answer state).1.1 = .ok resolution) :
    Nested bs resolution.lines.toList ∧ resolution.lines.Ordered := by
  rcases balanced_or_unmatched bs with ⟨table, hnested⟩ | ⟨line, hend⟩ | ⟨line, hbegin⟩
  · obtain ⟨b, hb, hentered⟩ := h.resolve_of_nested context hnested
    rw [hok] at hb
    obtain rfl := Except.ok.inj hb
    have htable : b.lines.toList = table := by simpa [Bindings.start] using hentered.lines_eq
    exact ⟨htable ▸ hnested, hentered.ordered⟩
  · rw [h.resolve_of_unmatchedEnd context hend] at hok
    cases hok
  · rw [h.resolve_of_unclosedBegin context hbegin] at hok
    cases hok

/-- A resolution that succeeds has paired the ends of invocations by nesting, and its table
holds what the nesting says and nothing else. Where all lines can be bound, the resolution
succeeds exactly if the invocations are balanced; else it fails on the line of the first
end too many, or without one on that of the earliest begin left unclosed. -/
theorem Source.resolve_pairs_invocations (s : Source σ) (c : ClassUnit) (r : Resolver)
    (context : ClassName) (answer : S → (op : SharedOp τ) → op.Answer × S) (state : S) :
    (∀ resolution, ((s.resolve c r context).against answer state).1.1 = .ok resolution →
      ∃ lines bs, s.BindsTo c r answer state lines bs ∧
        bs.map (fun x => (x.1, x.2.kind)) = boundKinds lines ∧
        Nested bs resolution.lines.toList ∧
        resolution.lines.toList.map Prod.fst = (boundKinds lines).map Prod.fst ∧
        (∀ line resolved, resolution.lines.get? line = some resolved ↔
          (line, resolved) ∈ resolution.lines.toList) ∧
        ∀ entry ∈ resolution.lines.toList, entry.2 ≠ .unpaired) ∧
    ∀ lines bs, s.BindsTo c r answer state lines bs →
      ((∃ resolution, ((s.resolve c r context).against answer state).1.1 = .ok resolution) ↔
        Balanced bs) ∧
      (∀ line, UnmatchedEnd bs line → ((s.resolve c r context).against answer state).1.1 =
        .error (.failed ⟨[.on ⟨s.name, line⟩], .declaration .unmatchedEnd⟩)) ∧
      (∀ line, UnclosedBegin bs line → ((s.resolve c r context).against answer state).1.1 =
        .error (.failed ⟨[.on ⟨s.name, line⟩], .declaration .unmatchedBegin⟩)) ∧
      (Balanced bs ∨ (∃ line, UnmatchedEnd bs line) ∨ ∃ line, UnclosedBegin bs line) := by
  constructor
  · intro resolution hok
    obtain ⟨lines, bs, hbinds⟩ := bindsTo_of_resolve_ok hok
    obtain ⟨hnested, hordered⟩ := hbinds.exists_nested hok
    refine ⟨lines, bs, hbinds, hbinds.kinds_eq, hnested, ?_, fun line resolved => ?_, ?_⟩
    · rw [hnested.lines_eq, ← hbinds.kinds_eq, List.map_map]
      rfl
    · exact hordered.get?_eq_some_iff
    · exact hnested.not_unpaired
  · intro lines bs hbinds
    refine ⟨⟨?_, ?_⟩, fun line hend => hbinds.resolve_of_unmatchedEnd context hend,
      fun line hbegin => hbinds.resolve_of_unclosedBegin context hbegin,
      balanced_or_unmatched bs⟩
    · rintro ⟨resolution, hok⟩
      exact ⟨_, (hbinds.exists_nested hok).1⟩
    · rintro ⟨table, hnested⟩
      obtain ⟨b, hb, -⟩ := hbinds.resolve_of_nested context hnested
      exact ⟨_, hb⟩

end UnitLink
