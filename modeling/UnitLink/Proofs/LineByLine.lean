import UnitLink.Proofs.LifeCycle
import UnitLink.Proofs.MemorySources
/-! Rewriting goes line by line. The output of a source that is rewritten has one part for each
of its lines, in their order, and a part depends on its own line and on the entry of its own
number in the table, whatever way the cursor took there. -/
namespace UnitLink

variable {σ τ S : Type}

/-! ### The bytes of an output -/

/-- What was written since the output was created. The calls are given the latest first. -/
def BackendCall.written : List BackendCall → ByteArray
  | [] => .empty
  | .createOutput :: _ => .empty
  | .write bytes :: calls => written calls ++ bytes
  | _ :: calls => written calls

namespace Source

/-- The bytes that the output of a source has so far. -/
def written (s : Source σ) : ByteArray := BackendCall.written s.calls

theorem written_write (s : Source σ) (bytes : ByteArray) :
    (s.write bytes).2.written = s.written ++ bytes := by
  unfold write
  split
  · rename_i hempty
    obtain rfl : bytes = .empty := by simpa [ByteArray.isEmpty] using hempty
    exact ByteArray.append_empty.symm
  · simp [written, called, BackendCall.written]

theorem written_startInput (s : Source σ) : s.startInput.2.written = s.written := by
  unfold startInput
  split
  · rfl
  · split
    · rfl
    · split <;> simp [written, called, BackendCall.written]

theorem written_of_startOutput {s created : Source σ} (h : s.startOutput = (.ok (), created)) :
    created.written = .empty := by
  unfold startOutput at h
  split at h
  · cases h
  · split at h
    · cases h
    · split at h
      · obtain ⟨-, rfl⟩ := Prod.mk.inj h
        simp [written, called, BackendCall.written]
      · cases h

theorem written_finishOutput (s : Source σ) : s.finishOutput.2.written = s.written := by
  unfold finishOutput flush
  split <;> rename_i hflush <;> obtain ⟨-, rfl⟩ := Prod.mk.inj hflush <;>
    simp [written, called, releaseOutput, BackendCall.written]

theorem written_of_writeLines {s after : Source σ} {lines : List String}
    (h : s.writeLines lines = (.ok (), after)) :
    after.written = s.written ++ (String.join (lines.map (· ++ lineSeparator))).toUTF8 := by
  induction lines generalizing s with
  | nil =>
    obtain ⟨-, rfl⟩ := Prod.mk.inj h
    exact ByteArray.append_empty.symm
  | cons line lines ih =>
    have hwritten := s.written_write (line ++ lineSeparator).toUTF8
    unfold writeLines at h
    split at h
    · rename_i next hnext
      rw [hnext] at hwritten
      rw [ih h, hwritten]
      simp [ByteArray.append_assoc]
    · cases h

end Source

/-! ### The parts of an output -/

namespace Resolution

/-- What a directive stands for, given the class of its source, the glue fields and what its
line resolved to. -/
def expansion (c : ClassUnit) (glue : GlueFields) (d : Directive) (resolved : Option Resolved) :
    Except Failure (List Assembly) :=
  expand ⟨c, .empty, glue⟩ d resolved

/-- An expansion does not look at the table. -/
theorem expand_eq (r : Resolution) (d : Directive) (resolved : Option Resolved) :
    r.expand d resolved = expansion r.declared r.glue d resolved := by
  unfold expansion expand
  rfl

/-- What the output has for one line: the line itself, or the lines that its directive stands
for, each after the directive's indentation. -/
def lineOutput (c : ClassUnit) (glue : GlueFields) (table : LineTable Resolved) (number : Nat)
    (text : String) : Except Failure String :=
  match Directive.parse text with
  | .error fault => .error (.declaration (.badDirective fault))
  | .ok none => .ok (text ++ lineSeparator)
  | .ok (some d) =>
    (expansion c glue d (table.get? number)).map fun lines =>
      String.join (lines.map fun line => d.indent ++ line.text ++ lineSeparator)

def lineOutputs (c : ClassUnit) (glue : GlueFields) (table : LineTable Resolved)
    (texts : List String) : Except Failure (List String) :=
  (texts.zipIdx 1).mapM fun (text, number) => lineOutput c glue table number text

section

variable {c : ClassUnit} {glue : GlueFields} {table : LineTable Resolved}

theorem exists_parsed {number : Nat} {text part : String}
    (h : lineOutput c glue table number text = .ok part) :
    ∃ directive, Directive.parse text = .ok directive := by
  unfold lineOutput at h
  split at h
  · cases h
  · exact ⟨_, ‹_›⟩
  · exact ⟨_, ‹_›⟩

theorem exists_expansion {number : Nat} {text part : String} {d : Directive}
    (hparsed : Directive.parse text = .ok (some d))
    (h : lineOutput c glue table number text = .ok part) :
    ∃ out, expansion c glue d (table.get? number) = .ok out ∧
      part = String.join (out.map fun line => d.indent ++ line.text ++ lineSeparator) := by
  unfold lineOutput at h
  rw [hparsed] at h
  simp only at h
  cases hout : expansion c glue d (table.get? number) with
  | error failure =>
    rw [hout] at h
    cases h
  | ok out =>
    rw [hout] at h
    exact ⟨out, rfl, (Except.ok.inj h).symm⟩

theorem forall₂_of_lineOutputs {texts parts : List String} {start : Nat}
    (h : ((texts.zipIdx start).mapM fun (text, number) =>
      lineOutput c glue table number text) = .ok parts) :
    List.Forall₂ (fun x part => lineOutput c glue table x.2 x.1 = .ok part)
      (texts.zipIdx start) parts := by
  induction texts generalizing parts start with
  | nil =>
    obtain rfl := Except.ok.inj h
    exact .nil
  | cons first others ih =>
    rw [List.zipIdx_cons, List.mapM_cons] at h
    obtain ⟨part, hfirst, h⟩ := exists_of_bind_eq_ok h
    obtain ⟨rest, hothers, h⟩ := exists_of_bind_eq_ok h
    obtain rfl := Except.ok.inj h
    exact .cons hfirst (ih hothers)

theorem exists_lineOutput {texts parts : List String} {start : Nat}
    (h : ((texts.zipIdx start).mapM fun (text, number) =>
      lineOutput c glue table number text) = .ok parts)
    {i : Nat} {text : String} (hi : texts[i]? = some text) :
    ∃ part, parts[i]? = some part ∧ lineOutput c glue table (i + start) text = .ok part := by
  induction texts generalizing parts i start with
  | nil => cases hi
  | cons first others ih =>
    rw [List.zipIdx_cons, List.mapM_cons] at h
    obtain ⟨part, hfirst, h⟩ := exists_of_bind_eq_ok h
    obtain ⟨rest, hothers, h⟩ := exists_of_bind_eq_ok h
    obtain rfl := Except.ok.inj h
    cases i with
    | zero =>
      obtain rfl := Option.some.inj hi
      rw [Nat.zero_add]
      exact ⟨part, rfl, hfirst⟩
    | succ i =>
      rw [Nat.succ_add_eq_add_succ]
      exact ih hothers hi

end

end Resolution

theorem Line.of_read {number : Nat} {text : Except SystemFault String} {line : Line}
    (h : Line.read number text = .ok line) :
    text = .ok line.text ∧ Directive.parse line.text = .ok line.directive := by
  unfold Line.read at h
  split at h
  · cases h
  · split at h
    · cases h
    · rename_i hparsed
      obtain rfl := Except.ok.inj h
      exact ⟨rfl, hparsed⟩

/-- Lines that could be read have the texts and numbers of what was there. -/
theorem texts_of_readLines {source : String} {number : Nat}
    {unread : List (Except SystemFault String)} {lines : List Line}
    (h : readLines source number unread = .ok lines) :
    unread = (lines.map Line.text).map .ok ∧
      (lines.map Line.text).zipIdx number = lines.map fun line => (line.text, line.number) := by
  induction unread generalizing number lines with
  | nil =>
    obtain rfl := Except.ok.inj h
    exact ⟨rfl, rfl⟩
  | cons text unread ih =>
    obtain ⟨line, others, hline, hothers, rfl⟩ := readLines_cons_eq_ok h
    obtain ⟨hunread, hnumbered⟩ := ih hothers
    constructor
    · rw [(Line.of_read hline).1, hunread]
      simp
    · rw [List.map_cons, List.zipIdx_cons, hnumbered, List.map_cons, Line.number_of_read hline]

theorem texts_eq_of_readLines {source : String} {number : Nat} {texts : List String}
    {lines : List Line} (h : readLines source number (texts.map .ok) = .ok lines) :
    texts = lines.map Line.text :=
  List.map_injective_iff.2 (fun _ _ => Except.ok.inj) (texts_of_readLines h).1

theorem parsed_of_readLines {source : String} {number : Nat}
    {texts : List (Except SystemFault String)} {lines : List Line}
    (h : readLines source number texts = .ok lines) {line : Line} (hline : line ∈ lines) :
    .ok line.text ∈ texts ∧ Directive.parse line.text = .ok line.directive := by
  induction texts generalizing number lines with
  | nil =>
    obtain rfl := Except.ok.inj h
    cases hline
  | cons text texts ih =>
    obtain ⟨first, others, hfirst, hothers, rfl⟩ := readLines_cons_eq_ok h
    obtain ⟨htext, hparsed⟩ := Line.of_read hfirst
    rcases List.mem_cons.1 hline with rfl | hline
    · exact ⟨htext ▸ List.mem_cons_self, hparsed⟩
    · obtain ⟨hmem, hparsed⟩ := ih hothers hline
      exact ⟨List.mem_cons_of_mem _ hmem, hparsed⟩

/-! ### The pass -/

namespace Source

theorem rewriteLine_spec {r : Resolution} (hordered : r.lines.Ordered) {line : Line}
    (hparsed : Directive.parse line.text = .ok line.directive) {s after : Source σ}
    {cursor last : LineCursor} (hbehind : cursor.Behind r.lines line.number)
    (h : rewriteLine r line (s, cursor) = (.ok (), after, last)) :
    last.Behind r.lines line.number ∧
      ∃ part, Resolution.lineOutput r.declared r.glue r.lines line.number line.text = .ok part ∧
        after.written = s.written ++ part.toUTF8 := by
  unfold Resolution.lineOutput
  unfold rewriteLine at h
  rw [hparsed]
  cases hd : line.directive with
  | none =>
    rw [hd] at h
    simp only [Prod.mk.injEq] at h
    obtain ⟨hok, rfl, rfl⟩ := h
    refine ⟨hbehind, line.text ++ lineSeparator, rfl, ?_⟩
    rw [written_of_writeLines (Prod.ext hok rfl)]
    simp
  | some d =>
    obtain ⟨hget, hbehind'⟩ := hbehind.get? hordered
    rw [hd] at h
    simp only [hget] at h
    rw [r.expand_eq] at h
    simp only
    cases hout : Resolution.expansion r.declared r.glue d (r.lines.get? line.number) with
    | error failure =>
      rw [hout] at h
      cases h
    | ok lines =>
      rw [hout] at h
      simp only [Prod.mk.injEq] at h
      obtain ⟨hok, rfl, rfl⟩ := h
      refine ⟨hbehind', _, rfl, ?_⟩
      rw [written_of_writeLines (Prod.ext hok rfl), List.map_map]
      rfl

/-- What is known after some lines were rewritten: their parts are the output so far, and the
cursor has passed no line to come. -/
structure Copied (r : Resolution) (seen : List Line) (state : Source σ × LineCursor) : Prop where
  parts : ∃ parts, (seen.mapM fun line =>
      Resolution.lineOutput r.declared r.glue r.lines line.number line.text) = .ok parts ∧
    state.1.written = (String.join parts).toUTF8
  behind : state.2.Behind r.lines (seen.length + 1)

theorem Copied.rewriteLine {r : Resolution} (hordered : r.lines.Ordered) {seen : List Line}
    {state after : Source σ × LineCursor} (h : Copied r seen state) {line : Line}
    (hnumber : line.number = seen.length + 1)
    (hparsed : Directive.parse line.text = .ok line.directive)
    (hline : Source.rewriteLine r line state = (.ok (), after)) :
    Copied r (seen ++ [line]) after := by
  obtain ⟨⟨parts, hparts, hwritten⟩, hbehind⟩ := h
  obtain ⟨hbehind', part, hpart, hwritten'⟩ :=
    rewriteLine_spec hordered hparsed (hnumber ▸ hbehind) hline
  refine ⟨⟨parts ++ [part], ?_, ?_⟩, ?_⟩
  · rw [List.mapM_append, hparts]
    simp [hpart]
    rfl
  · rw [hwritten', hwritten]
    simp
  · refine hbehind'.mono ?_
    simp [hnumber]

theorem rewrite_eq_ok {s after : Source σ} {r : Resolution} (h : s.rewrite r = (.ok (), after)) :
    ∃ created rewritten cursor, s.startOutput = (.ok (), created) ∧
      created.rewritePass r = (.ok (), rewritten, cursor) ∧
      rewritten.finishOutput = (.ok (), after) := by
  unfold rewrite at h
  generalize hcreated : s.startOutput = creating at h
  obtain ⟨failure | done, created⟩ := creating
  · cases h
  simp only at h
  generalize hpass : visitOwnLines (m := Id) created (rewriteLine r) LineCursor.start = pass at h
  obtain ⟨failure | done, rewritten, cursor⟩ := pass
  · cases h
  · exact ⟨created, rewritten, cursor, rfl, hpass, h⟩

theorem opens_of_rewritePass_ok {created rewritten : Source σ} {r : Resolution}
    {cursor : LineCursor} (h : created.rewritePass r = (.ok (), rewritten, cursor)) :
    ∃ opened, created.startInput = (.ok (), opened) := by
  unfold rewritePass visitOwnLines at h
  generalize created.startInput = opening at h
  obtain ⟨failure | done, opened⟩ := opening
  · cases h
  · exact ⟨opened, rfl⟩

theorem rewritePass_of_opened {created opened : Source σ}
    (h : created.startInput = (.ok (), opened)) (r : Resolution) :
    created.rewritePass r =
      let (outcome, last, cursor) := UnitLink.visitLines (m := Id) opened.name (rewriteLine r) 1
        opened.unread (opened, LineCursor.start)
      (outcome, last.releaseInput, cursor) := by
  unfold rewritePass visitOwnLines
  rw [h]
  rfl

/-- The output of a rewriting pass, for a table in order: one part for each line that was
read. -/
theorem written_of_rewritePass {created rewritten : Source σ} {r : Resolution}
    {cursor : LineCursor} (hordered : r.lines.Ordered) (hempty : created.written = .empty)
    (h : created.rewritePass r = (.ok (), rewritten, cursor)) :
    ∃ opened texts parts, created.startInput = (.ok (), opened) ∧
      opened.unread = texts.map .ok ∧
      Resolution.lineOutputs r.declared r.glue r.lines texts = .ok parts ∧
      rewritten.written = (String.join parts).toUTF8 := by
  obtain ⟨opened, hopened⟩ := opens_of_rewritePass_ok h
  rw [rewritePass_of_opened hopened] at h
  have hstarted := created.written_startInput
  rw [hopened] at hstarted
  have hstart : Copied r [] (opened, LineCursor.start) :=
    ⟨⟨[], rfl, hstarted.trans hempty⟩, LineCursor.behind_start _ _⟩
  have hcopied := visitLines_spec Judgement.plain opened.name (rewriteLine r) opened.unread
    (Copied r) (fun (_ : Failure) _ => True)
    (fun seen text line state _ hread hseen => ?_) (fun _ _ _ _ _ _ _ => trivial) hstart
  · dsimp only [Judgement.plain] at hcopied
    generalize UnitLink.visitLines (m := Id) opened.name (rewriteLine r) 1 opened.unread
      (opened, LineCursor.start) = pass at h hcopied
    obtain ⟨failure | done, last, cursor'⟩ := pass
    · cases h
    obtain ⟨lines, hlines, ⟨parts, hparts, hwritten⟩, -⟩ := hcopied
    obtain ⟨hunread, hnumbered⟩ := texts_of_readLines hlines
    obtain ⟨-, hstate⟩ := Prod.mk.inj h
    obtain ⟨rfl, -⟩ := Prod.mk.inj hstate
    refine ⟨opened, lines.map Line.text, parts, hopened, hunread, ?_, hwritten⟩
    rw [Resolution.lineOutputs, hnumbered, List.mapM_map]
    exact hparts
  · dsimp only [Judgement.plain]
    cases hline : rewriteLine r line state with
    | mk outcome state' =>
      cases outcome with
      | error failure => trivial
      | ok done =>
        exact hseen.rewriteLine hordered (Line.number_of_read hread) (Line.of_read hread).2 hline

theorem written_of_rewrite {s after : Source σ} {r : Resolution} (hordered : r.lines.Ordered)
    (h : s.rewrite r = (.ok (), after)) :
    ∃ created opened texts parts, s.startOutput = (.ok (), created) ∧
      created.startInput = (.ok (), opened) ∧ opened.unread = texts.map .ok ∧
      Resolution.lineOutputs r.declared r.glue r.lines texts = .ok parts ∧
      after.written = (String.join parts).toUTF8 := by
  obtain ⟨created, rewritten, cursor, hcreated, hpass, hfinished⟩ := rewrite_eq_ok h
  obtain ⟨opened, texts, parts, hopened, hunread, hparts, hwritten⟩ :=
    written_of_rewritePass hordered (written_of_startOutput hcreated) hpass
  have hkept := rewritten.written_finishOutput
  rw [hfinished, hwritten] at hkept
  exact ⟨created, opened, texts, parts, hcreated, hopened, hunread, hparts, hkept⟩

/-! ### In memory -/

section InMemory

variable {s : Source (Beside MemoryStore τ)} {text : String} {r : Resolution}

/-- A source in memory whose staged bytes are those of its output. -/
structure Staged (s : Source (Beside MemoryStore τ)) : Prop where
  backend_eq : s.backend = Beside.backend MemoryStore.backend
  staged_eq : s.store.own.staged = s.written

theorem Staged.write (h : s.Staged) (bytes : ByteArray) : (s.write bytes).2.Staged := by
  have hwritten := s.written_write bytes
  unfold Source.write at hwritten ⊢
  split
  · exact h
  · rename_i hbytes
    rw [if_neg hbytes] at hwritten
    refine ⟨h.backend_eq, ?_⟩
    rw [hwritten, ← h.staged_eq, h.backend_eq]
    rfl

theorem Staged.startInput (h : s.Staged) : s.startInput.2.Staged := by
  have hwritten := s.written_startInput
  refine ⟨?_, ?_⟩
  · unfold Source.startInput
    split
    · exact h.backend_eq
    · split
      · exact h.backend_eq
      · split <;> exact h.backend_eq
  · rw [hwritten, ← h.staged_eq]
    unfold Source.startInput
    rw [h.backend_eq]
    split
    · rfl
    · split
      · rfl
      · rfl

theorem InMemory.startOutput (h : s.InMemory text) :
    ∃ created, s.startOutput = (.ok (), created) ∧ created.Readable text ∧ created.Writing ∧
      created.store = s.store := by
  refine ⟨{ s.called .createOutput s.store with output := .active }, ?_,
    ⟨h.backend_eq, h.input_eq, h.no_reader, h.not_closed⟩,
    ⟨h.backend_eq, h.staged_valid, rfl, h.not_closed⟩, rfl⟩
  unfold Source.startOutput
  rw [h.not_closed, h.no_output, h.backend_eq]
  rfl

theorem Underway.rewriteLine_of_part {seen : List Line}
    {state : Source (Beside MemoryStore τ) × LineCursor} (h : Underway r seen state)
    (hordered : r.lines.Ordered) {line : Line} (hnumber : line.number = seen.length + 1)
    (hparsed : Directive.parse line.text = .ok line.directive) {part : String}
    (hpart : Resolution.lineOutput r.declared r.glue r.lines line.number line.text = .ok part) :
    ∃ after, Source.rewriteLine r line state = (.ok (), after) ∧
      Underway r (seen ++ [line]) after := by
  obtain ⟨s, cursor⟩ := state
  obtain ⟨hwriting, hbehind⟩ := h
  have hlater : ∀ {last : LineCursor}, last.Behind r.lines line.number →
      last.Behind r.lines ((seen ++ [line]).length + 1) := by
    intro last hlast
    refine hlast.mono ?_
    simp [hnumber]
  rw [← hnumber] at hbehind
  unfold Resolution.lineOutput at hpart
  rw [hparsed] at hpart
  unfold Source.rewriteLine
  cases hd : line.directive with
  | none =>
    obtain ⟨after, hafter, hwriting'⟩ := hwriting.writeLines [line.text]
    simp only
    rw [hafter]
    exact ⟨_, rfl, hwriting', hlater hbehind⟩
  | some d =>
    obtain ⟨hget, hbehind'⟩ := hbehind.get? hordered
    rw [hd] at hpart
    simp only at hpart ⊢
    rw [r.expand_eq, hget]
    cases hout : Resolution.expansion r.declared r.glue d (r.lines.get? line.number) with
    | error failure =>
      rw [hout] at hpart
      cases hpart
    | ok lines =>
      obtain ⟨after, hafter, hwriting'⟩ :=
        hwriting.writeLines (lines.map fun line => d.indent ++ line.text)
      simp only
      rw [hafter]
      exact ⟨_, rfl, hwriting', hlater hbehind'⟩

theorem Readable.rewritePass_of_parts (h : s.Readable text) (hwriting : s.Writing)
    (hordered : r.lines.Ordered) {parts : List String}
    (hparts : Resolution.lineOutputs r.declared r.glue r.lines (textLines text) = .ok parts) :
    ∃ rewritten cursor, s.rewritePass r = (.ok (), rewritten, cursor) ∧ rewritten.Writing ∧
      rewritten.reader = none := by
  have hpart : ∀ {i : Nat} {found : Except SystemFault String},
      ((textLines text).map Except.ok)[i]? = some found → ∃ line part,
        Line.read (i + 1) found = .ok line ∧
        Resolution.lineOutput r.declared r.glue r.lines (i + 1) line.text = .ok part := by
    intro i found hfound
    rw [List.getElem?_map, Option.map_eq_some_iff] at hfound
    obtain ⟨line, hline, rfl⟩ := hfound
    obtain ⟨part, -, hpart⟩ := Resolution.exists_lineOutput hparts hline
    obtain ⟨directive, hparsed⟩ := Resolution.exists_parsed hpart
    exact ⟨⟨i + 1, line, directive⟩, part, by simp [Line.read, hparsed], hpart⟩
  have hopened : (s.opened text).Writing :=
    ⟨hwriting.backend_eq, hwriting.staged_valid, hwriting.active, hwriting.not_closed⟩
  have hpass := visitLines_spec Judgement.plain s.name (Source.rewriteLine r)
    ((textLines text).map .ok) (Underway r) (fun (_ : Failure) _ => False)
    (fun seen found line state hfound hread hunderway => ?_)
    (fun seen found failure state hfound hread _ => ?_)
    (a := (s.opened text, LineCursor.start)) ⟨hopened, LineCursor.behind_start _ _⟩
  · rw [rewritePass_of_opened h.startInput, unread_opened,
      show (s.opened text).name = s.name from rfl]
    generalize UnitLink.visitLines (m := Id) s.name (Source.rewriteLine r) 1
      ((textLines text).map .ok) (s.opened text, LineCursor.start) = pass at hpass
    obtain ⟨failure | done, last, cursor⟩ := pass
    · exact hpass.elim
    · obtain ⟨_, -, hend, -⟩ := hpass
      exact ⟨_, cursor, rfl,
        ⟨hend.backend_eq, hend.staged_valid, hend.active, hend.not_closed⟩, rfl⟩
  · obtain ⟨line', part, hread', hpart⟩ := hpart hfound
    obtain rfl : line' = line := Except.ok.inj (hread'.symm.trans hread)
    have hnumber := Line.number_of_read hread
    rw [← hnumber] at hpart
    obtain ⟨after, hafter, hunderway'⟩ :=
      hunderway.rewriteLine_of_part hordered hnumber (Line.of_read hread).2 hpart
    dsimp only [Judgement.plain]
    rw [hafter]
    exact hunderway'
  · obtain ⟨line, part, hread', -⟩ := hpart hfound
    rw [hread] at hread'
    cases hread'

theorem InMemory.rewrite_of_parts (h : s.InMemory text) (hordered : r.lines.Ordered)
    {parts : List String}
    (hparts : Resolution.lineOutputs r.declared r.glue r.lines (textLines text) = .ok parts) :
    ∃ after, s.rewrite r = (.ok (), after) ∧ after.Written := by
  obtain ⟨created, hcreated, hreadable, hwriting, -⟩ := h.startOutput
  obtain ⟨rewritten, cursor, hpass, hwriting', hreader⟩ :=
    hreadable.rewritePass_of_parts hwriting hordered hparts
  have hflush : rewritten.flush = (.ok (), rewritten.called .flush rewritten.store) := by
    unfold Source.flush
    rw [hwriting'.backend_eq]
    rfl
  refine ⟨(rewritten.called .flush rewritten.store).releaseOutput, ?_,
    hwriting'.backend_eq, hwriting'.staged_valid, hreader, rfl, hwriting'.not_closed⟩
  unfold Source.rewritePass at hpass
  unfold Source.rewrite
  rw [hcreated]
  simp only [hpass, finishOutput, hflush]

theorem InMemory.staged_of_rewrite (h : s.InMemory text)
    (hempty : s.store.own.staged = .empty) {after : Source (Beside MemoryStore τ)}
    (hok : s.rewrite r = (.ok (), after)) : after.Staged := by
  obtain ⟨created, rewritten, cursor, hcreated, hpass, hfinished⟩ := rewrite_eq_ok hok
  obtain ⟨created', hcreated', -, hwriting, hstore⟩ := h.startOutput
  obtain rfl : created = created' := (Prod.mk.inj (hcreated.symm.trans hcreated')).2
  have hstart : Staged created := by
    refine ⟨hwriting.backend_eq, ?_⟩
    rw [hstore, hempty, written_of_startOutput hcreated]
  have hstaged := rewritePass_keeps Staged (fun _ bytes h => h.write bytes)
    (fun _ h => ⟨h.backend_eq, h.staged_eq⟩) hstart.startInput r
  rw [hpass] at hstaged
  have hwritten := rewritten.written_finishOutput
  have hflush : rewritten.finishOutput.2.backend = rewritten.backend ∧
      rewritten.finishOutput.2.store.own.staged = rewritten.store.own.staged := by
    unfold finishOutput flush
    rw [hstaged.backend_eq]
    exact ⟨hstaged.backend_eq, rfl⟩
  rw [hfinished] at hwritten hflush
  exact ⟨hflush.1.trans hstaged.backend_eq, by rw [hflush.2, hstaged.staged_eq, hwritten]⟩

theorem Written.finished_close (h : s.Written) {output : String}
    (hstaged : s.store.own.staged = output.toUTF8) :
    s.close.2.store.own.finished = some output := by
  have hfinalize : (s.backend.cleanup (s.backend.finalize true s.store).2).own.finished =
      some output := by
    rw [h.backend_eq]
    show (MemoryStore.finalize true s.store.own).2.finished = some output
    unfold MemoryStore.finalize
    rw [hstaged, if_pos rfl, show String.fromUTF8? output.toUTF8 = some output from
      dif_pos output.isValidUTF8]
  unfold Source.close
  rw [h.not_closed, h.finished, h.no_reader]
  simp only [Bool.false_eq_true, if_false, reduceCtorEq, Option.isSome_none, decide_true]
  split <;> exact hfinalize

theorem InMemory.texts_of_rewrite (h : s.InMemory text)
    {created opened : Source (Beside MemoryStore τ)} {texts : List String}
    (hcreated : s.startOutput = (.ok (), created))
    (hopened : created.startInput = (.ok (), opened)) (hunread : opened.unread = texts.map .ok) :
    textLines text = texts := by
  obtain ⟨created', hcreated', hreadable, -⟩ := h.startOutput
  obtain rfl : created' = created := (Prod.mk.inj (hcreated'.symm.trans hcreated)).2
  obtain rfl : created'.opened text = opened :=
    (Prod.mk.inj (hreadable.startInput.symm.trans hopened)).2
  rw [unread_opened] at hunread
  exact List.map_injective_iff.2 (fun _ _ => Except.ok.inj) hunread

theorem InMemory.finished_of_rewrite (h : s.InMemory text)
    (hempty : s.store.own.staged = .empty) (hordered : r.lines.Ordered)
    {after : Source (Beside MemoryStore τ)} (hok : s.rewrite r = (.ok (), after)) :
    ∃ parts, Resolution.lineOutputs r.declared r.glue r.lines (textLines text) = .ok parts ∧
      after.Written ∧ after.close.2.store.own.finished = some (String.join parts) := by
  obtain ⟨created, opened, texts, parts, hcreated, hopened, hunread, hparts, hwritten⟩ :=
    written_of_rewrite hordered hok
  obtain rfl := h.texts_of_rewrite hcreated hopened hunread
  obtain ⟨after', hok', hfinished⟩ := h.rewrite_of_parts hordered hparts
  obtain rfl : after' = after := (Prod.mk.inj (hok'.symm.trans hok)).2
  refine ⟨parts, hparts, hfinished, hfinished.finished_close ?_⟩
  rw [(h.staged_of_rewrite hempty hok).staged_eq, hwritten]

/-- A source in memory is rewritten exactly if each of its lines has a part, and when it is
then closed the parts are its output text. -/
theorem InMemory.output_goes_line_by_line (h : s.InMemory text)
    (hempty : s.store.own.staged = .empty) (hordered : r.lines.Ordered) (output : String) :
    (∃ after closed, s.rewrite r = (.ok (), after) ∧ after.close = (.ok (), closed) ∧
        closed.store.own.finished = some output) ↔
      ∃ parts, Resolution.lineOutputs r.declared r.glue r.lines (textLines text) = .ok parts ∧
        output = String.join parts := by
  constructor
  · rintro ⟨after, closed, hok, hclosed, houtput⟩
    obtain ⟨parts, hparts, -, hfinished⟩ := h.finished_of_rewrite hempty hordered hok
    rw [hclosed] at hfinished
    exact ⟨parts, hparts, Option.some.inj (houtput.symm.trans hfinished)⟩
  · rintro ⟨parts, hparts, rfl⟩
    obtain ⟨after, hok, -⟩ := h.rewrite_of_parts hordered hparts
    obtain ⟨parts', hparts', hwritten, hfinished⟩ := h.finished_of_rewrite hempty hordered hok
    obtain rfl : parts' = parts := Except.ok.inj (hparts'.symm.trans hparts)
    exact ⟨after, after.close.2, hok, Prod.ext hwritten.close rfl, hfinished⟩

end InMemory

/-! ### Rewriting what was resolved -/

theorem declared_of_resolve_ok [CommonStore σ τ] {s : Source σ} {c : ClassUnit} {r : Resolver}
    {context : ClassName} {answer : S → (op : SharedOp τ) → op.Answer × S} {state : S}
    {resolution : Resolution}
    (h : ((s.resolve c r context).against answer state).1.1 = .ok resolution) :
    resolution.declared = c := by
  obtain ⟨lines, bs, hbinds⟩ := bindsTo_of_resolve_ok h
  rw [hbinds.against_resolve] at h
  cases hentered : (Bindings.start context).enterAll c s.name bs with
  | error failure =>
    rw [hentered] at h
    cases h
  | ok b =>
    rw [hentered] at h
    simp only [Bindings.finish] at h
    split at h
    · cases h
    · obtain rfl := Except.ok.inj h
      rfl

theorem ordered_of_resolve_ok [CommonStore σ τ] {s : Source σ} {c : ClassUnit} {r : Resolver}
    {context : ClassName} {answer : S → (op : SharedOp τ) → op.Answer × S} {state : S}
    {resolution : Resolution}
    (h : ((s.resolve c r context).against answer state).1.1 = .ok resolution) :
    resolution.lines.Ordered := by
  obtain ⟨lines, bs, hbinds⟩ := bindsTo_of_resolve_ok h
  exact (hbinds.exists_nested h).2

/-- Rewriting with what a resolution came to copies a source line by line. It reads the lines
once more, and what it writes is one part for each of them, in order: the line itself unless it
has a directive, and else what the directive stands for in this class with these glue fields and
with the entry of the table at the line's own number. -/
theorem rewrite_goes_line_by_line [CommonStore σ τ] {s : Source σ} {c : ClassUnit} {r : Resolver}
    {context : ClassName} {answer : S → (op : SharedOp τ) → op.Answer × S} {state : S}
    {resolution : Resolution}
    (hresolved : ((s.resolve c r context).against answer state).1.1 = .ok resolution)
    {t after : Source σ} (hrewritten : t.rewrite resolution = (.ok (), after)) :
    ∃ created opened texts parts, t.startOutput = (.ok (), created) ∧
      created.startInput = (.ok (), opened) ∧ opened.unread = texts.map .ok ∧
      Resolution.lineOutputs c resolution.glue resolution.lines texts = .ok parts ∧
      after.written = (String.join parts).toUTF8 := by
  obtain ⟨lines, bs, hbinds⟩ := bindsTo_of_resolve_ok hresolved
  rw [← declared_of_resolve_ok hresolved]
  exact written_of_rewrite (hbinds.exists_nested hresolved).2 hrewritten

theorem exists_of_toOption_map {ε α β : Type} {x : Except ε α} {f : α → β} {b : β}
    (h : x.toOption.map f = some b) : ∃ a, x = .ok a ∧ f a = b := by
  cases x with
  | error e => cases h
  | ok a => exact ⟨a, rfl, Option.some.inj h⟩

/-- A source in memory whose one method calls itself. -/
def calling : Source (Beside MemoryStore Unit) :=
  (inMemory "A.j" (";@class|name=A\r\n;@method|sig=m()V|flags=private\n" ++
    "  ;@invoke-begin|sig=m()V|local=1\n\t;@invoke-end|sig=m()V|local=1\nreturn")).beside ()

def callingClass : ClassUnit where
  name := .ofString "A"
  modifiers := .empty
  superclass := some (.ofString "java/lang/Object")
  interfaces := []
  methods := [⟨.ofString "A", "m", "()V", .single .isPrivate⟩]
  fields := []

def callingResolved : Except Stop Resolution :=
  ((calling.resolve callingClass ⟨[callingClass], [], none, 1⟩ (.ofString "Context")).against
    (fun (shared : Shared Unit) op => shared.access ClassLibrary.empty.loader op)
    ⟨.ofClasses [callingClass], ()⟩).1.1

theorem rewrite_goes_line_by_line_calling :
    ∃ resolution after, callingResolved = .ok resolution ∧
      calling.rewrite resolution = (.ok (), after) ∧
      ∃ created opened texts parts, calling.startOutput = (.ok (), created) ∧
        created.startInput = (.ok (), opened) ∧ opened.unread = texts.map .ok ∧
        Resolution.lineOutputs callingClass resolution.glue resolution.lines texts = .ok parts ∧
        after.written = (String.join parts).toUTF8 := by
  have hevaluated : (callingResolved.toOption.map fun resolution =>
      Resolution.lineOutputs resolution.declared resolution.glue resolution.lines
        (textLines calling.store.own.input)) =
      some (.ok [".class A\n.super java/lang/Object\n", ".method private m()V\n",
        "  aload_0\n", "\tinvokespecial A/m()V\n", "return\n"]) := by
    decide +kernel
  obtain ⟨resolution, hresolved, hparts⟩ := exists_of_toOption_map hevaluated
  obtain ⟨lines, bs, hbinds⟩ := bindsTo_of_resolve_ok hresolved
  obtain ⟨after, hrewritten, -⟩ := (inMemory_beside _ _ ()).rewrite_of_parts
    (hbinds.exists_nested hresolved).2 hparts
  exact ⟨resolution, after, hresolved, hrewritten,
    rewrite_goes_line_by_line hresolved hrewritten⟩

end Source
end UnitLink
