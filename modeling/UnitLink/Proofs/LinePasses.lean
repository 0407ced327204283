import UnitLink.Proofs.LineByLine
import UnitLink.Proofs.SingleLines
/-! What a pass over a source does with its visitor. The visitor is called on the lines in order,
each with its number, its text and its directive, up to the first line that it refuses or that cannot
be shown to it; the failure then tells one line, and the reader is given up in any case. -/
namespace UnitLink

/-! ### Lines of a text -/

namespace Text

/-- The lines of a text, or of what can be read of it before a fault. A line ends before a line feed
and one carriage return that may stand before that; what stands after the last line feed is a line,
unless it is nothing or the fault breaks it off. -/
inductive SplitsInto : List Char → Option SystemFault → List (Except SystemFault String) → Prop
  | nothing : SplitsInto [] none []
  | last {line : List Char} : line ≠ [] → OneLine line →
      SplitsInto line none [.ok (String.ofList line)]
  | broken {line : List Char} (fault : SystemFault) : OneLine line →
      SplitsInto line (some fault) [.error fault]
  | fed {line rest : List Char} {fault : Option SystemFault}
      {lines : List (Except SystemFault String)} : OneLine line → line.getLast? ≠ some '\r' →
      SplitsInto rest fault lines →
      SplitsInto (line ++ '\n' :: rest) fault (.ok (String.ofList line) :: lines)
  | returned {line rest : List Char} {fault : Option SystemFault}
      {lines : List (Except SystemFault String)} : OneLine line → SplitsInto rest fault lines →
      SplitsInto (line ++ '\r' :: '\n' :: rest) fault (.ok (String.ofList line) :: lines)

theorem endedLines_append {line : List Char} (h : OneLine line) (rest : List Char) :
    endedLines (line ++ '\n' :: rest) = dropReturn line :: endedLines rest := by
  have hpieces : pieces isLineFeed (line ++ '\n' :: rest) = line :: pieces isLineFeed rest :=
    pieces_append (oneLine_iff.1 h) rfl
  rw [endedLines, hpieces, List.dropLast_cons_of_ne_nil (pieces_ne_nil _ _), List.map_cons]
  rfl

end Text

theorem Stream.lines_append {line rest : List Char} (h : Text.OneLine line)
    (fault : Option SystemFault) :
    Stream.lines ⟨line ++ '\n' :: rest, fault⟩ =
      .ok (String.ofList (Text.dropReturn line)) :: Stream.lines ⟨rest, fault⟩ := by
  cases fault with
  | none => simp only [lines, Text.lines_append h, List.map_cons]
  | some fault => simp only [lines, Text.endedLines_append h, List.map_cons, List.cons_append]

theorem Stream.lines_of_oneLine {line : List Char} (h : Text.OneLine line)
    (fault : Option SystemFault) :
    Stream.lines ⟨line, fault⟩ = match fault with
      | none => if line = [] then [] else [.ok (String.ofList line)]
      | some fault => [.error fault] := by
  have hended : Text.endedLines line = [] := by
    rw [Text.endedLines, Text.pieces_uncut (Text.oneLine_iff.1 h)]
    rfl
  have hlast : Text.lastLine line = line := by
    simp only [Text.lastLine, Text.pieces_uncut (Text.oneLine_iff.1 h), List.getLast_singleton]
  cases fault with
  | none =>
    simp only [lines, Text.lines, hended, hlast, List.nil_append, List.isEmpty_iff]
    split <;> rfl
  | some fault => simp only [lines, hended, List.map_nil, List.nil_append]

theorem Stream.splitsInto_lines (text : List Char) (fault : Option SystemFault) :
    Text.SplitsInto text fault (Stream.lines ⟨text, fault⟩) := by
  -- the induction is on the text, a line at a time
  induction hlength : text.length using Nat.strong_induction_on generalizing text with
  | _ length ih =>
    by_cases hline : Text.OneLine text
    · rw [lines_of_oneLine hline]
      cases fault with
      | some fault => exact .broken fault hline
      | none =>
        by_cases hnone : text = []
        · simp only [hnone, if_true]
          exact .nothing
        · simp only [hnone, if_false]
          exact .last hnone hline
    · obtain ⟨line, rest, rfl, hfirst⟩ := List.eq_append_cons_of_mem (Decidable.not_not.1 hline)
      have hfirst : Text.OneLine line := hfirst
      have hrest := ih rest.length (by simp at hlength; omega) rest rfl
      rw [lines_append hfirst, Text.dropReturn]
      split
      · rename_i hreturn
        obtain ⟨init, rfl⟩ := List.getLast?_eq_some_iff.1 hreturn
        rw [List.append_assoc, List.dropLast_concat]
        exact .returned (hfirst.of_subset (List.subset_append_left _ _)) hrest
      · rename_i hreturn
        exact .fed hfirst hreturn hrest

theorem Stream.splitsInto_iff {stream : Stream} {lines : List (Except SystemFault String)} :
    Text.SplitsInto stream.text stream.fault lines ↔ lines = stream.lines := by
  constructor
  · obtain ⟨text, fault⟩ := stream
    intro h
    change Text.SplitsInto text fault lines at h
    induction h with
    | nothing => rfl
    | last hne hline => rw [lines_of_oneLine hline, if_neg hne]
    | broken fault hline => rw [lines_of_oneLine hline]
    | fed hline hreturn _ ih => rw [lines_append hline, ← ih, Text.dropReturn, if_neg hreturn]
    | @returned line rest _ _ hline _ ih =>
      have hkept : Text.OneLine (line ++ ['\r']) := hline.append (by decide)
      have hdropped : Text.dropReturn (line ++ ['\r']) = line := by
        rw [Text.dropReturn, if_pos List.getLast?_concat, List.dropLast_concat]
      rw [show line ++ '\r' :: '\n' :: rest = (line ++ ['\r']) ++ '\n' :: rest by simp,
        lines_append hkept, ← ih, hdropped]
  · rintro rfl
    exact splitsInto_lines stream.text stream.fault

/-! ### Places -/

namespace Failure

/-- The places that a failure tells. -/
def locations (failure : Failure) : List SourceLocation :=
  failure.context.filterMap Context.location?

/-- A failure as it leaves a pass: it tells the place that it told before, or else the line it was
on. -/
structure TellsPlace (here : SourceLocation) (before after : Failure) : Prop where
  cause_eq : after.cause = before.cause
  keeps : before.locations ≠ [] → after = before
  gains : before.locations = [] → after.context = .on here :: before.context
  one : before.locations.length ≤ 1 → after.locations.length = 1

theorem isSome_location?_iff (failure : Failure) :
    failure.location?.isSome = true ↔ failure.locations ≠ [] := by
  unfold location? locations
  rw [← List.head?_filterMap, List.isSome_head?]

theorem tellsPlace_locate (here : SourceLocation) (failure : Failure) :
    failure.TellsPlace here (failure.locate here) := by
  unfold locate
  split
  · rename_i hsome
    have hne := failure.isSome_location?_iff.1 hsome
    refine ⟨rfl, fun _ => rfl, fun hnone => absurd hnone hne, fun hone => ?_⟩
    have hpos := List.length_pos_iff.2 hne
    omega
  · rename_i hnone
    rw [isSome_location?_iff, not_not] at hnone
    refine ⟨rfl, fun hne => absurd hnone hne, fun _ => rfl, fun _ => ?_⟩
    show (here :: failure.locations).length = 1
    rw [hnone]
    rfl

end Failure

/-! ### Visits -/

section Visiting

variable {α σ : Type}

/-- The visitor is called on lines one by one, each time with the state that it left, and its last
call has the outcome; all calls before it succeeded. -/
inductive Visits (visit : Line → α → Except Failure Unit × α) (start : α) :
    List Line → Except Failure Unit → α → Prop
  | none : Visits visit start [] (.ok ()) start
  | more {lines : List Line} {line : Line} {outcome : Except Failure Unit} {a b : α} :
      Visits visit start lines (.ok ()) a → visit line a = (outcome, b) →
      Visits visit start (lines ++ [line]) outcome b

/-- A line that cannot be shown to a visitor: it cannot be read, or its directive is malformed. -/
inductive Unshowable : Except SystemFault String → Failure → Prop
  | unread (fault : SystemFault) : Unshowable (.error fault) (.system fault)
  | malformed {text : String} {fault : DirectiveFault} : Directive.parse text = .error fault →
      Unshowable (.ok text) (.declaration (.badDirective fault))

/-- The first lines of a text, each with its number and its directive. -/
def FirstLines (texts : List (Except SystemFault String)) (lines : List Line) : Prop :=
  ∀ i line, lines[i]? = some line → line.number = i + 1 ∧ texts[i]? = some (.ok line.text) ∧
    Directive.parse line.text = .ok line.directive

/-- How a pass over texts ends after the visitor was called on some lines with the outcome. -/
inductive PassEnds (source : String) (texts : List (Except SystemFault String))
    (lines : List Line) : (outcome result : Except Failure Unit) → Prop
  | completed : lines.length = texts.length → PassEnds source texts lines (.ok ()) (.ok ())
  /-- The visitor is not called on the line that comes next. -/
  | unshowable {text : Except SystemFault String} {failure told : Failure} :
      texts[lines.length]? = some text → Unshowable text failure →
      failure.TellsPlace ⟨source, lines.length + 1⟩ told →
      PassEnds source texts lines (.ok ()) (.error told)
  | refused {failure told : Failure} : failure.TellsPlace ⟨source, lines.length⟩ told →
      PassEnds source texts lines (.error failure) (.error told)

theorem unshowable_of_read {number : Nat} {text : Except SystemFault String} {failure : Failure}
    (h : Line.read number text = .error failure) : Unshowable text failure := by
  unfold Line.read at h
  split at h
  · obtain rfl := Except.error.inj h
    exact .unread _
  · split at h
    · obtain rfl := Except.error.inj h
      exact .malformed ‹_›
    · cases h

theorem FirstLines.snoc {texts : List (Except SystemFault String)} {lines : List Line}
    (h : FirstLines texts lines) {text : Except SystemFault String} {line : Line}
    (htext : texts[lines.length]? = some text)
    (hread : Line.read (lines.length + 1) text = .ok line) :
    FirstLines texts (lines ++ [line]) := by
  intro i found hi
  rcases Nat.lt_trichotomy i lines.length with hlt | rfl | hgt
  · rw [List.getElem?_append_left hlt] at hi
    exact h i found hi
  · rw [List.getElem?_concat_length] at hi
    obtain rfl := Option.some.inj hi
    obtain ⟨rfl, hparsed⟩ := Line.of_read hread
    exact ⟨Line.number_of_read hread, htext, hparsed⟩
  · rw [List.getElem?_eq_none (by simp; omega)] at hi
    cases hi

theorem visits_of_visitLines (source : String) (visit : Line → α → Except Failure Unit × α)
    (texts : List (Except SystemFault String)) (a : α) :
    ∃ lines outcome, FirstLines texts lines ∧
      Visits visit a lines outcome (visitLines (m := Id) source visit 1 texts a).2 ∧
      PassEnds source texts lines outcome (visitLines (m := Id) source visit 1 texts a).1 := by
  have hpass := visitLines_spec Judgement.plain source visit texts
    (fun seen b => FirstLines texts seen ∧ Visits visit a seen (.ok ()) b)
    (fun failure b => ∃ lines outcome, FirstLines texts lines ∧ Visits visit a lines outcome b ∧
      PassEnds source texts lines outcome (.error failure))
    (fun seen text line b htext hread ⟨hfirst, hvisits⟩ => ?_)
    (fun seen text failure b htext hread ⟨hfirst, hvisits⟩ => ?_) (a := a) ⟨by intro i; simp, .none⟩
  · generalize visitLines (m := Id) source visit 1 texts a = pass at hpass ⊢
    obtain ⟨failure | done, b⟩ := pass
    · exact hpass
    · obtain ⟨lines, hlines, hfirst, hvisits⟩ := hpass
      refine ⟨lines, .ok (), hfirst, hvisits, .completed ?_⟩
      rw [(texts_of_readLines hlines).1, List.length_map, List.length_map]
  · dsimp only [Judgement.plain]
    have hnext := hfirst.snoc htext hread
    cases hvisit : visit line b with
    | mk outcome c =>
      have hmore := hvisits.more hvisit
      cases outcome with
      | ok done => exact ⟨hnext, hmore⟩
      | error failure =>
        have hlength : (seen ++ [line]).length = line.number := by
          rw [Line.number_of_read hread, List.length_append, List.length_singleton]
        refine ⟨seen ++ [line], .error failure, hnext, hmore, .refused ?_⟩
        rw [hlength]
        exact failure.tellsPlace_locate _
  · exact ⟨seen, .ok (), hfirst, hvisits,
      .unshowable htext (unshowable_of_read hread) (failure.tellsPlace_locate _)⟩

end Visiting

namespace Source

variable {α σ : Type}

theorem source_of_visits {visit : Line → Source σ × α → Except Failure Unit × Source σ × α}
    (halone : ∀ line t c, (visit line (t, c)).2.1 = t) {start after : Source σ × α}
    {lines : List Line} {outcome : Except Failure Unit}
    (h : Visits visit start lines outcome after) : after.1 = start.1 := by
  induction h with
  | none => rfl
  | @more _ line _ a b _ hvisit ih =>
    rw [← ih, ← halone line a.1 a.2, hvisit]

/-- Once the input is open, a pass visits the lines of the stream, and gives the reader up. -/
theorem visits_of_visitOwnLines {s opened : Source σ} {stream : Stream}
    (hstart : s.startInput = (.ok (), opened)) (hreader : opened.reader = some stream)
    (visit : Line → Source σ × α → Except Failure Unit × Source σ × α) (a : α) :
    let (result, after, b) := s.visitOwnLines (m := Id) visit a
    ∃ lines outcome left, FirstLines stream.lines lines ∧
      Visits visit (opened, a) lines outcome (left, b) ∧
      PassEnds opened.name stream.lines lines outcome result ∧ after = left.releaseInput := by
  obtain ⟨lines, outcome, hfirst, hvisits, hends⟩ :=
    visits_of_visitLines opened.name visit stream.lines (opened, a)
  unfold visitOwnLines
  rw [hstart]
  simp only [visitStarted, hreader]
  exact ⟨lines, outcome, _, hfirst, hvisits, hends, rfl⟩

/-- A pass over an open source whose input opens and is not being read. The visitor is called on the
first lines of the input, in order, and all calls succeed, but for the last that may fail. The pass
ends well if all lines were visited, and otherwise with a failure that tells its line. The reader is
given up, so the source can be read again unless the visitor has closed it, and if the visitor leaves
the source alone it is as it was. -/
theorem visits_lines_in_order {s : Source σ} {stream : Stream} {store : σ}
    (hopen : s.closed = false) (hreader : s.reader = none)
    (hinput : s.backend.openInput s.store = (.ok stream, store))
    (visit : Line → Source σ × α → Except Failure Unit × Source σ × α) (a : α) :
    let (result, after, b) := s.visitOwnLines (m := Id) visit a
    (∃ texts lines outcome left, Text.SplitsInto stream.text stream.fault texts ∧
      FirstLines texts lines ∧
      Visits visit ({ s.called .openInput store with reader := some stream }, a) lines outcome
        (left, b) ∧
      PassEnds s.name texts lines outcome result ∧ after = left.releaseInput) ∧
    after.reader = none ∧
    (∀ again store', after.closed = false →
      after.backend.openInput after.store = (.ok again, store') → after.startInput.1 = .ok ()) ∧
    ((∀ line t c, (visit line (t, c)).2.1 = t) → after = s.called .openInput store) := by
  have hstart : s.startInput =
      (.ok (), { s.called .openInput store with reader := some stream }) := by
    unfold startInput
    rw [hopen, hreader, hinput]
    rfl
  have hpass := visits_of_visitOwnLines hstart rfl visit a
  generalize s.visitOwnLines (m := Id) visit a = pass at hpass ⊢
  obtain ⟨result, after, b⟩ := pass
  obtain ⟨lines, outcome, left, hfirst, hvisits, hends, rfl⟩ := hpass
  refine ⟨⟨stream.lines, lines, outcome, left, Stream.splitsInto_iff.2 rfl, hfirst, hvisits, hends,
    rfl⟩, rfl, fun again store' hstill hagain => ?_, fun halone => ?_⟩
  · unfold startInput
    rw [if_neg (by rw [hstill]; decide), if_neg (by exact Bool.false_ne_true), hagain]
  · have hleft : left = _ := source_of_visits halone hvisits
    rw [hleft, releaseInput, ← hreader]
    rfl

/-- A visitor that keeps the numbers and texts of its lines, and refuses the second with a failure
that has its place. -/
def logging (line : Line) (visited : Source MemoryStore × List (Nat × String)) :
    Except Failure Unit × Source MemoryStore × List (Nat × String) :=
  (if line.number = 2 then .error ((Failure.declaration .memberBeforeClass).locate ⟨"B.j", 7⟩)
    else .ok (),
    visited.1, visited.2 ++ [(line.number, line.text)])

theorem visits_lines_in_order_logging :
    let s := inMemory "A.j" "aload_0\r\n;@class|name=A\n;@bad"
    let outcome := s.visitOwnLines (m := Id) logging []
    outcome.1 = .error ((Failure.declaration .memberBeforeClass).locate ⟨"B.j", 7⟩) ∧
      outcome.2.2 = [(1, "aload_0"), (2, ";@class|name=A")] ∧
      outcome.2.1.startInput.1 = .ok () ∧
      ∃ texts lines outcome' left, Text.SplitsInto s.store.input.toList none texts ∧
        FirstLines texts lines ∧
        Visits logging ({ s.called .openInput s.store with
          reader := some (.ofString s.store.input) }, []) lines outcome' (left, outcome.2.2) ∧
        PassEnds "A.j" texts lines outcome' outcome.1 ∧ outcome.2.1 = left.releaseInput := by
  intro s
  have hinput : s.backend.openInput s.store = (.ok (.ofString s.store.input), s.store) := rfl
  have hpass := visits_lines_in_order (s := s) rfl rfl hinput logging []
  have hresult : (s.visitOwnLines (m := Id) logging []).1 =
    .error ((Failure.declaration .memberBeforeClass).locate ⟨"B.j", 7⟩) := by decide +kernel
  have hvisited : (s.visitOwnLines (m := Id) logging []).2.2 =
    [(1, "aload_0"), (2, ";@class|name=A")] := by decide +kernel
  generalize s.visitOwnLines (m := Id) logging [] = outcome at hpass hresult hvisited ⊢
  obtain ⟨result, after, visited⟩ := outcome
  obtain ⟨hvisits, -, hagain, hkept⟩ := hpass
  obtain rfl := hkept fun _ _ _ => rfl
  exact ⟨hresult, hvisited, hagain _ _ rfl rfl, hvisits⟩

end Source
end UnitLink
