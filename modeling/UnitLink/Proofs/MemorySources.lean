import UnitLink.Proofs.Expansion
import UnitLink.Proofs.LifeCycle
import UnitLink.Source.Beside
import UnitLink.Source.Memory
/-! Sources in memory do what they are asked. Their input opens and has the same lines every
time, all writes succeed, and since only text is written, so does the finalization. What is
left to fail in such a source is what is written in it. -/
namespace UnitLink

variable {σ τ : Type}

def textLines (text : String) : List String := (Text.lines text.toList).map String.ofList

theorem Stream.lines_ofString (text : String) :
    (Stream.ofString text).lines = (textLines text).map .ok := by
  simp [Stream.lines, Stream.ofString, textLines]

namespace Source

/-- A source in memory whose text can be read. -/
structure Readable (s : Source (Beside MemoryStore τ)) (text : String) : Prop where
  backend_eq : s.backend = Beside.backend MemoryStore.backend
  input_eq : s.store.own.input = text
  no_reader : s.reader = none
  not_closed : s.closed = false

/-- A source in memory between two passes, before anything is written. -/
structure InMemory (s : Source (Beside MemoryStore τ)) (text : String) : Prop
    extends s.Readable text where
  staged_valid : s.store.own.staged.IsValidUTF8
  no_output : s.output = .notCreated

theorem inMemory_beside (name text : String) (common : τ) :
    ((Source.inMemory name text).beside common).InMemory text where
  backend_eq := rfl
  input_eq := rfl
  staged_valid := ByteArray.isValidUTF8_empty
  no_reader := rfl
  no_output := rfl
  not_closed := rfl

variable {s : Source (Beside MemoryStore τ)} {text : String}

/-- A source whose reader is about to read all of its text. -/
def opened (s : Source σ) (text : String) : Source σ :=
  { s.called .openInput s.store with reader := some (Stream.ofString text) }

theorem unread_opened (s : Source σ) (text : String) :
    (s.opened text).unread = (textLines text).map .ok :=
  Stream.lines_ofString text

theorem Readable.startInput (h : s.Readable text) : s.startInput = (.ok (), s.opened text) := by
  have hopen : s.backend.openInput s.store = (.ok (Stream.ofString text), s.store) := by
    rw [h.backend_eq, ← h.input_eq]
    rfl
  unfold Source.startInput
  rw [h.not_closed, h.no_reader, hopen]
  rfl

theorem InMemory.releaseInput (h : s.InMemory text) :
    (s.opened text).releaseInput.InMemory text where
  backend_eq := h.backend_eq
  input_eq := h.input_eq
  no_reader := rfl
  not_closed := h.not_closed
  staged_valid := h.staged_valid
  no_output := h.no_output

theorem InMemory.withCommon (h : s.InMemory text) (common : τ) :
    ({ s with store := CommonStore.withCommon common s.store } : Source _).InMemory text where
  backend_eq := h.backend_eq
  input_eq := h.input_eq
  no_reader := h.no_reader
  not_closed := h.not_closed
  staged_valid := h.staged_valid
  no_output := h.no_output

theorem InMemory.opens (h : s.InMemory text) :
    s.Opens (textLines text) fun after => after.InMemory text ∧ after.name = s.name :=
  fun common => ⟨_, (h.withCommon common).startInput, unread_opened _ text,
    (h.withCommon common).releaseInput, rfl⟩

/-- What discovery finds out about a source in memory, and what it leaves of it. -/
structure Found (s : Source (Beside MemoryStore τ)) (text : String) : Prop
    extends s.InMemory text where
  declares : ∃ lines, readLines s.name 1 ((textLines text).map .ok) = .ok lines ∧
    ∀ line ∈ lines, ∀ d, line.directive = some d → d.Declares

theorem InMemory.discover (h : s.InMemory text) :
    match s.discover.1 with
    | .ok _ => s.discover.2.Found text
    | .error failure => failure.kind = .declaration := by
  obtain ⟨hleft, hresult⟩ := discover_spec h.startInput (unread_opened s text)
  rw [hleft]
  cases houtcome : s.discover.1 with
  | error failure =>
    rw [houtcome] at hresult
    exact hresult
  | ok c =>
    rw [houtcome] at hresult
    exact ⟨h.releaseInput, hresult⟩

/-- A source in memory while it is written. -/
structure Writing (s : Source (Beside MemoryStore τ)) : Prop where
  backend_eq : s.backend = Beside.backend MemoryStore.backend
  staged_valid : s.store.own.staged.IsValidUTF8
  active : s.output = .active
  not_closed : s.closed = false

theorem Writing.writeLines (h : s.Writing) (lines : List String) :
    ∃ after, s.writeLines lines = (.ok (), after) ∧ after.Writing := by
  induction lines generalizing s with
  | nil => exact ⟨s, rfl, h⟩
  | cons line lines ih =>
    have hwrite : ∃ after, s.write (line ++ lineSeparator).toUTF8 = (.ok (), after) ∧
        after.Writing := by
      unfold Source.write
      rw [h.backend_eq]
      split
      · exact ⟨s, rfl, h⟩
      · have hvalid := h.staged_valid.append (line ++ lineSeparator).isValidUTF8
        exact ⟨_, rfl, h.backend_eq, hvalid, h.active, h.not_closed⟩
    obtain ⟨after, hafter, hwriting⟩ := hwrite
    obtain ⟨last, hlast, hwriting'⟩ := ih hwriting
    exact ⟨last, by rw [Source.writeLines, hafter]; exact hlast, hwriting'⟩

/-- What is known of a rewriting under way: the cursor has passed no line to come. -/
structure Underway (resolution : Resolution) (seen : List Line)
    (state : Source (Beside MemoryStore τ) × LineCursor) : Prop where
  writing : state.1.Writing
  behind : state.2.Behind resolution.lines (seen.length + 1)

variable {resolution : Resolution} {lines : List Line}

theorem Underway.rewriteLine {seen : List Line}
    {state : Source (Beside MemoryStore τ) × LineCursor} (h : Underway resolution seen state)
    (hprepared : resolution.Prepared lines) {line : Line} (hline : line ∈ lines)
    (hnumber : line.number = seen.length + 1)
    (hdeclares : ∀ d, line.directive = some d → d.Declares) :
    (∃ after, Source.rewriteLine resolution line state = (.ok (), after) ∧
        Underway resolution (seen ++ [line]) after) ∨
      ∃ d failure after, line.directive = some d ∧
        Source.rewriteLine resolution line state = (.error failure, after) ∧
        Resolution.BadSlot d failure := by
  obtain ⟨s, cursor⟩ := state
  obtain ⟨hwriting, hbehind⟩ := h
  have hlength : (seen ++ [line]).length + 1 = seen.length + 1 + 1 := by simp
  unfold Source.rewriteLine
  cases hd : line.directive with
  | none =>
    obtain ⟨after, hafter, hwriting'⟩ := hwriting.writeLines [line.text]
    simp only
    rw [hafter]
    exact .inl ⟨(after, cursor), rfl, hwriting',
      hlength ▸ hbehind.mono (Nat.le_succ (seen.length + 1))⟩
  | some d =>
    obtain ⟨hget, hbehind'⟩ := hbehind.get? hprepared.ordered
    have hexpand := hprepared.expand hline hd (hdeclares d hd)
    rw [hnumber, ← hget] at hexpand
    simp only
    rw [hnumber]
    rcases hexpand with ⟨out, hout⟩ | ⟨failure, hfailure, hbad⟩
    · obtain ⟨after, hafter, hwriting'⟩ :=
        hwriting.writeLines (out.map fun line => d.indent ++ line.text)
      rw [hout]
      simp only
      rw [hafter]
      exact .inl ⟨_, rfl, hwriting', hlength ▸ hbehind'.mono (Nat.le_succ (seen.length + 1))⟩
    · rw [hfailure]
      exact .inr ⟨d, failure, _, rfl, rfl, hbad⟩

/-- A source in memory that has been written and waits to be closed. -/
structure Written (s : Source (Beside MemoryStore τ)) : Prop where
  backend_eq : s.backend = Beside.backend MemoryStore.backend
  staged_valid : s.store.own.staged.IsValidUTF8
  no_reader : s.reader = none
  finished : s.output = .finished
  not_closed : s.closed = false

/-- A failure over the slot of some line, told of that line. -/
def BadSlotAmong (source : String) (lines : List Line) (failure : Failure) : Prop :=
  ∃ line ∈ lines, ∃ d cause, line.directive = some d ∧ Resolution.BadSlot d cause ∧
    failure = cause.locate ⟨source, line.number⟩

theorem Readable.rewritePass (h : s.Readable text) (hwriting : s.Writing)
    (hlines : readLines s.name 1 ((textLines text).map .ok) = .ok lines)
    (hprepared : resolution.Prepared lines)
    (hdeclares : ∀ line ∈ lines, ∀ d, line.directive = some d → d.Declares) :
    match (s.rewritePass resolution).1 with
    | .ok () => (s.rewritePass resolution).2.1.Writing ∧
        (s.rewritePass resolution).2.1.reader = none
    | .error failure => BadSlotAmong s.name lines failure := by
  have hread : ∀ {i text' line}, ((textLines text).map Except.ok)[i]? = some text' →
      Line.read (i + 1) text' = .ok line → line ∈ lines := by
    intro i text' line htext hline
    obtain ⟨found, hfound, hsame⟩ := getElem?_of_readLines hlines htext
    rw [Nat.add_comm, hline] at hsame
    obtain rfl := Except.ok.inj hsame
    exact List.mem_of_getElem? hfound
  have hopened : (s.opened text).Writing :=
    ⟨hwriting.backend_eq, hwriting.staged_valid, hwriting.active, hwriting.not_closed⟩
  -- a line is rewritten with the cursor behind it, and a bad slot is all that can stop it
  have hpass := visitLines_spec Judgement.plain s.name (Source.rewriteLine resolution)
    ((textLines text).map .ok) (Underway resolution)
    (fun failure _ => BadSlotAmong s.name lines failure)
    (fun seen text' line state htext hline hinv => ?_)
    (fun seen text' failure state htext hline _ => ?_)
    (a := (s.opened text, LineCursor.start)) ⟨hopened, LineCursor.behind_start _ _⟩
  · unfold Source.rewritePass visitOwnLines
    rw [h.startInput]
    simp only [visitStarted]
    rw [show ((s.opened text).reader.map Stream.lines).getD [] = _ from unread_opened s text]
    rw [show (s.opened text).name = s.name from rfl]
    generalize UnitLink.visitLines (m := Id) s.name (Source.rewriteLine resolution) 1
      ((textLines text).map .ok) (s.opened text, LineCursor.start) = pass at hpass
    obtain ⟨failure | done, state⟩ := pass
    · exact hpass
    · obtain ⟨_, -, hend, -⟩ := hpass
      exact ⟨⟨hend.backend_eq, hend.staged_valid, hend.active, hend.not_closed⟩, rfl⟩
  · have hmem := hread htext hline
    have hstep := hinv.rewriteLine hprepared hmem (Line.number_of_read hline) (hdeclares line hmem)
    dsimp only [Judgement.plain]
    rcases hstep with ⟨after, hafter, hunderway⟩ | ⟨d, failure, after, hd, hafter, hbad⟩
    · rw [hafter]
      exact hunderway
    · rw [hafter]
      exact ⟨line, hmem, d, failure, hd, hbad, rfl⟩
  · obtain ⟨found, -, hsame⟩ := getElem?_of_readLines hlines htext
    rw [Nat.add_comm, hline] at hsame
    cases hsame

/-- The rewriting of a source in memory fails over a bad slot or not at all. -/
theorem InMemory.rewrite (h : s.InMemory text)
    (hlines : readLines s.name 1 ((textLines text).map .ok) = .ok lines)
    (hprepared : resolution.Prepared lines)
    (hdeclares : ∀ line ∈ lines, ∀ d, line.directive = some d → d.Declares) :
    match (s.rewrite resolution).1 with
    | .ok () => (s.rewrite resolution).2.Written
    | .error failure => BadSlotAmong s.name lines failure := by
  have hcreate : s.startOutput =
      (.ok (), { s.called .createOutput s.store with output := .active }) := by
    unfold startOutput
    rw [h.not_closed, h.no_output, h.backend_eq]
    rfl
  have hreadable : ({ s.called .createOutput s.store with output := .active } :
      Source _).Readable text := ⟨h.backend_eq, h.input_eq, h.no_reader, h.not_closed⟩
  have hpass := hreadable.rewritePass ⟨h.backend_eq, h.staged_valid, rfl, h.not_closed⟩ hlines
    hprepared hdeclares
  unfold Source.rewrite
  rw [hcreate]
  unfold Source.rewritePass at hpass
  simp only
  generalize visitOwnLines (m := Id) _ (Source.rewriteLine resolution) LineCursor.start = pass
    at hpass
  obtain ⟨failure | done, rewritten, cursor⟩ := pass
  · exact hpass
  · obtain ⟨hwriting, hreader⟩ := hpass
    have hflush : rewritten.flush = (.ok (), rewritten.called .flush rewritten.store) := by
      unfold Source.flush
      rw [hwriting.backend_eq]
      rfl
    simp only [finishOutput, hflush]
    exact ⟨hwriting.backend_eq, hwriting.staged_valid, hreader, rfl, hwriting.not_closed⟩

theorem Written.withCommon (h : s.Written) (common : τ) :
    ({ s with store := CommonStore.withCommon common s.store } : Source _).Written :=
  ⟨h.backend_eq, h.staged_valid, h.no_reader, h.finished, h.not_closed⟩

/-- What was written is text, so closing succeeds. -/
theorem Written.close (h : s.Written) : s.close.1 = .ok () := by
  have hfinalize : (s.backend.finalize true s.store).1 = .ok () := by
    rw [h.backend_eq]
    show (MemoryStore.finalize true s.store.own).1 = .ok ()
    unfold MemoryStore.finalize String.fromUTF8?
    rw [if_pos rfl, dif_pos h.staged_valid]
  unfold Source.close
  rw [h.not_closed, h.finished, h.no_reader]
  simp only [Bool.false_eq_true, if_false, reduceCtorEq, Option.isSome_none, decide_true]
  rw [hfinalize]

end Source
end UnitLink
