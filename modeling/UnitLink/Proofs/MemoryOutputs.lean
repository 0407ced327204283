import UnitLink.Proofs.SourceRuns
import UnitLink.Source.Memory
/-! What becomes of the bytes that are written to a source in memory. Until the source is closed
they are staged, and no text is shown. The one close that finalizes it with output shows them as
text if they are that. After this, or once the source is closed in another way, nothing changes what
is shown, though a writer may still be at work. -/
namespace UnitLink

variable {σ : Type}

/-- The bytes that an operation has put through the writer, as its answer tells. -/
def SourceOp.accepted : SourceOp → SourceAnswer → ByteArray
  | .write bytes, .done => bytes
  | _, _ => .empty

namespace Source

def bytesWritten (s : Source σ) : List SourceOp → ByteArray
  | [] => .empty
  | op :: ops => op.accepted (s.apply op).1 ++ (s.apply op).2.bytesWritten ops

/-- The source is finalized if it is closed now. -/
def Finalizes (s : Source σ) : Prop :=
  ∃ produced, (s.apply .close).2.calls = .cleanup :: .finalize produced :: s.calls

/-- The source is closed without a finalization if it is abandoned now. -/
def Abandons (s : Source σ) : Prop := (s.apply .abandon).2.calls = .cleanup :: s.calls

/-- The backend was asked for the output. -/
def CreatedOutput (s : Source σ) : Prop := .createOutput ∈ s.calls

theorem run_append_left (s : Source σ) (earlier later : List SourceOp) :
    (s.run (earlier ++ later)).2 = ((s.run earlier).2.run later).2 := by
  induction earlier generalizing s with
  | nil => rfl
  | cons op earlier ih => exact ih (s.apply op).2

theorem finalizes_iff {s : Source σ} :
    s.Finalizes ↔ s.closed = false ∧ s.output ≠ .active ∧ s.reader = none := by
  have hlonger : ∀ made, made ≠ [] → s.calls ≠ made ++ s.calls := by
    intro made hne heq
    exact hne (List.self_eq_append_left.1 heq)
  constructor
  · rintro ⟨produced, hcalls⟩
    change s.close.2.calls = [.cleanup, .finalize produced] ++ s.calls at hcalls
    rcases s.close_cases with ⟨-, hclose⟩ | ⟨-, fault, hclose⟩ | hready
    · rw [hclose] at hcalls
      exact absurd hcalls (hlonger _ (List.cons_ne_nil _ _))
    · rw [hclose] at hcalls
      exact absurd hcalls (hlonger _ (List.cons_ne_nil _ _))
    · exact hready
  · rintro ⟨hopen, houtput, hreader⟩
    refine ⟨s.output = OutputState.finished, ?_⟩
    show s.close.2.calls = _
    rw [close_eq hopen houtput hreader]
    rfl

theorem not_closed_of_abandons {s : Source σ} (h : s.Abandons) : s.closed = false := by
  change s.abandon.calls = _ at h
  unfold abandon at h
  split at h
  · simp at h
  · rename_i hopen
    simpa using hopen

/-- The output is one that was asked for, unless it can still be asked for. -/
theorem Accounted.createdOutput_iff {s : Source σ} (h : s.Accounted) :
    s.CreatedOutput ↔ s.output ≠ .notCreated := by
  have hcreated : s.CreatedOutput ↔ 0 < s.calls.countP BackendCall.isCreateOutput := by
    rw [List.countP_pos_iff]
    constructor
    · exact fun hmem => ⟨_, hmem, rfl⟩
    · rintro ⟨call, hmem, hcreate⟩
      cases call <;> first | exact hmem | cases hcreate
  rw [hcreated, h.created]
  split <;> simp_all

/-- What a close makes of bytes: they are shown as the text that they encode, and if they encode
none, the close fails and nothing is shown. -/
structure Publishes (bytes : ByteArray) (answer : SourceAnswer) (shown : Option String) :
    Prop where
  valid : ∀ text : String, text.toUTF8 = bytes → answer = .done ∧ shown = some text
  invalid : (∀ text : String, text.toUTF8 ≠ bytes) →
    (∃ failure, answer = .failed failure) ∧ shown = none

/-! ### Sources in memory -/

variable {s : Source MemoryStore} {bytes : ByteArray}

/-- A source in memory has gone on: what is shown and whether it is closed are as before, and some
bytes more are staged. -/
structure Proceeds (before : Source MemoryStore) (bytes : ByteArray)
    (after : Source MemoryStore) : Prop where
  backend_eq : after.backend = before.backend
  closed_eq : after.closed = before.closed
  text_eq : after.outputText? = before.outputText?
  staged_eq : after.store.staged = before.store.staged ++ bytes

theorem Proceeds.idle (s : Source MemoryStore) : s.Proceeds .empty s :=
  ⟨rfl, rfl, rfl, ByteArray.append_empty.symm⟩

theorem proceeds_startInput (h : s.backend = MemoryStore.backend) :
    s.Proceeds .empty s.startInput.2 := by
  have hopened : s.backend.openInput s.store = (.ok (.ofString s.store.input), s.store) := by
    rw [h]
    rfl
  unfold startInput
  split
  · exact .idle s
  split
  · exact .idle s
  rw [hopened]
  exact ⟨rfl, rfl, rfl, ByteArray.append_empty.symm⟩

theorem proceeds_startOutput (h : s.backend = MemoryStore.backend) :
    s.Proceeds .empty s.startOutput.2 := by
  have hcreated : s.backend.createOutput s.store = (.ok (), s.store) := by
    rw [h]
    rfl
  unfold startOutput
  split
  · exact .idle s
  split
  · exact .idle s
  rw [hcreated]
  exact ⟨rfl, rfl, rfl, ByteArray.append_empty.symm⟩

theorem proceeds_readWith (read : Stream → Except SystemFault (String × Stream)) :
    s.Proceeds .empty (s.readWith read).2 := by
  unfold readWith
  split
  · exact .idle s
  split
  · exact ⟨rfl, rfl, rfl, ByteArray.append_empty.symm⟩
  · exact .idle s

theorem proceeds_write (h : s.backend = MemoryStore.backend) (written : ByteArray) :
    (s.write written).1 = .ok () ∧ s.Proceeds written (s.write written).2 := by
  have hwritten : s.backend.write written s.store =
      (.ok (), { s.store with staged := s.store.staged ++ written }) := by
    rw [h]
    rfl
  unfold write
  split
  · rename_i hempty
    obtain rfl : written = .empty := by simpa [ByteArray.isEmpty] using hempty
    exact ⟨rfl, .idle s⟩
  · rw [hwritten]
    exact ⟨rfl, rfl, rfl, rfl, rfl⟩

theorem proceeds_flush (h : s.backend = MemoryStore.backend) : s.Proceeds .empty s.flush.2 := by
  have hflushed : s.backend.flush s.store = (.ok (), s.store) := by
    rw [h]
    rfl
  unfold flush
  rw [hflushed]
  exact ⟨rfl, rfl, rfl, ByteArray.append_empty.symm⟩

theorem proceeds_finishOutput (h : s.backend = MemoryStore.backend) :
    s.Proceeds .empty s.finishOutput.2 := by
  have hflushed := s.proceeds_flush h
  unfold finishOutput
  generalize s.flush = flushed at hflushed ⊢
  obtain ⟨failure | done, after⟩ := flushed
  · exact ⟨hflushed.backend_eq, hflushed.closed_eq, hflushed.text_eq, hflushed.staged_eq⟩
  · exact ⟨hflushed.backend_eq, hflushed.closed_eq, hflushed.text_eq, hflushed.staged_eq⟩

theorem proceeds_whileWriting (act : Source MemoryStore → Except Failure Unit × Source MemoryStore)
    (hact : s.Proceeds .empty (act s).2) : s.Proceeds .empty (s.whileWriting act).2 := by
  unfold whileWriting
  split
  · exact hact
  · exact .idle s

/-- All calls to the backend but those of an ending go through. -/
theorem proceeds_apply (h : s.backend = MemoryStore.backend) (op : SourceOp) :
    s.Proceeds (op.accepted (s.apply op).1) (s.apply op).2 ∨
      s.closed = false ∧ (op = .close ∧ s.Finalizes ∨ op = .abandon) := by
  cases op with
  | startInput => exact .inl (s.proceeds_startInput h)
  | readLine => exact .inl (s.proceeds_readWith _)
  | readAll => exact .inl (s.proceeds_readWith _)
  | dropInput =>
    left
    show s.Proceeds .empty
      (if s.reader.isSome then (SourceAnswer.done, s.releaseInput)
        else (SourceAnswer.noStream, s)).2
    split
    · exact ⟨rfl, rfl, rfl, ByteArray.append_empty.symm⟩
    · exact .idle s
  | startOutput => exact .inl (s.proceeds_startOutput h)
  | write written =>
    left
    obtain ⟨houtcome, hproceeds⟩ := s.proceeds_write h written
    show s.Proceeds (SourceOp.accepted _ (s.whileWriting (Source.write · written)).1)
      (s.whileWriting (Source.write · written)).2
    unfold whileWriting
    split
    · simp only
      rwa [houtcome]
    · exact .idle s
  | flush => exact .inl (proceeds_whileWriting _ (s.proceeds_flush h))
  | finish => exact .inl (proceeds_whileWriting _ (s.proceeds_finishOutput h))
  | dropOutput =>
    exact .inl (proceeds_whileWriting (fun s => (.ok (), s.releaseOutput))
      ⟨rfl, rfl, rfl, ByteArray.append_empty.symm⟩)
  | close =>
    rcases s.close_cases with ⟨-, hclose⟩ | ⟨-, fault, hclose⟩ | hready
    · left
      show s.Proceeds .empty s.close.2
      rw [hclose]
      exact .idle s
    · left
      show s.Proceeds .empty s.close.2
      rw [hclose]
      exact .idle s
    · exact .inr ⟨hready.1, .inl ⟨rfl, finalizes_iff.2 hready⟩⟩
  | abandon =>
    cases hclosed : s.closed with
    | false => exact .inr ⟨rfl, .inr rfl⟩
    | true =>
      left
      show s.Proceeds .empty s.abandon
      rw [abandon, if_pos hclosed]
      exact .idle s

theorem outputText?_run (h : s.backend = MemoryStore.backend) (hclosed : s.closed = true)
    (ops : List SourceOp) : (s.run ops).2.outputText? = s.outputText? := by
  induction ops generalizing s with
  | nil => rfl
  | cons op ops ih =>
    rcases s.proceeds_apply h op with hproceeds | ⟨hopen, -⟩
    · exact (ih (hproceeds.backend_eq.trans h) (hproceeds.closed_eq.trans hclosed)).trans
        hproceeds.text_eq
    · cases hopen.symm.trans hclosed

theorem outputText?_run_closed (earlier : List SourceOp) (op : SourceOp) (later : List SourceOp)
    (h : ((s.run earlier).2.apply op).2.backend = MemoryStore.backend)
    (hclosed : ((s.run earlier).2.apply op).2.closed = true) :
    (s.run (earlier ++ op :: later)).2.outputText? =
      ((s.run earlier).2.apply op).2.outputText? := by
  rw [run_append_left]
  exact outputText?_run h hclosed later

/-- What is known of a source in memory that bytes were written to: while it is open they are staged
and it shows nothing. -/
structure Staging (s : Source MemoryStore) (bytes : ByteArray) : Prop where
  backend_eq : s.backend = MemoryStore.backend
  accounted : s.Accounted
  staged_eq : s.closed = false → s.store.staged = bytes
  no_text : s.closed = false → s.outputText? = none

theorem staging_inMemory (name text : String) : (inMemory name text).Staging .empty where
  backend_eq := rfl
  accounted := Fresh.accounted ⟨rfl, rfl, rfl, rfl⟩
  staged_eq _ := rfl
  no_text _ := rfl

theorem publishes_finalize (store : MemoryStore) (hnone : store.finished = none)
    (context : Context) :
    Publishes store.staged
      (answer ((MemoryStore.finalize true store).1.mapError (Failure.within · context)))
      (MemoryStore.finalize true store).2.finished := by
  constructor
  · intro text htext
    have hdecoded : String.fromUTF8? store.staged = some text := by
      rw [← htext]
      exact dif_pos text.isValidUTF8
    simp only [MemoryStore.finalize, if_true, hdecoded]
    exact ⟨rfl, trivial⟩
  · intro hinvalid
    have hdecoded : String.fromUTF8? store.staged = none :=
      dif_neg fun hvalid => hinvalid (String.fromUTF8 store.staged hvalid) rfl
    simp only [MemoryStore.finalize, if_true, hdecoded]
    exact ⟨⟨_, rfl⟩, hnone⟩

theorem Staging.close (h : s.Staging bytes) (hfinalizes : s.Finalizes) :
    s.close.2.closed = true ∧ s.close.2.backend = MemoryStore.backend ∧
      (s.CreatedOutput → Publishes bytes (answer s.close.1) s.close.2.outputText?) ∧
      (¬ s.CreatedOutput → s.close.2.outputText? = none) := by
  obtain ⟨hopen, houtput, hreader⟩ := finalizes_iff.1 hfinalizes
  have hclose := close_eq hopen houtput hreader
  have houtcome : s.close.1 = (MemoryStore.finalize (s.output = .finished) s.store).1.mapError
      (Failure.within · (.finalizingOutput s.name)) := by
    rw [hclose, h.backend_eq]
    rfl
  have hshown : s.close.2.outputText? =
      (MemoryStore.finalize (s.output = .finished) s.store).2.finished := by
    rw [hclose]
    show (s.backend.cleanup (s.backend.finalize _ s.store).2).finished = _
    rw [h.backend_eq]
    rfl
  refine ⟨by rw [hclose]; rfl, by rw [hclose]; exact h.backend_eq, fun hcreated => ?_,
    fun hnew => ?_⟩
  · have hfinished : s.output = .finished := by
      cases hstate : s.output with
      | notCreated => exact absurd hstate (h.accounted.createdOutput_iff.1 hcreated)
      | active => exact absurd hstate houtput
      | finished => rfl
    rw [houtcome, hshown, hfinished, ← h.staged_eq hopen]
    exact publishes_finalize s.store (h.no_text hopen) _
  · rw [h.accounted.createdOutput_iff, not_not] at hnew
    rw [hshown, hnew]
    exact h.no_text hopen

theorem outputText?_abandon_eq (h : s.backend = MemoryStore.backend) (hopen : s.closed = false) :
    s.abandon.closed = true ∧ s.abandon.backend = MemoryStore.backend ∧
      s.abandon.outputText? = s.outputText? := by
  rw [abandon, if_neg (by simp [hopen])]
  refine ⟨rfl, h, ?_⟩
  show (s.backend.cleanup s.store).finished = s.store.finished
  rw [h]
  rfl

theorem Staging.apply (h : s.Staging bytes) (op : SourceOp) :
    (s.apply op).2.Staging (bytes ++ op.accepted (s.apply op).1) := by
  obtain ⟨made, hmove⟩ := s.move_apply op
  have haccounted := h.accounted.move hmove
  have hended : ∀ after : Source MemoryStore, after.Accounted → after.closed = true →
      after.backend = MemoryStore.backend →
      after.Staging (bytes ++ op.accepted (s.apply op).1) := by
    intro after haccounted hclosed hbackend
    exact ⟨hbackend, haccounted, by simp [hclosed], by simp [hclosed]⟩
  rcases s.proceeds_apply h.backend_eq op with
    hproceeds | ⟨hopen, ⟨rfl, hfinalizes⟩ | rfl⟩
  · refine ⟨hproceeds.backend_eq.trans h.backend_eq, haccounted, fun hopen => ?_,
      fun hopen => ?_⟩
    · rw [hproceeds.staged_eq, h.staged_eq (hproceeds.closed_eq.symm.trans hopen)]
    · rw [hproceeds.text_eq, h.no_text (hproceeds.closed_eq.symm.trans hopen)]
  · obtain ⟨hclosed, hbackend, -⟩ := h.close hfinalizes
    exact hended _ haccounted hclosed hbackend
  · obtain ⟨hclosed, hbackend, -⟩ := outputText?_abandon_eq h.backend_eq hopen
    exact hended _ haccounted hclosed hbackend

theorem Staging.run (h : s.Staging bytes) (ops : List SourceOp) :
    (s.run ops).2.Staging (bytes ++ s.bytesWritten ops) := by
  induction ops generalizing s bytes with
  | nil =>
    rw [bytesWritten, ByteArray.append_empty]
    exact h
  | cons op ops ih =>
    rw [bytesWritten, ← ByteArray.append_assoc]
    exact ih (h.apply op)

theorem staging_run (name text : String) (ops : List SourceOp) :
    ((inMemory name text).run ops).2.Staging ((inMemory name text).bytesWritten ops) := by
  have hrun := (staging_inMemory name text).run ops
  rwa [ByteArray.empty_append] at hrun

/-- As long as no close finalizes the source with output, it shows nothing. -/
theorem Staging.no_text_run (h : s.Staging bytes) (hnone : s.outputText? = none)
    (ops : List SourceOp)
    (hcloses : ∀ earlier later, ops = earlier ++ .close :: later →
      ¬ ((s.run earlier).2.Finalizes ∧ (s.run earlier).2.CreatedOutput)) :
    (s.run ops).2.outputText? = none := by
  induction ops generalizing s bytes with
  | nil => exact hnone
  | cons op ops ih =>
    have hstep : (s.apply op).2.outputText? = none := by
      rcases s.proceeds_apply h.backend_eq op with
        hproceeds | ⟨hopen, ⟨rfl, hfinalizes⟩ | rfl⟩
      · exact hproceeds.text_eq.trans hnone
      · have hnew : ¬ s.CreatedOutput := fun hcreated =>
          hcloses [] ops rfl ⟨hfinalizes, hcreated⟩
        exact (h.close hfinalizes).2.2.2 hnew
      · exact (outputText?_abandon_eq h.backend_eq hopen).2.2.trans hnone
    exact ih (h.apply op) hstep fun earlier later heq =>
      hcloses (op :: earlier) later (congrArg (op :: ·) heq)

/-- A source in memory shows nothing until a close finalizes it with output. That close makes the
bytes that went through the writer, in their order, the text that is shown, or it fails if they are
no text. After it nothing changes what is shown; and if the source is closed without output or
abandoned, nothing is ever shown, whatever a writer that is left goes on to write. -/
theorem run_publishes_written (name text : String) (ops : List SourceOp) :
    let s := inMemory name text
    ((∀ earlier later, ops = earlier ++ .close :: later →
        ¬ ((s.run earlier).2.Finalizes ∧ (s.run earlier).2.CreatedOutput)) →
      (s.run ops).2.outputText? = none) ∧
    (∀ earlier later, ops = earlier ++ .close :: later → (s.run earlier).2.Finalizes →
      (s.run earlier).2.CreatedOutput →
        Publishes (s.bytesWritten earlier) ((s.run earlier).2.apply .close).1
          (s.run ops).2.outputText?) ∧
    (∀ earlier later, ops = earlier ++ .close :: later → (s.run earlier).2.Finalizes →
      ¬ (s.run earlier).2.CreatedOutput → (s.run ops).2.outputText? = none) ∧
    (∀ earlier later, ops = earlier ++ .abandon :: later → (s.run earlier).2.Abandons →
      (s.run ops).2.outputText? = none) ∧
    ∀ earlier later shown, ops = earlier ++ later →
      (s.run earlier).2.outputText? = some shown → (s.run ops).2.outputText? = some shown := by
  intro s
  refine ⟨fun hnone => ?_, ?_, ?_, ?_, ?_⟩
  · exact (staging_inMemory name text).no_text_run rfl ops hnone
  · rintro earlier later rfl hfinalizes hcreated
    obtain ⟨hclosed, hbackend, hpublishes, -⟩ := (staging_run name text earlier).close hfinalizes
    rw [outputText?_run_closed earlier .close later hbackend hclosed]
    exact hpublishes hcreated
  · rintro earlier later rfl hfinalizes hnew
    obtain ⟨hclosed, hbackend, -, hnone⟩ := (staging_run name text earlier).close hfinalizes
    rw [outputText?_run_closed earlier .close later hbackend hclosed]
    exact hnone hnew
  · rintro earlier later rfl habandons
    have hstaging := staging_run name text earlier
    have hopen := not_closed_of_abandons habandons
    obtain ⟨hclosed, hbackend, hsame⟩ := outputText?_abandon_eq hstaging.backend_eq hopen
    rw [outputText?_run_closed earlier .abandon later hbackend hclosed]
    exact hsame.trans (hstaging.no_text hopen)
  · rintro earlier later shown rfl hshown
    have hstaging := staging_run name text earlier
    -- what shows a text is closed
    have hclosed : (s.run earlier).2.closed = true := by
      by_contra hopen
      rw [hstaging.no_text (by simpa using hopen)] at hshown
      cases hshown
    rw [run_append_left, outputText?_run hstaging.backend_eq hclosed, hshown]

/-- Bytes that are written in pieces are one text, and a later close does not take it back. -/
theorem run_publishes_written_pieces :
    let s := inMemory "A.j" "nop"
    let ops : List SourceOp :=
      [.startOutput, .write "re".toUTF8, .write "turn".toUTF8, .finish]
    (s.run ops).2.Finalizes ∧ (s.run ops).2.CreatedOutput ∧
      (s.run (ops ++ [.close, .abandon, .close])).2.outputText? = some "return" := by
  intro s ops
  have hfinalizes : (s.run ops).2.Finalizes := finalizes_iff.2 (by decide +kernel)
  have hcreated : (s.run ops).2.CreatedOutput :=
    ((staging_inMemory "A.j" "nop").run ops).accounted.createdOutput_iff.2 (by decide +kernel)
  have hbytes : "return".toUTF8 = s.bytesWritten ops := by decide +kernel
  have hpublishes := (run_publishes_written "A.j" "nop" _).2.1 ops [.abandon, .close] rfl hfinalizes
    hcreated
  exact ⟨hfinalizes, hcreated, (hpublishes.valid "return" hbytes).2⟩

end Source
end UnitLink
