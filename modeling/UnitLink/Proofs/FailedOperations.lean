import UnitLink.Proofs.SourceRuns
/-! Operations that leave no trace. A source that refuses an operation, or whose input cannot be
opened, goes on as if nothing had been asked of it, as long as its backend does not mind how often
the input was opened. Two failures are not undone: an output that could not be created stays spent,
and a source that could not be finalized stays closed. -/
namespace UnitLink

variable {σ : Type}

/-! ### Backends -/

/-- What a backend gives back for a call. -/
inductive BackendAnswer where
  | opened (outcome : Except Failure Stream)
  | done (outcome : Except Failure Unit)

def BackendCall.isOpenInput : BackendCall → Bool
  | openInput => true
  | _ => false

namespace Backend

/-- A call of any kind; the cleanup cannot fail. -/
def call (b : Backend σ) (store : σ) : BackendCall → BackendAnswer × σ
  | .openInput => (.opened (b.openInput store).1, (b.openInput store).2)
  | .createOutput => (.done (b.createOutput store).1, (b.createOutput store).2)
  | .write bytes => (.done (b.write bytes store).1, (b.write bytes store).2)
  | .flush => (.done (b.flush store).1, (b.flush store).2)
  | .finalize produced => (.done (b.finalize produced store).1, (b.finalize produced store).2)
  | .cleanup => (.done (.ok ()), b.cleanup store)

/-- The store that calls leave, the latest of which comes first. -/
def after (b : Backend σ) (store : σ) : List BackendCall → σ
  | [] => store
  | call :: calls => (b.call (b.after store calls) call).2

/-- Whatever calls are made, no answer depends on the openings of the input among them. -/
def ForgetsOpenings (b : Backend σ) (store : σ) : Prop :=
  ∀ calls call, (b.call (b.after store calls) call).1 =
    (b.call (b.after store (calls.filter fun earlier => !earlier.isOpenInput)) call).1

/-- Whatever calls are made, they are answered alike from both stores. -/
def AnswersAlike (b : Backend σ) (store store' : σ) : Prop :=
  ∀ calls call, (b.call (b.after store calls) call).1 = (b.call (b.after store' calls) call).1

variable {b : Backend σ} {store store' store'' : σ}

theorem after_append (b : Backend σ) (store : σ) (later earlier : List BackendCall) :
    b.after store (later ++ earlier) = b.after (b.after store earlier) later := by
  induction later with
  | nil => rfl
  | cons call later ih => rw [List.cons_append, after, after, ih]

theorem AnswersAlike.refl (b : Backend σ) (store : σ) : b.AnswersAlike store store :=
  fun _ _ => rfl

theorem AnswersAlike.trans (h : b.AnswersAlike store store')
    (h' : b.AnswersAlike store' store'') : b.AnswersAlike store store'' :=
  fun calls call => (h calls call).trans (h' calls call)

theorem AnswersAlike.answer (h : b.AnswersAlike store store') (call : BackendCall) :
    (b.call store call).1 = (b.call store' call).1 :=
  h [] call

theorem AnswersAlike.call (h : b.AnswersAlike store store') (call : BackendCall) :
    b.AnswersAlike (b.call store call).2 (b.call store' call).2 := by
  intro calls later
  have hlater := h (calls ++ [call]) later
  rwa [after_append, after_append] at hlater

theorem ForgetsOpenings.call (h : b.ForgetsOpenings store) (call : BackendCall) :
    b.ForgetsOpenings (b.call store call).2 := by
  intro calls later
  have hall := h (calls ++ [call]) later
  have hkept := h ((calls.filter fun earlier => !earlier.isOpenInput) ++ [call]) later
  rw [List.filter_append, List.filter_filter] at hkept
  simp only [Bool.and_self] at hkept
  rw [← List.filter_append, ← hall, after_append, after_append] at hkept
  exact hkept.symm

theorem ForgetsOpenings.openInput (h : b.ForgetsOpenings store) :
    b.AnswersAlike (b.openInput store).2 store := by
  intro calls later
  have hopened := h (calls ++ [BackendCall.openInput]) later
  have hfiltered : (calls ++ [BackendCall.openInput]).filter
      (fun earlier => !earlier.isOpenInput) =
        calls.filter fun earlier => !earlier.isOpenInput := by
    simp [BackendCall.isOpenInput]
  rwa [hfiltered, ← h calls later, after_append] at hopened

end Backend

/-! ### Steps -/

/-- The source itself has refused, and no backend was asked. -/
def Failure.isRefusal : Failure → Bool
  | ⟨[], .streamState _ _⟩ => true
  | _ => false

/-- Failures after which a source is as it was: all refusals, and all failures to start reading. -/
def SourceOp.isUndone : SourceOp → SourceAnswer → Bool
  | .startInput, .failed _ => true
  | .startOutput, .failed failure | .close, .failed failure => failure.isRefusal
  | _, _ => false

/-- One operation of a run, with its answer and the backend calls that were made for it, the latest
first. -/
structure Step where
  op : SourceOp
  answer : SourceAnswer
  calls : List BackendCall

def Step.leavesTrace (step : Step) : Bool := !step.op.isUndone step.answer

namespace Source

def callsSince (before after : Source σ) : List BackendCall :=
  after.calls.take (after.calls.length - before.calls.length)

theorem callsSince_eq {before after : Source σ} {made : List BackendCall}
    (h : after.calls = made ++ before.calls) : callsSince before after = made := by
  rw [callsSince, h, List.length_append, Nat.add_sub_cancel, List.take_left]

def steps (s : Source σ) : List SourceOp → List Step
  | [] => []
  | op :: ops =>
    ⟨op, (s.apply op).1, callsSince s (s.apply op).2⟩ :: (s.apply op).2.steps ops

/-! ### Sources that cannot be told apart -/

/-- Two sources that differ in what their backends do not show. -/
structure Alike (t u : Source σ) : Prop where
  name_eq : u.name = t.name
  backend_eq : u.backend = t.backend
  reader_eq : u.reader = t.reader
  output_eq : u.output = t.output
  closed_eq : u.closed = t.closed
  stores : t.backend.AnswersAlike t.store u.store
  forgets : t.backend.ForgetsOpenings t.store

/-- Two sources have answered alike and made the same calls, and are alike again. -/
structure InStep {α : Type} (t u : Source σ) (x y : α × Source σ) : Prop where
  answer_eq : y.1 = x.1
  alike : x.2.Alike y.2
  calls_eq : ∃ made, x.2.calls = made ++ t.calls ∧ y.2.calls = made ++ u.calls

variable {s t u : Source σ}

theorem Alike.refl (h : s.backend.ForgetsOpenings s.store) : s.Alike s where
  name_eq := rfl
  backend_eq := rfl
  reader_eq := rfl
  output_eq := rfl
  closed_eq := rfl
  stores := .refl _ _
  forgets := h

theorem Alike.called (h : t.Alike u) (call : BackendCall) :
    (t.called call (t.backend.call t.store call).2).Alike
      (u.called call (t.backend.call u.store call).2) where
  name_eq := h.name_eq
  backend_eq := h.backend_eq
  reader_eq := h.reader_eq
  output_eq := h.output_eq
  closed_eq := h.closed_eq
  stores := h.stores.call call
  forgets := h.forgets.call call

theorem Alike.withReader (h : t.Alike u) (reader : Option Stream) :
    ({ t with reader } : Source σ).Alike { u with reader } :=
  { h with reader_eq := rfl }

theorem Alike.withOutput (h : t.Alike u) (output : OutputState) :
    ({ t with output } : Source σ).Alike { u with output } :=
  { h with output_eq := rfl }

theorem Alike.withClosed (h : t.Alike u) : ({ t with closed := true } : Source σ).Alike
    { u with closed := true } :=
  { h with closed_eq := rfl }

theorem Alike.refuse_eq (h : t.Alike u) (fault : StreamFault) :
    u.refuse fault = t.refuse fault := by
  rw [refuse, refuse, h.name_eq]

theorem Alike.idle {α : Type} {x y : α} (h : t.Alike u) (hanswer : y = x) :
    t.InStep u (x, t) (y, u) :=
  ⟨hanswer, h, [], rfl, rfl⟩

theorem Alike.startInput (h : t.Alike u) : t.InStep u t.startInput u.startInput := by
  have hcalled := h.called .openInput
  have houtcome : (t.backend.openInput t.store).1 = (t.backend.openInput u.store).1 :=
    BackendAnswer.opened.inj (h.stores.answer .openInput)
  unfold Source.startInput
  rw [h.closed_eq, h.reader_eq, h.backend_eq, h.name_eq, h.refuse_eq, h.refuse_eq]
  split
  · exact h.idle rfl
  split
  · exact h.idle rfl
  simp only [Backend.call] at hcalled
  generalize t.backend.openInput t.store = opening at hcalled houtcome ⊢
  generalize t.backend.openInput u.store = opening' at hcalled houtcome ⊢
  obtain ⟨outcome, store⟩ := opening
  obtain ⟨_, store'⟩ := opening'
  obtain rfl : outcome = _ := houtcome
  cases outcome with
  | ok stream => exact ⟨rfl, hcalled.withReader (some stream), [.openInput], rfl, rfl⟩
  | error failure => exact ⟨rfl, hcalled, [.openInput], rfl, rfl⟩

theorem Alike.startOutput (h : t.Alike u) : t.InStep u t.startOutput u.startOutput := by
  have hcalled := h.called .createOutput
  have houtcome : (t.backend.createOutput t.store).1 = (t.backend.createOutput u.store).1 :=
    BackendAnswer.done.inj (h.stores.answer .createOutput)
  unfold Source.startOutput
  rw [h.closed_eq, h.output_eq, h.backend_eq, h.name_eq, h.refuse_eq, h.refuse_eq]
  split
  · exact h.idle rfl
  split
  · exact h.idle rfl
  simp only [Backend.call] at hcalled
  generalize t.backend.createOutput t.store = creation at hcalled houtcome ⊢
  generalize t.backend.createOutput u.store = creation' at hcalled houtcome ⊢
  obtain ⟨outcome, store⟩ := creation
  obtain ⟨_, store'⟩ := creation'
  obtain rfl : outcome = _ := houtcome
  cases outcome with
  | ok done => exact ⟨rfl, hcalled.withOutput .active, [.createOutput], rfl, rfl⟩
  | error failure => exact ⟨rfl, hcalled.withOutput .finished, [.createOutput], rfl, rfl⟩

theorem Alike.write (h : t.Alike u) (bytes : ByteArray) :
    t.InStep u (t.write bytes) (u.write bytes) := by
  have houtcome : (t.backend.write bytes t.store).1 = (t.backend.write bytes u.store).1 :=
    BackendAnswer.done.inj (h.stores.answer (.write bytes))
  unfold Source.write
  split
  · exact h.idle rfl
  · rw [h.backend_eq]
    exact ⟨houtcome.symm, h.called (.write bytes), [.write bytes], rfl, rfl⟩

theorem Alike.flush (h : t.Alike u) : t.InStep u t.flush u.flush := by
  have houtcome : (t.backend.flush t.store).1 = (t.backend.flush u.store).1 :=
    BackendAnswer.done.inj (h.stores.answer .flush)
  unfold Source.flush
  rw [h.backend_eq]
  exact ⟨houtcome.symm, h.called .flush, [.flush], rfl, rfl⟩

theorem Alike.finishOutput (h : t.Alike u) : t.InStep u t.finishOutput u.finishOutput := by
  have hflush := h.flush
  unfold Source.finishOutput
  generalize t.flush = flushed at hflush ⊢
  generalize u.flush = flushed' at hflush ⊢
  obtain ⟨outcome, after⟩ := flushed
  obtain ⟨outcome', after'⟩ := flushed'
  obtain ⟨hanswer, halike, hcalls⟩ := hflush
  obtain rfl : outcome' = outcome := hanswer
  cases outcome' with
  | ok done => exact ⟨rfl, halike.withOutput .finished, hcalls⟩
  | error failure =>
    refine ⟨?_, halike.withOutput .finished, hcalls⟩
    show Except.error (failure.within (.writingOutput after'.name)) =
      Except.error (failure.within (.writingOutput after.name))
    rw [show after'.name = after.name from halike.name_eq]

theorem Alike.cleanUp (h : t.Alike u) : t.cleanUp.Alike u.cleanUp := by
  unfold Source.cleanUp
  rw [h.backend_eq]
  exact h.called .cleanup

theorem Alike.close (h : t.Alike u) : t.InStep u t.close u.close := by
  by_cases hready : t.closed = false ∧ t.output ≠ .active ∧ t.reader = none
  · obtain ⟨hopen, houtput, hreader⟩ := hready
    have houtcome : (t.backend.finalize (t.output = OutputState.finished) t.store).1 =
        (t.backend.finalize (t.output = OutputState.finished) u.store).1 :=
      BackendAnswer.done.inj (h.stores.answer (.finalize (t.output = OutputState.finished)))
    rw [close_eq hopen houtput hreader, close_eq (h.closed_eq.trans hopen)
      (h.output_eq ▸ houtput) (h.reader_eq.trans hreader), h.backend_eq, h.output_eq, h.name_eq]
    exact ⟨congrArg (Except.mapError (Failure.within · (.finalizingOutput t.name))) houtcome.symm,
      (h.called (.finalize _)).withClosed.cleanUp, [.cleanup, .finalize _], rfl, rfl⟩
  · unfold Source.close
    rw [h.closed_eq, h.output_eq, h.reader_eq, h.refuse_eq, h.refuse_eq]
    split
    · exact h.idle rfl
    split
    · exact h.idle rfl
    split
    · exact h.idle rfl
    · simp_all

theorem Alike.abandon (h : t.Alike u) :
    t.InStep u (SourceAnswer.done, t.abandon) (SourceAnswer.done, u.abandon) := by
  unfold Source.abandon
  rw [h.closed_eq]
  split
  · exact h.idle rfl
  · exact ⟨rfl, h.withClosed.cleanUp, [.cleanup], rfl, rfl⟩

theorem Alike.readWith (h : t.Alike u) (read : Stream → Except SystemFault (String × Stream)) :
    t.InStep u (t.readWith read) (u.readWith read) := by
  unfold Source.readWith
  rw [h.reader_eq]
  split
  · exact h.idle rfl
  · split
    · exact ⟨rfl, h.withReader _, [], rfl, rfl⟩
    · exact h.idle rfl

theorem InStep.answered {x y : Except Failure Unit × Source σ} (h : t.InStep u x y) :
    t.InStep u (answer x.1, x.2) (answer y.1, y.2) :=
  ⟨congrArg answer h.answer_eq, h.alike, h.calls_eq⟩

theorem Alike.whileWriting (h : t.Alike u) (act : Source σ → Except Failure Unit × Source σ)
    (hact : t.InStep u (act t) (act u)) : t.InStep u (t.whileWriting act) (u.whileWriting act) := by
  unfold Source.whileWriting
  rw [h.output_eq]
  split
  · exact hact.answered
  · exact h.idle rfl

theorem Alike.dropInput (h : t.Alike u) :
    t.InStep u (t.apply .dropInput) (u.apply .dropInput) := by
  show t.InStep u
    (if t.reader.isSome then (SourceAnswer.done, t.releaseInput) else (SourceAnswer.noStream, t))
    (if u.reader.isSome then (SourceAnswer.done, u.releaseInput) else (SourceAnswer.noStream, u))
  rw [h.reader_eq]
  split
  · exact ⟨rfl, h.withReader none, [], rfl, rfl⟩
  · exact h.idle rfl

theorem Alike.apply (h : t.Alike u) (op : SourceOp) : t.InStep u (t.apply op) (u.apply op) := by
  cases op with
  | startInput => exact h.startInput.answered
  | readLine => exact h.readWith _
  | readAll => exact h.readWith _
  | dropInput => exact h.dropInput
  | startOutput => exact h.startOutput.answered
  | write bytes => exact h.whileWriting (Source.write · bytes) (h.write bytes)
  | flush => exact h.whileWriting Source.flush h.flush
  | finish => exact h.whileWriting Source.finishOutput h.finishOutput
  | dropOutput =>
    exact h.whileWriting (fun s => (.ok (), s.releaseOutput))
      ⟨rfl, h.withOutput .finished, [], rfl, rfl⟩
  | close => exact h.close.answered
  | abandon => exact h.abandon

/-! ### Failures -/

/-- What of a source decides which operations it allows. -/
def status (s : Source σ) : Option Stream × OutputState × Bool := (s.reader, s.output, s.closed)

/-- The one output that is permitted is spent on a creation that fails. -/
structure SpendsOutput (before after : Source σ) : Prop where
  fails : ∃ cause, (before.backend.createOutput before.store).1 = .error cause
  permitted : before.output = .notCreated
  reader_eq : after.reader = before.reader
  output_eq : after.output = .finished
  closed_eq : after.closed = before.closed
  /-- Whatever is done later, no output can be created. -/
  spent : ∀ ops, ∃ fault,
    ((after.run ops).2.apply .startOutput).1 = .failed (before.refuse fault)

/-- A source is closed and cleaned up, although its finalization fails. -/
structure ClosesRegardless (before after : Source σ) : Prop where
  fails : ∃ cause, (before.backend.finalize (before.output = .finished) before.store).1 =
    .error cause
  was_open : before.closed = false
  closed : after.closed = true
  calls_eq : after.calls =
    .cleanup :: .finalize (before.output = .finished) :: before.calls

theorem startInput_of_error {failure : Failure} (h : s.startInput.1 = .error failure) :
    s.startInput.2 = s ∨
      s.startInput.2 = s.called .openInput (s.backend.openInput s.store).2 := by
  unfold startInput at h ⊢
  split
  · exact .inl rfl
  split
  · exact .inl rfl
  split
  · simp_all
  · rename_i failure store hopen
    rw [hopen]
    exact .inr rfl

theorem startOutput_of_error {failure : Failure} (h : s.startOutput.1 = .error failure) :
    s.startOutput.2 = s ∨
      failure.isRefusal = false ∧ s.closed = false ∧ s.output = .notCreated ∧
        (∃ cause, (s.backend.createOutput s.store).1 = .error cause) ∧
        s.startOutput.2 = { s.called .createOutput (s.backend.createOutput s.store).2 with
          output := .finished } := by
  unfold startOutput at h ⊢
  split
  · exact .inl rfl
  split
  · exact .inl rfl
  rename_i hopen hnew
  split
  · simp_all
  · rename_i cause store hcreate
    rw [if_neg hopen, if_neg hnew, hcreate] at h
    obtain rfl := Except.error.inj h
    rw [hcreate]
    exact .inr ⟨rfl, by simpa using hopen, by simpa using hnew, ⟨cause, rfl⟩, rfl⟩

theorem close_of_error {failure : Failure} (h : s.close.1 = .error failure) :
    s.close.2 = s ∨
      failure.isRefusal = false ∧ s.closed = false ∧
        (∃ cause, (s.backend.finalize (s.output = OutputState.finished) s.store).1 =
          .error cause) ∧
        s.close.2.closed = true ∧
        s.close.2.calls = .cleanup :: .finalize (s.output = OutputState.finished) :: s.calls := by
  rcases s.close_cases with ⟨-, hclose⟩ | ⟨-, fault, hclose⟩ | ⟨hopen, houtput, hreader⟩
  · exact .inl (by rw [hclose])
  · exact .inl (by rw [hclose])
  · rw [close_eq hopen houtput hreader] at h ⊢
    cases houtcome : (s.backend.finalize (s.output = OutputState.finished) s.store).1 with
    | ok done => simp [houtcome, Except.mapError] at h
    | error cause =>
      rw [houtcome] at h
      obtain rfl := Except.error.inj h
      exact .inr ⟨rfl, hopen, ⟨cause, rfl⟩, rfl, rfl⟩

theorem answer_eq_failed_iff {outcome : Except Failure Unit} {failure : Failure} :
    answer outcome = .failed failure ↔ outcome = .error failure := by
  cases outcome <;> simp [answer]

theorem exists_failed_of_isUndone {op : SourceOp} {answer : SourceAnswer}
    (h : op.isUndone answer = true) :
    ∃ failure, answer = .failed failure ∧
      (op = .startInput ∨ (op = .startOutput ∨ op = .close) ∧ failure.isRefusal = true) := by
  unfold SourceOp.isUndone at h
  split at h
  · exact ⟨_, rfl, .inl rfl⟩
  · exact ⟨_, rfl, .inr ⟨.inl rfl, h⟩⟩
  · exact ⟨_, rfl, .inr ⟨.inr rfl, h⟩⟩
  · cases h

/-- After a failure that is undone the source is alike to what it was. -/
theorem Alike.of_isUndone (h : t.Alike u) {op : SourceOp}
    (hundone : op.isUndone (t.apply op).1 = true) : (t.apply op).2.Alike u := by
  obtain ⟨failure, hfailed, rfl | ⟨rfl | rfl, hrefusal⟩⟩ := exists_failed_of_isUndone hundone
  · show t.startInput.2.Alike u
    rcases startInput_of_error (answer_eq_failed_iff.1 hfailed) with hsame | hcalled
    · rwa [hsame]
    · rw [hcalled]
      exact { h with
        stores := h.forgets.openInput.trans h.stores
        forgets := h.forgets.call .openInput }
  · show t.startOutput.2.Alike u
    rcases startOutput_of_error (answer_eq_failed_iff.1 hfailed) with hsame | ⟨hasked, -⟩
    · rwa [hsame]
    · rw [hasked] at hrefusal
      cases hrefusal
  · show t.close.2.Alike u
    rcases close_of_error (answer_eq_failed_iff.1 hfailed) with hsame | ⟨hasked, -⟩
    · rwa [hsame]
    · rw [hasked] at hrefusal
      cases hrefusal

/-- Without the steps that are undone, a run takes the others all the same. -/
theorem Alike.steps (h : t.Alike u) (ops : List SourceOp) :
    u.steps (((t.steps ops).filter Step.leavesTrace).map Step.op) =
      (t.steps ops).filter Step.leavesTrace := by
  induction ops generalizing t u with
  | nil => rfl
  | cons op ops ih =>
    rw [Source.steps]
    cases hundone : op.isUndone (t.apply op).1 with
    | true =>
      rw [List.filter_cons_of_neg (by simp [Step.leavesTrace, hundone])]
      exact ih (h.of_isUndone hundone)
    | false =>
      obtain ⟨hanswer, halike, made, hmade, hmade'⟩ := h.apply op
      rw [List.filter_cons_of_pos (by simp [Step.leavesTrace, hundone]), List.map_cons,
        Source.steps, ih halike, hanswer, callsSince_eq hmade, callsSince_eq hmade']

/-! ### Failures that are not undone -/

theorem output_ne_of_move {before after : Source σ} {op : SourceOp} {made : List BackendCall}
    (hmove : before.Move op made after) (h : before.output ≠ .notCreated) :
    after.output ≠ .notCreated ∧ after.name = before.name := by
  cases hmove with
  | idle | moveReader | openInput | close | abandon => exact ⟨h, rfl⟩
  | createOutput output store hopen hnew houtput => exact absurd hnew h
  | useWriter op call output store hactive hcall houtput => exact ⟨houtput, rfl⟩
  | dropWriter => exact ⟨by simp [releaseOutput], rfl⟩

theorem startOutput_refused_of_run (h : s.output ≠ .notCreated) (ops : List SourceOp) :
    ∃ fault, ((s.run ops).2.apply .startOutput).1 = .failed (s.refuse fault) := by
  induction ops generalizing s with
  | nil =>
    show ∃ fault, answer s.startOutput.1 = _
    unfold startOutput
    split
    · exact ⟨.closed, rfl⟩
    · exact ⟨.outputSpent, rfl⟩
  | cons op ops ih =>
    obtain ⟨made, hmove⟩ := s.move_apply op
    obtain ⟨hkept, hname⟩ := output_ne_of_move hmove h
    obtain ⟨fault, hrefused⟩ := ih hkept
    exact ⟨fault, by rw [refuse, ← hname]; exact hrefused⟩

theorem not_spendsOutput_self : ¬ s.SpendsOutput s := by
  intro h
  cases h.permitted.symm.trans h.output_eq

theorem not_closesRegardless_self : ¬ s.ClosesRegardless s := by
  intro h
  cases h.was_open.symm.trans h.closed

/-- Of the failures to start reading, to start writing and to close, those that change the state. -/
theorem status_ne_iff {op : SourceOp} {failure : Failure}
    (hop : op = .startInput ∨ op = .startOutput ∨ op = .close)
    (hfailed : (s.apply op).1 = .failed failure) :
    (s.apply op).2.status ≠ s.status ↔
      op = .startOutput ∧ s.SpendsOutput (s.apply op).2 ∨
        op = .close ∧ s.ClosesRegardless (s.apply op).2 := by
  rcases hop with rfl | rfl | rfl
  · have hsame : (s.apply .startInput).2.status = s.status := by
      show s.startInput.2.status = s.status
      rcases startInput_of_error (answer_eq_failed_iff.1 hfailed) with hsame | hcalled
      · rw [hsame]
      · rw [hcalled]
        rfl
    simp [hsame]
  · show s.startOutput.2.status ≠ s.status ↔
      _ ∧ s.SpendsOutput s.startOutput.2 ∨ _ ∧ s.ClosesRegardless s.startOutput.2
    rcases startOutput_of_error (answer_eq_failed_iff.1 hfailed) with
      hsame | ⟨-, hopen, hnew, hfails, hcreated⟩
    · rw [hsame]
      simp [not_spendsOutput_self]
    · rw [hcreated]
      refine iff_of_true (fun hstatus => ?_) (.inl ⟨rfl, hfails, hnew, rfl, rfl, rfl, ?_⟩)
      · have houtput : OutputState.finished = s.output := congrArg (·.2.1) hstatus
        rw [hnew] at houtput
        cases houtput
      · exact startOutput_refused_of_run (by simp)
  · show s.close.2.status ≠ s.status ↔
      _ ∧ s.SpendsOutput s.close.2 ∨ _ ∧ s.ClosesRegardless s.close.2
    rcases close_of_error (answer_eq_failed_iff.1 hfailed) with
      hsame | ⟨-, hopen, hfails, hclosed, hcalls⟩
    · rw [hsame]
      simp [not_closesRegardless_self]
    · refine iff_of_true (fun hstatus => ?_) (.inr ⟨rfl, hfails, hopen, hclosed, hcalls⟩)
      have hsame : s.close.2.closed = s.closed := congrArg (·.2.2) hstatus
      rw [hclosed, hopen] at hsame
      cases hsame

/-- If the backend forgets how often its input was opened, a run goes on without the operations that
were refused and without the readings that could not be started as it does with them: all other
operations have their answers and make their calls. Of the failures to start reading, to start
writing and to close, just those change the state where an output cannot be created, which spends
it, or a finalization fails, which closes the source all the same. -/
theorem failures_leave_no_trace (h : s.backend.ForgetsOpenings s.store) (ops : List SourceOp) :
    s.steps (((s.steps ops).filter Step.leavesTrace).map Step.op) =
        (s.steps ops).filter Step.leavesTrace ∧
      ∀ (t : Source σ) (op : SourceOp) (failure : Failure),
        (op = .startInput ∨ op = .startOutput ∨ op = .close) →
          (t.apply op).1 = .failed failure →
            ((t.apply op).2.status ≠ t.status ↔
              op = .startOutput ∧ t.SpendsOutput (t.apply op).2 ∨
                op = .close ∧ t.ClosesRegardless (t.apply op).2) :=
  ⟨(Alike.refl h).steps ops, fun _ _ _ hop hfailed => status_ne_iff hop hfailed⟩

theorem after_script (script : Script) (calls : List BackendCall) :
    Script.backend.after script calls = script := by
  have houtcome : ∀ call, (script.outcome call).2 = script := by
    intro call
    unfold Script.outcome
    split <;> rfl
  induction calls with
  | nil => rfl
  | cons call calls ih =>
    rw [Backend.after, ih]
    cases call with
    | openInput =>
      show (Script.backend.openInput script).2 = script
      unfold Script.backend
      simp only
      split <;> rfl
    | cleanup => rfl
    | _ => exact houtcome _

/-- A source whose input is gone and that cannot be finalized. -/
def unreadable : Source Script := scripted "a.j" ⟨"return\n", fun
  | .openInput => some "gone"
  | .finalize _ => some "disk full"
  | _ => none⟩

/-- Half of the operations on it are as good as not done; the last close that is tried fails, too,
and leaves it closed. -/
theorem failures_leave_no_trace_unreadable :
    unreadable.backend.ForgetsOpenings unreadable.store ∧
      unreadable.steps [.startOutput, .write "x".toUTF8, .finish, .close] =
        (unreadable.steps [.startInput, .startOutput, .startOutput, .close, .write "x".toUTF8,
          .finish, .close, .startInput]).filter Step.leavesTrace ∧
      (unreadable.run [.startOutput, .write "x".toUTF8, .finish]).2.ClosesRegardless
        (unreadable.run [.startOutput, .write "x".toUTF8, .finish, .close]).2 := by
  have hforgets : unreadable.backend.ForgetsOpenings unreadable.store := by
    intro calls call
    rw [show unreadable.backend = Script.backend from rfl, after_script, after_script]
  obtain ⟨hsteps, hfailures⟩ := failures_leave_no_trace hforgets [.startInput, .startOutput,
    .startOutput, .close, .write "x".toUTF8, .finish, .close, .startInput]
  refine ⟨hforgets, hsteps, ?_⟩
  have hclose := (hfailures (unreadable.run [.startOutput, .write "x".toUTF8, .finish]).2 .close
    ⟨[.finalizingOutput "a.j"], .system (.reported "disk full")⟩ (.inr (.inr rfl)) rfl).1
    (by decide +kernel)
  rcases hclose with ⟨hop, -⟩ | ⟨-, hcloses⟩
  · cases hop
  · exact hcloses

end Source
end UnitLink
