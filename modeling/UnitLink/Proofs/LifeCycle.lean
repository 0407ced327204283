import UnitLink.Link
import UnitLink.Proofs.Pairing
/-! The life of a source in a link, whatever its backend does. Discovery and resolution only
open the input, rewriting creates the output once, and closing or abandoning ends with the
cleanup. A source is finalized by the close that follows its own rewriting and by nothing
else. -/
namespace UnitLink

namespace BackendCall

def isCreateOutput : BackendCall → Bool
  | createOutput => true
  | _ => false

def isFinalize : BackendCall → Bool
  | finalize _ => true
  | _ => false

def isCleanup : BackendCall → Bool
  | cleanup => true
  | _ => false

def isTransfer : BackendCall → Bool
  | openInput | write _ | flush => true
  | _ => false

end BackendCall

variable {σ τ : Type}

namespace Source

/-- A source as it is before a job. -/
structure Fresh (s : Source σ) : Prop where
  no_reader : s.reader = none
  no_output : s.output = .notCreated
  not_closed : s.closed = false
  no_calls : s.calls = []

/-- A source that still has to be closed. -/
structure Pending (s : Source σ) : Prop where
  not_closed : s.closed = false
  output_once : s.calls.countP BackendCall.isCreateOutput ≤ 1
  no_finalize : s.calls.countP BackendCall.isFinalize = 0
  no_cleanup : s.calls.countP BackendCall.isCleanup = 0

/-- A source none of whose output has been created. -/
structure Unwritten (s : Source σ) : Prop extends s.Pending where
  no_reader : s.reader = none
  no_output : s.output = .notCreated
  no_create : s.calls.countP BackendCall.isCreateOutput = 0

/-- A source that is closed and was cleaned up last of all. -/
structure TidiedUp (s : Source σ) : Prop where
  closed : s.closed = true
  cleaned_last : ∃ earlier, s.calls = .cleanup :: earlier ∧
    earlier.countP BackendCall.isCleanup = 0 ∧
    earlier.countP BackendCall.isCreateOutput ≤ 1 ∧ earlier.countP BackendCall.isFinalize ≤ 1

/-- No output was ever asked for. -/
def NoOutput (s : Source σ) : Prop :=
  s.calls.countP BackendCall.isCreateOutput = 0 ∧ s.calls.countP BackendCall.isFinalize = 0

theorem Fresh.unwritten {s : Source σ} (h : s.Fresh) : s.Unwritten where
  not_closed := h.not_closed
  output_once := by simp [h.no_calls]
  no_finalize := by simp [h.no_calls]
  no_cleanup := by simp [h.no_calls]
  no_reader := h.no_reader
  no_output := h.no_output
  no_create := by simp [h.no_calls]

theorem countP_called {s : Source σ} {call : BackendCall} (hcall : call.isTransfer = true)
    (store : σ) :
    (s.called call store).calls.countP BackendCall.isCreateOutput =
        s.calls.countP BackendCall.isCreateOutput ∧
      (s.called call store).calls.countP BackendCall.isFinalize =
        s.calls.countP BackendCall.isFinalize ∧
      (s.called call store).calls.countP BackendCall.isCleanup =
        s.calls.countP BackendCall.isCleanup := by
  cases call with
  | openInput | write | flush =>
    simp [Source.called, BackendCall.isCreateOutput, BackendCall.isFinalize, BackendCall.isCleanup]
  | createOutput | finalize | cleanup => cases hcall

theorem Pending.called {s : Source σ} (h : s.Pending) (call : BackendCall)
    (hcall : call.isTransfer = true) (store : σ) : (s.called call store).Pending := by
  obtain ⟨hcreate, hfinalize, hcleanup⟩ := countP_called (s := s) hcall store
  exact ⟨h.not_closed, hcreate ▸ h.output_once, hfinalize ▸ h.no_finalize,
    hcleanup ▸ h.no_cleanup⟩

theorem Unwritten.called {s : Source σ} (h : s.Unwritten) (store : σ) :
    (s.called .openInput store).Unwritten where
  toPending := h.toPending.called .openInput rfl store
  no_reader := h.no_reader
  no_output := h.no_output
  no_create := (countP_called rfl store).1.trans h.no_create

/-! ### Reading -/

theorem Unwritten.startInput {s : Source σ} (h : s.Unwritten) :
    s.startInput.2.releaseInput.Unwritten ∧
      ∀ failure, s.startInput.1 = .error failure → s.startInput.2.Unwritten := by
  unfold Source.startInput
  rw [h.not_closed, h.no_reader]
  simp only [Bool.false_eq_true, if_false, Option.isSome_none]
  split
  · rename_i stream store hopen
    constructor
    · have heq : ({ s.called .openInput store with reader := some stream }).releaseInput =
          s.called .openInput store := by
        simp [releaseInput, Source.called, h.no_reader]
      rw [heq]
      exact h.called store
    · rintro failure ⟨⟩
  · rename_i failure store hopen
    have heq : (s.called .openInput store).releaseInput = s.called .openInput store := by
      simp [releaseInput, Source.called, h.no_reader]
    exact ⟨heq ▸ h.called store, fun _ _ => h.called store⟩

theorem Pending.withStore {s : Source σ} (h : s.Pending) (store : σ) :
    ({ s with store } : Source σ).Pending :=
  ⟨h.not_closed, h.output_once, h.no_finalize, h.no_cleanup⟩

theorem Unwritten.withStore {s : Source σ} (h : s.Unwritten) (store : σ) :
    ({ s with store } : Source σ).Unwritten :=
  ⟨h.toPending.withStore store, h.no_reader, h.no_output, h.no_create⟩

/-- What an attempt to open the input keeps, and giving up the reader keeps, a discovery
keeps. -/
theorem discover_keeps {Inv : Source σ → Prop} {s : Source σ}
    (hreleased : Inv s.startInput.2.releaseInput)
    (hfailed : ∀ failure, s.startInput.1 = .error failure → Inv s.startInput.2) :
    Inv s.discover.2 := by
  unfold Source.discover Source.visitLines visitOwnLines
  generalize s.startInput = started at hreleased hfailed
  obtain ⟨failure | done, opened⟩ := started
  · exact hfailed failure rfl
  · rw [visitStarted_reading]
    generalize UnitLink.visitLines (m := Id) opened.name Declarations.visit 1 opened.unread {}
      = pass
    obtain ⟨failure | done, declarations⟩ := pass
    · exact hreleased
    · exact hreleased

theorem resolve_keeps [CommonStore σ τ] {Inv : Source σ → Prop} {s : Source σ}
    (hreleased : ∀ common : τ,
      Inv { s with store := CommonStore.withCommon common s.store }.startInput.2.releaseInput)
    (hfailed : ∀ (common : τ) failure,
      { s with store := CommonStore.withCommon common s.store }.startInput.1 = .error failure →
        Inv { s with store := CommonStore.withCommon common s.store }.startInput.2)
    (c : ClassUnit) (r : Resolver) (context : ClassName) :
    (s.resolve c r context).Meets Protocol.any fun result => Inv result.2 := by
  unfold Source.resolve
  refine Session.meets_bind_iff.2 (Session.meets_inTurn (fun _ => trivial) fun common => ?_)
  have hreleased := hreleased common
  have hfailed := hfailed common
  generalize ({ s with store := CommonStore.withCommon common s.store } : Source σ).startInput
    = started at hreleased hfailed
  obtain ⟨failure | done, opened⟩ := started
  · exact Session.meets_pure (hfailed failure rfl)
  · rw [visitStarted_reading, bind_assoc]
    refine Session.Meets.bind (Session.meets_any _) ?_
    rintro ⟨stop | done, b⟩ _
    · exact Session.meets_pure hreleased
    · exact Session.meets_pure hreleased

theorem Unwritten.discover {s : Source σ} (h : s.Unwritten) : s.discover.2.Unwritten :=
  discover_keeps h.startInput.1 h.startInput.2

theorem Unwritten.resolve [CommonStore σ τ] {s : Source σ} (h : s.Unwritten) (c : ClassUnit)
    (r : Resolver) (context : ClassName) :
    (s.resolve c r context).Meets Protocol.any fun result => result.2.Unwritten :=
  resolve_keeps (fun common => (h.withStore (CommonStore.withCommon common s.store)).startInput.1)
    (fun common => (h.withStore (CommonStore.withCommon common s.store)).startInput.2) c r context

/-! ### Writing -/

def rewritePass (s : Source σ) (resolution : Resolution) :
    Except Failure Unit × Source σ × LineCursor :=
  s.visitOwnLines (m := Id) (rewriteLine resolution) LineCursor.start

section Keeping

variable (Inv : Source σ → Prop) (hwrite : ∀ s bytes, Inv s → Inv (s.write bytes).2)

include hwrite

theorem writeLines_keeps {s : Source σ} (h : Inv s) (lines : List String) :
    Inv (s.writeLines lines).2 := by
  induction lines generalizing s with
  | nil => exact h
  | cons line lines ih =>
    unfold writeLines
    have hnext := hwrite s (line ++ lineSeparator).toUTF8 h
    split
    · rename_i after hafter
      rw [hafter] at hnext
      exact ih hnext
    · rename_i failure after hafter
      rw [hafter] at hnext
      exact hnext

theorem rewriteLine_keeps {s : Source σ} (h : Inv s) (resolution : Resolution) (line : Line)
    (cursor : LineCursor) : Inv (rewriteLine resolution line (s, cursor)).2.1 := by
  unfold rewriteLine
  cases line.directive with
  | none => exact writeLines_keeps Inv hwrite h _
  | some d =>
    simp only
    split
    · exact h
    · exact writeLines_keeps Inv hwrite h _

/-- What writing keeps, and the reader does not matter to, a rewriting pass keeps. -/
theorem rewritePass_keeps (hrelease : ∀ s, Inv s → Inv s.releaseInput) {s : Source σ}
    (hstart : Inv s.startInput.2) (resolution : Resolution) :
    Inv (s.rewritePass resolution).2.1 := by
  unfold rewritePass visitOwnLines
  generalize s.startInput = started at hstart
  obtain ⟨failure | done, opened⟩ := started
  · exact hstart
  · have hpass := visitLines_spec Judgement.plain opened.name (rewriteLine resolution)
      opened.unread (fun _ state => Inv state.1) (fun (_ : Failure) state => Inv state.1)
      (fun seen text line state _ _ hinv => ?_) (fun _ _ _ _ _ _ hinv => hinv)
      (a := (opened, LineCursor.start)) hstart
    · apply hrelease
      dsimp only [Judgement.plain] at hpass
      split at hpass
      · obtain ⟨_, -, hinv⟩ := hpass
        exact hinv
      · exact hpass
    · have hline := rewriteLine_keeps Inv hwrite hinv resolution line state.2
      dsimp only [Judgement.plain]
      split <;> exact hline

end Keeping

theorem reader_rewritePass {s : Source σ} {resolution : Resolution}
    (h : (s.rewritePass resolution).1 = .ok ()) : (s.rewritePass resolution).2.1.reader = none := by
  unfold rewritePass visitOwnLines at h ⊢
  generalize s.startInput = started at h ⊢
  obtain ⟨failure | done, opened⟩ := started
  · cases h
  · rfl

theorem Pending.write {s : Source σ} (h : s.Pending) (bytes : ByteArray) :
    (s.write bytes).2.Pending := by
  unfold Source.write
  split
  · exact h
  · exact h.called (.write bytes) rfl _

theorem Pending.startInput {s : Source σ} (h : s.Pending) : s.startInput.2.Pending := by
  have hcalled := h.called .openInput rfl (s.backend.openInput s.store).2
  unfold Source.startInput
  split
  · exact h
  · split
    · exact h
    · split
      · rename_i stream store hopen
        rw [hopen] at hcalled
        exact ⟨hcalled.not_closed, hcalled.output_once, hcalled.no_finalize, hcalled.no_cleanup⟩
      · rename_i failure store hopen
        rw [hopen] at hcalled
        exact hcalled

theorem Pending.releaseInput {s : Source σ} (h : s.Pending) : s.releaseInput.Pending :=
  ⟨h.not_closed, h.output_once, h.no_finalize, h.no_cleanup⟩

theorem Pending.releaseOutput {s : Source σ} (h : s.Pending) : s.releaseOutput.Pending :=
  ⟨h.not_closed, h.output_once, h.no_finalize, h.no_cleanup⟩

theorem Pending.rewritePass {s : Source σ} (h : s.Pending) (resolution : Resolution) :
    (s.rewritePass resolution).2.1.Pending :=
  rewritePass_keeps Pending (fun _ bytes h => h.write bytes) (fun _ h => h.releaseInput)
    h.startInput resolution

theorem Pending.finishOutput {s : Source σ} (h : s.Pending) : s.finishOutput.2.Pending := by
  have hflushed := h.called .flush rfl (s.backend.flush s.store).2
  unfold Source.finishOutput
  split
  · rename_i after hafter
    obtain ⟨-, rfl⟩ := Prod.mk.inj hafter
    exact hflushed.releaseOutput
  · rename_i failure after hafter
    obtain ⟨-, rfl⟩ := Prod.mk.inj hafter
    exact hflushed.releaseOutput

theorem finishOutput_ok {s : Source σ} (h : s.finishOutput.1 = .ok ()) :
    s.finishOutput.2.output = .finished ∧ s.finishOutput.2.reader = s.reader := by
  unfold finishOutput at h ⊢
  split
  · rename_i after hafter
    obtain ⟨-, rfl⟩ := Prod.mk.inj hafter
    exact ⟨rfl, rfl⟩
  · rename_i failure after hafter
    rw [hafter] at h
    cases h

theorem Unwritten.rewrite {s : Source σ} (h : s.Unwritten) (resolution : Resolution) :
    (s.rewrite resolution).2.Pending ∧
      ((s.rewrite resolution).1 = .ok () →
        (s.rewrite resolution).2.output = .finished ∧
          (s.rewrite resolution).2.reader = none) := by
  have hcreated : ∀ store output, ({ s.called .createOutput store with output }).Pending := by
    intro store output
    refine ⟨h.not_closed, ?_, ?_, ?_⟩
    · simp [Source.called, h.no_create, List.countP_cons, BackendCall.isCreateOutput]
    · simpa [Source.called, List.countP_cons, BackendCall.isFinalize] using h.no_finalize
    · simpa [Source.called, List.countP_cons, BackendCall.isCleanup] using h.no_cleanup
  unfold Source.rewrite startOutput
  rw [h.not_closed, h.no_output]
  simp only [Bool.false_eq_true, if_false, ne_eq, not_true_eq_false]
  obtain ⟨failure | done, store⟩ := s.backend.createOutput s.store
  · refine ⟨hcreated store .finished, ?_⟩
    rintro ⟨⟩
  · have hpending := (hcreated store .active).rewritePass resolution
    have hreader := @reader_rewritePass _
      { s.called .createOutput store with output := .active } resolution
    simp only
    unfold Source.rewritePass at hpending hreader
    generalize visitOwnLines (m := Id) _ (rewriteLine resolution) LineCursor.start = pass
      at hpending hreader ⊢
    obtain ⟨failure | done, rewritten, cursor⟩ := pass
    · refine ⟨hpending.releaseOutput, ?_⟩
      rintro ⟨⟩
    · refine ⟨hpending.finishOutput, fun hok => ?_⟩
      obtain ⟨houtput, hkept⟩ := finishOutput_ok hok
      exact ⟨houtput, hkept.trans (hreader rfl)⟩

/-! ### Closing -/

theorem Pending.close {s : Source σ} (h : s.Pending) (houtput : s.output = .finished)
    (hreader : s.reader = none) :
    s.close.2.TidiedUp ∧ s.close.2.calls = .cleanup :: .finalize true :: s.calls := by
  have hclosed : s.close.2.closed = true ∧
      s.close.2.calls = .cleanup :: .finalize true :: s.calls := by
    unfold Source.close
    rw [h.not_closed, houtput, hreader]
    simp only [Bool.false_eq_true, if_false, reduceCtorEq, Option.isSome_none, decide_true]
    split <;> exact ⟨rfl, rfl⟩
  refine ⟨⟨hclosed.1, _, hclosed.2, ?_, ?_, ?_⟩, hclosed.2⟩
  · simpa [List.countP_cons, BackendCall.isCleanup] using h.no_cleanup
  · simpa [List.countP_cons, BackendCall.isCreateOutput] using h.output_once
  · simp [List.countP_cons, BackendCall.isFinalize, h.no_finalize]

/-- A pending source that is abandoned is never finalized. -/
theorem Pending.abandon {s : Source σ} (h : s.Pending) :
    s.abandon.TidiedUp ∧ s.abandon.calls = .cleanup :: s.calls := by
  have habandon : s.abandon = ({ s with closed := true }).cleanUp := by
    rw [Source.abandon, h.not_closed]
    rfl
  rw [habandon]
  refine ⟨⟨rfl, s.calls, rfl, h.no_cleanup, h.output_once, ?_⟩, rfl⟩
  rw [h.no_finalize]
  exact Nat.zero_le 1

theorem TidiedUp.abandon {s : Source σ} (h : s.TidiedUp) : s.abandon = s := by
  rw [Source.abandon, h.closed]
  rfl

end Source
end UnitLink
