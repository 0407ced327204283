import UnitLink.Proofs.LifeCycle
import UnitLink.Source.Scripted
/-! Runs of operations on one source, in any order and over a backend that may fail any of its
calls. There are eight things that an operation can do to a source; each of them keeps the
record of the backend calls in step with the state, and so the calls of every run come in the
order of a life cycle. -/
namespace UnitLink

namespace BackendCall

def isWriting : BackendCall → Bool
  | write _ | flush => true
  | _ => false

theorem other_of_isWriting {call : BackendCall} (h : call.isWriting = true) :
    call.isCreateOutput = false ∧ call.isFinalize = false ∧ call.isCleanup = false := by
  cases call with
  | write | flush => exact ⟨rfl, rfl, rfl⟩
  | _ => cases h

theorem mem_cleanup_iff {calls : List BackendCall} :
    .cleanup ∈ calls ↔ 0 < calls.countP isCleanup := by
  rw [List.countP_pos_iff]
  constructor
  · exact fun hcleanup => ⟨_, hcleanup, rfl⟩
  · rintro ⟨call, hcall, hcleanup⟩
    cases call <;> first | exact hcall | cases hcleanup

end BackendCall

namespace Source

variable {σ : Type}

/-- What an operation does to a source, with the backend calls that it makes for it, the latest
first. -/
inductive Move (s : Source σ) : SourceOp → List BackendCall → Source σ → Prop
  | idle (op : SourceOp) : Move s op [] s
  /-- There is a reader afterwards if the backend gives one. -/
  | openInput (reader : Option Stream) (store : σ) : s.closed = false → s.reader = none →
      Move s .startInput [.openInput] { s.called .openInput store with reader }
  | moveReader (op : SourceOp) (reader : Option Stream) : s.reader.isSome →
      Move s op [] { s with reader }
  /-- An output that cannot be created is finished at once. -/
  | createOutput (output : OutputState) (store : σ) : s.closed = false →
      s.output = .notCreated → output ≠ .notCreated →
      Move s .startOutput [.createOutput] { s.called .createOutput store with output }
  | useWriter (op : SourceOp) (call : BackendCall) (output : OutputState) (store : σ) :
      s.output = .active → call.isWriting → output ≠ .notCreated →
      Move s op [call] { s.called call store with output }
  | dropWriter : s.output = .active → Move s .dropOutput [] s.releaseOutput
  | close (produced : Bool) (store cleaned : σ) : s.closed = false → s.reader = none →
      s.output ≠ .active → Move s .close [.cleanup, .finalize produced]
        (({ s.called (.finalize produced) store with closed := true }).called .cleanup cleaned)
  | abandon (cleaned : σ) : s.closed = false →
      Move s .abandon [.cleanup] (({ s with closed := true }).called .cleanup cleaned)

theorem move_startInput (s : Source σ) : ∃ made, s.Move .startInput made s.startInput.2 := by
  unfold startInput
  split
  · exact ⟨[], .idle _⟩
  · rename_i hopen
    split
    · exact ⟨[], .idle _⟩
    · rename_i hreader
      have hclosed : s.closed = false := by simpa using hopen
      have hnone : s.reader = none := by simpa using hreader
      split
      · rename_i stream store _
        exact ⟨_, .openInput (some stream) store hclosed hnone⟩
      · rename_i failure store _
        have hmove := Move.openInput (s := s) none store hclosed hnone
        rw [← hnone] at hmove
        exact ⟨_, hmove⟩

theorem move_readWith (s : Source σ) (op : SourceOp)
    (read : Stream → Except SystemFault (String × Stream)) :
    ∃ made, s.Move op made (s.readWith read).2 := by
  unfold readWith
  split
  · exact ⟨[], .idle op⟩
  · rename_i stream hreader
    split
    · rename_i text rest _
      exact ⟨[], .moveReader op (some rest) (by rw [hreader]; rfl)⟩
    · exact ⟨[], .idle op⟩

theorem move_startOutput (s : Source σ) : ∃ made, s.Move .startOutput made s.startOutput.2 := by
  unfold startOutput
  split
  · exact ⟨[], .idle _⟩
  · rename_i hopen
    split
    · exact ⟨[], .idle _⟩
    · rename_i houtput
      have hclosed : s.closed = false := by simpa using hopen
      have hnew : s.output = .notCreated := by simpa using houtput
      split
      · rename_i store _
        exact ⟨_, .createOutput .active store hclosed hnew (by simp)⟩
      · rename_i failure store _
        exact ⟨_, .createOutput .finished store hclosed hnew (by simp)⟩

theorem move_whileWriting (s : Source σ) (op : SourceOp)
    (act : Source σ → Except Failure Unit × Source σ)
    (h : s.output = .active → ∃ made, s.Move op made (act s).2) :
    ∃ made, s.Move op made (s.whileWriting act).2 := by
  unfold whileWriting
  split
  · rename_i hactive
    exact h hactive
  · exact ⟨[], .idle op⟩

theorem move_write {s : Source σ} (hactive : s.output = .active) (op : SourceOp)
    (bytes : ByteArray) : ∃ made, s.Move op made (s.write bytes).2 := by
  unfold write
  split
  · exact ⟨[], .idle op⟩
  · have hmove := Move.useWriter (s := s) op (.write bytes) s.output
      (s.backend.write bytes s.store).2 hactive rfl (by simp [hactive])
    exact ⟨_, hmove⟩

theorem move_flush {s : Source σ} (hactive : s.output = .active) (op : SourceOp) :
    ∃ made, s.Move op made s.flush.2 := by
  have hmove := Move.useWriter (s := s) op .flush s.output (s.backend.flush s.store).2 hactive
    rfl (by simp [hactive])
  exact ⟨_, hmove⟩

theorem move_finishOutput {s : Source σ} (hactive : s.output = .active) (op : SourceOp) :
    ∃ made, s.Move op made s.finishOutput.2 := by
  have hmove := Move.useWriter (s := s) op .flush .finished (s.backend.flush s.store).2 hactive
    rfl (by simp)
  unfold finishOutput flush
  split <;> rename_i hflush <;> obtain ⟨-, rfl⟩ := Prod.mk.inj hflush <;> exact ⟨_, hmove⟩

/-- What closing comes to where nothing forbids it. Whether the finalization fails makes no
difference to the source. -/
theorem close_eq {s : Source σ} (hopen : s.closed = false) (houtput : s.output ≠ .active)
    (hreader : s.reader = none) :
    s.close = ((s.backend.finalize (s.output = OutputState.finished) s.store).1.mapError
        (Failure.within · (.finalizingOutput s.name)),
      ({ s.called (.finalize (s.output = OutputState.finished))
          (s.backend.finalize (s.output = OutputState.finished) s.store).2 with
        closed := true }).cleanUp) := by
  unfold close
  rw [if_neg (by simp [hopen]), if_neg houtput, if_neg (by simp [hreader])]
  cases hfinalize : s.backend.finalize (s.output = OutputState.finished) s.store with
  | mk outcome store =>
    simp only [hfinalize]
    cases outcome <;> rfl

theorem close_cases (s : Source σ) :
    s.closed = true ∧ s.close = (.ok (), s) ∨
      s.closed = false ∧ (∃ fault, s.close = (.error (s.refuse fault), s)) ∨
      s.closed = false ∧ s.output ≠ .active ∧ s.reader = none := by
  unfold close
  cases s.closed with
  | true => exact .inl ⟨rfl, rfl⟩
  | false =>
    refine .inr ?_
    by_cases houtput : s.output = .active
    · rw [if_neg (by decide), if_pos houtput]
      exact .inl ⟨rfl, _, rfl⟩
    · cases hreader : s.reader with
      | none => exact .inr ⟨rfl, houtput, rfl⟩
      | some stream =>
        rw [if_neg (by decide), if_neg houtput, if_pos Option.isSome_some]
        exact .inl ⟨rfl, _, rfl⟩

theorem move_close (s : Source σ) : ∃ made, s.Move .close made s.close.2 := by
  rcases s.close_cases with ⟨-, hclose⟩ | ⟨-, fault, hclose⟩ | ⟨hopen, houtput, hreader⟩
  · rw [hclose]
    exact ⟨[], .idle _⟩
  · rw [hclose]
    exact ⟨[], .idle _⟩
  · rw [close_eq hopen houtput hreader]
    exact ⟨_, .close _ _ _ hopen hreader houtput⟩

theorem move_abandon (s : Source σ) : ∃ made, s.Move .abandon made s.abandon := by
  unfold abandon
  split
  · exact ⟨[], .idle _⟩
  · rename_i hopen
    exact ⟨_, .abandon (s.backend.cleanup s.store) (by simpa using hopen)⟩

theorem move_apply (s : Source σ) (op : SourceOp) : ∃ made, s.Move op made (s.apply op).2 := by
  cases op with
  | startInput => exact s.move_startInput
  | readLine => exact s.move_readWith _ _
  | readAll => exact s.move_readWith _ _
  | dropInput =>
    show ∃ made, s.Move .dropInput made
      (if s.reader.isSome then (SourceAnswer.done, s.releaseInput)
        else (SourceAnswer.noStream, s)).2
    split
    · rename_i hreader
      exact ⟨[], .moveReader _ none hreader⟩
    · exact ⟨[], .idle _⟩
  | startOutput => exact s.move_startOutput
  | write bytes => exact s.move_whileWriting _ _ fun hactive => move_write hactive _ bytes
  | flush => exact s.move_whileWriting _ _ fun hactive => move_flush hactive _
  | finish => exact s.move_whileWriting _ _ fun hactive => move_finishOutput hactive _
  | dropOutput =>
    exact s.move_whileWriting _ _ fun hactive => ⟨[], .dropWriter hactive⟩
  | close => exact s.move_close
  | abandon => exact s.move_abandon

theorem Move.calls_eq {s after : Source σ} {op : SourceOp} {made : List BackendCall}
    (h : s.Move op made after) : after.calls = made ++ s.calls := by
  cases h <;> rfl

/-! ### The record of the calls -/

/-- The calls on record are those of the state: the output was asked for unless it still can be,
and a source that is closed has been cleaned up, after a finalization if there was any. -/
structure Accounted (s : Source σ) : Prop where
  created : s.calls.countP BackendCall.isCreateOutput = if s.output = .notCreated then 0 else 1
  finalized : s.calls.countP BackendCall.isFinalize ≤ s.closed.toNat
  cleaned : s.calls.countP BackendCall.isCleanup = s.closed.toNat

theorem Fresh.accounted {s : Source σ} (h : s.Fresh) : s.Accounted where
  created := by simp [h.no_calls, h.no_output]
  finalized := by simp [h.no_calls]
  cleaned := by simp [h.no_calls, h.not_closed]

theorem Accounted.closed_iff {s : Source σ} (h : s.Accounted) :
    s.closed = true ↔ .cleanup ∈ s.calls := by
  rw [BackendCall.mem_cleanup_iff, h.cleaned]
  cases s.closed <;> decide

/-- Calls of other kinds make no difference to the record, for as long as the state stays one
that it goes with. -/
theorem Accounted.append {s after : Source σ} (h : s.Accounted) {made : List BackendCall}
    (hcalls : after.calls = made ++ s.calls)
    (hmade : ∀ call ∈ made, call = .openInput ∨ call.isWriting = true)
    (houtput : after.output = .notCreated ↔ s.output = .notCreated)
    (hclosed : after.closed = s.closed) : after.Accounted := by
  have hcount : ∀ p : BackendCall → Bool, (∀ call ∈ made, ¬ p call) →
      after.calls.countP p = s.calls.countP p := by
    intro p hnone
    rw [hcalls, List.countP_append, List.countP_eq_zero.2 hnone, Nat.zero_add]
  have hother : ∀ call ∈ made,
      ¬ call.isCreateOutput ∧ ¬ call.isFinalize ∧ ¬ call.isCleanup := by
    intro call hcall
    rcases hmade call hcall with rfl | hwriting
    · decide
    · simp [BackendCall.other_of_isWriting hwriting]
  refine ⟨?_, ?_, ?_⟩
  · rw [hcount _ fun call hcall => (hother call hcall).1, h.created]
    simp only [houtput]
  · rw [hcount _ fun call hcall => (hother call hcall).2.1, hclosed]
    exact h.finalized
  · rw [hcount _ fun call hcall => (hother call hcall).2.2, hclosed]
    exact h.cleaned

theorem Accounted.move {s after : Source σ} (h : s.Accounted) {op : SourceOp}
    {made : List BackendCall} (hmove : s.Move op made after) : after.Accounted := by
  have hcount : ∀ p, after.calls.countP p = made.countP p + s.calls.countP p := by
    intro p
    rw [hmove.calls_eq, List.countP_append]
  have hcalls := hmove.calls_eq
  have ⟨hcreated, hfinalized, hcleaned⟩ := h
  cases hmove with
  | idle => exact h
  | moveReader => exact h.append hcalls (by simp) Iff.rfl rfl
  | openInput => exact h.append hcalls (by simp) Iff.rfl rfl
  | dropWriter hactive => exact h.append hcalls (by simp) (by simp [releaseOutput, hactive]) rfl
  | useWriter op call output store hactive hcall houtput =>
    exact h.append hcalls (by simpa using .inr hcall) (by simp [hactive, houtput]) rfl
  | createOutput output store hopen hnew houtput =>
    refine ⟨?_, ?_, ?_⟩
    · rw [hcount, hcreated, if_pos hnew, if_neg houtput]
      rfl
    · rw [hcount]
      exact (Nat.zero_add _).trans_le hfinalized
    · rw [hcount, hcleaned]
      exact Nat.zero_add _
  | close produced store cleaned hopen =>
    rw [hopen] at hfinalized hcleaned
    refine ⟨?_, ?_, ?_⟩
    · rw [hcount, hcreated]
      exact Nat.zero_add _
    · rw [hcount]
      exact Nat.add_le_add_left hfinalized 1
    · rw [hcount, hcleaned]
      rfl
  | abandon cleaned hopen =>
    rw [hopen] at hfinalized hcleaned
    refine ⟨?_, ?_, ?_⟩
    · rw [hcount, hcreated]
      exact Nat.zero_add _
    · rw [hcount]
      exact Nat.add_le_add_left (hfinalized.trans (Nat.zero_le 1)) 0
    · rw [hcount, hcleaned]
      rfl

theorem Accounted.run {s : Source σ} (h : s.Accounted) (ops : List SourceOp) :
    (s.run ops).2.Accounted := by
  induction ops generalizing s with
  | nil => exact h
  | cons op ops ih =>
    obtain ⟨made, hmove⟩ := s.move_apply op
    exact ih (h.move hmove)

/-! ### The order of the calls -/

/-- The calls that an operation makes are in order: the input is opened only without a reader,
a source is finalized by `close`, without a reader or a writer, and cleaned up directly after;
it is cleaned up without that only by `abandon`, and later nothing but the writer calls. -/
structure Orderly (before : Source σ) (op : SourceOp) (made : List BackendCall) : Prop where
  opens : .openInput ∈ made → before.reader = none
  finalizes : ∀ produced, .finalize produced ∈ made →
    before.reader = none ∧ before.output ≠ .active ∧ op = .close ∧
      made = [.cleanup, .finalize produced]
  cleans : .cleanup ∈ made → op = .abandon ∨ ∃ produced, made = [.cleanup, .finalize produced]
  afterwards : .cleanup ∈ before.calls → ∀ call ∈ made, call.isWriting = true

theorem Move.orderly {s after : Source σ} (h : s.Accounted) {op : SourceOp}
    {made : List BackendCall} (hmove : s.Move op made after) : s.Orderly op made := by
  have hopened : s.closed = false → .cleanup ∉ s.calls := by
    rw [← h.closed_iff]
    simp
  cases hmove with
  | idle | moveReader | dropWriter => exact ⟨by simp, by simp, by simp, by simp⟩
  | openInput reader store hopen hreader =>
    exact ⟨fun _ => hreader, by simp, by simp, fun hcleanup => absurd hcleanup (hopened hopen)⟩
  | createOutput output store hopen =>
    exact ⟨by simp, by simp, by simp, fun hcleanup => absurd hcleanup (hopened hopen)⟩
  | useWriter op call output store hactive hcall =>
    have hother : ∀ other ∈ [call], other.isWriting = true := by simpa using hcall
    refine ⟨fun hmem => ?_, fun produced hmem => ?_, fun hmem => ?_, fun _ => hother⟩
    · cases hother _ hmem
    · cases hother _ hmem
    · cases hother _ hmem
  | close produced store cleaned hopen hreader houtput =>
    refine ⟨by simp, fun finalized hmem => ?_, fun _ => .inr ⟨_, rfl⟩,
      fun hcleanup => absurd hcleanup (hopened hopen)⟩
    simp only [List.mem_cons, reduceCtorEq, BackendCall.finalize.injEq, List.not_mem_nil,
      or_false, false_or] at hmem
    subst hmem
    exact ⟨hreader, houtput, rfl, rfl⟩
  | abandon cleaned hopen =>
    exact ⟨by simp, by simp, fun _ => .inl rfl, fun hcleanup => absurd hcleanup (hopened hopen)⟩

/-! ### Closed sources -/

theorem refuse_ne_within (s : Source σ) (fault : StreamFault) (failure : Failure)
    (context : Context) : failure.within context ≠ s.refuse fault := by
  intro h
  cases congrArg Failure.context h

theorem startInput_refused_iff (s : Source σ) :
    (s.apply .startInput).1 = .failed (s.refuse .closed) ↔ s.closed = true := by
  show answer s.startInput.1 = _ ↔ _
  unfold startInput
  cases s.closed with
  | true => simp [answer]
  | false =>
    simp only [Bool.false_eq_true, if_false, iff_false]
    split
    · simp [answer, refuse, Failure.ofCause]
    · split
      · simp [answer]
      · simpa [answer] using s.refuse_ne_within .closed _ _

theorem startOutput_refused_iff (s : Source σ) :
    (s.apply .startOutput).1 = .failed (s.refuse .closed) ↔ s.closed = true := by
  show answer s.startOutput.1 = _ ↔ _
  unfold startOutput
  cases s.closed with
  | true => simp [answer]
  | false =>
    simp only [Bool.false_eq_true, if_false, iff_false]
    split
    · simp [answer, refuse, Failure.ofCause]
    · split
      · simp [answer]
      · simpa [answer] using s.refuse_ne_within .closed _ _

/-- Closing does nothing and succeeds only where the source is closed. -/
theorem close_idle_iff (s : Source σ) : s.apply .close = (.done, s) ↔ s.closed = true := by
  constructor
  · intro h
    have hdone : answer s.close.1 = .done := congrArg Prod.fst h
    have hsame : s.close.2 = s := congrArg Prod.snd h
    rcases s.close_cases with ⟨hclosed, -⟩ | ⟨-, fault, hclose⟩ | ⟨hopen, houtput, hreader⟩
    · exact hclosed
    · rw [hclose] at hdone
      cases hdone
    · rw [close_eq hopen houtput hreader] at hsame
      exact (congrArg Source.closed hsame).symm
  · intro hclosed
    simp [apply, close, hclosed, answer]

/-- Whatever is done with a fresh source and however its backend fails, the backend calls keep
to a life cycle: output, finalization and cleanup come once at most, every operation makes its
calls in order, and the source counts as closed from the cleanup on. -/
theorem run_keeps_life_cycle {s : Source σ} (hfresh : s.Fresh) (ops : List SourceOp) :
    let t := (s.run ops).2
    (t.calls.countP BackendCall.isCreateOutput ≤ 1 ∧
      t.calls.countP BackendCall.isFinalize ≤ 1 ∧ t.calls.countP BackendCall.isCleanup ≤ 1) ∧
    (∀ op, ∃ made, (t.apply op).2.calls = made ++ t.calls ∧ t.Orderly op made) ∧
    (t.apply .close = (.done, t) ↔ .cleanup ∈ t.calls) ∧
    ((t.apply .startInput).1 = .failed (t.refuse .closed) ↔ .cleanup ∈ t.calls) ∧
    ((t.apply .startOutput).1 = .failed (t.refuse .closed) ↔ .cleanup ∈ t.calls) := by
  intro t
  have haccounted : t.Accounted := hfresh.accounted.run ops
  refine ⟨⟨?_, ?_, ?_⟩, fun op => ?_, ?_, ?_, ?_⟩
  · rw [haccounted.created]
    split <;> decide
  · exact haccounted.finalized.trans (Bool.toNat_le _)
  · exact haccounted.cleaned.trans_le (Bool.toNat_le _)
  · obtain ⟨made, hmove⟩ := t.move_apply op
    exact ⟨made, hmove.calls_eq, hmove.orderly haccounted⟩
  · rw [close_idle_iff, haccounted.closed_iff]
  · rw [startInput_refused_iff, haccounted.closed_iff]
  · rw [startOutput_refused_iff, haccounted.closed_iff]

def unfinalizable : Source Script := scripted "a.j" ⟨"return\n", fun
  | .finalize _ => some "disk full"
  | _ => none⟩

/-- The cleanup follows the finalization that fails, and what is still live by then is of no
use afterwards. -/
theorem run_keeps_life_cycle_unfinalizable :
    unfinalizable.Fresh ∧
      ((unfinalizable.run [.startOutput, .write "x".toUTF8, .finish, .startInput, .close,
        .dropInput, .close]).2.apply .close).1 = .done ∧
      (unfinalizable.run [.startOutput, .write "x".toUTF8, .finish, .startInput, .close,
        .dropInput, .close]).2.calls.countP BackendCall.isCleanup = 1 := by
  have hfresh : unfinalizable.Fresh := ⟨rfl, rfl, rfl, rfl⟩
  obtain ⟨-, -, hclose, -⟩ := run_keeps_life_cycle hfresh [.startOutput, .write "x".toUTF8,
    .finish, .startInput, .close, .dropInput, .close]
  have hcleaned : (unfinalizable.run [.startOutput, .write "x".toUTF8, .finish, .startInput,
      .close, .dropInput, .close]).2.calls.countP BackendCall.isCleanup = 1 := by
    decide +kernel
  have hmem := BackendCall.mem_cleanup_iff.2 (hcleaned.symm ▸ Nat.one_pos)
  exact ⟨hfresh, congrArg Prod.fst (hclose.2 hmem), hcleaned⟩

end Source
end UnitLink
