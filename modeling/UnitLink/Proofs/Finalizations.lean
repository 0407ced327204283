import UnitLink.Proofs.MemoryOutputs
/-! What a backend is told when its source is finalized. A source does not tell an output that was
created from one that could not be: either can no longer be created. So the backend is told of output
wherever it was asked for one, which is right unless it failed to create it. -/
namespace UnitLink

variable {σ : Type}

namespace Source

/-- The backend is asked for the output if it is wanted now. -/
def AsksForOutput (s : Source σ) : Prop :=
  (s.apply .startOutput).2.calls = .createOutput :: s.calls

/-- In a run of the operations the backend is asked for the output, with this outcome. -/
def Creation (s : Source σ) (ops : List SourceOp) (outcome : Except Failure Unit) : Prop :=
  ∃ earlier later, ops = earlier ++ .startOutput :: later ∧ (s.run earlier).2.AsksForOutput ∧
    ((s.run earlier).2.backend.createOutput (s.run earlier).2.store).1 = outcome

variable {s : Source σ} {op : SourceOp} {ops : List SourceOp}
  {outcome outcome' : Except Failure Unit}

/-! ### Asking for the output -/

theorem startOutput_cases (s : Source σ) :
    ¬(s.closed = false ∧ s.output = .notCreated) ∧ s.startOutput.2 = s ∨
      (s.closed = false ∧ s.output = .notCreated) ∧
        s.startOutput.2.calls = .createOutput :: s.calls ∧
          s.startOutput.2.output ≠ .notCreated := by
  unfold startOutput
  split
  · rename_i hclosed
    exact .inl ⟨fun h => by simp [hclosed] at h, rfl⟩
  split
  · rename_i hspent
    exact .inl ⟨fun h => hspent h.2, rfl⟩
  rename_i hopen hnew
  refine .inr ⟨⟨by simpa using hopen, by simpa using hnew⟩, ?_⟩
  split
  · exact ⟨rfl, by simp⟩
  · exact ⟨rfl, by simp⟩

theorem asksForOutput_iff : s.AsksForOutput ↔ s.closed = false ∧ s.output = .notCreated := by
  show s.startOutput.2.calls = _ ↔ _
  rcases s.startOutput_cases with ⟨hrefused, hsame⟩ | ⟨hfree, hcalls, -⟩
  · rw [hsame]
    exact iff_of_false (List.cons_ne_self _ _).symm hrefused
  · exact iff_of_true hcalls hfree

theorem output_ne_iff_of_move {after : Source σ} {made : List BackendCall}
    (h : s.Move op made after) (hop : op ≠ .startOutput) :
    after.output ≠ .notCreated ↔ s.output ≠ .notCreated := by
  cases h with
  | idle | moveReader | openInput | close | abandon => exact Iff.rfl
  | createOutput => exact absurd rfl hop
  | useWriter op call output store hactive hcall houtput =>
    exact iff_of_true houtput (by simp [hactive])
  | dropWriter hactive => exact iff_of_true (by simp [releaseOutput]) (by simp [hactive])

theorem output_apply_ne_iff (s : Source σ) (op : SourceOp) :
    (s.apply op).2.output ≠ .notCreated ↔
      s.output ≠ .notCreated ∨ op = .startOutput ∧ s.AsksForOutput := by
  by_cases hop : op = .startOutput
  · subst hop
    rw [asksForOutput_iff]
    show s.startOutput.2.output ≠ _ ↔ _
    rcases s.startOutput_cases with ⟨hrefused, hsame⟩ | ⟨hfree, -, hspent⟩
    · rw [hsame]
      simp [hrefused]
    · exact iff_of_true hspent (.inr ⟨rfl, hfree⟩)
  · obtain ⟨made, hmove⟩ := s.move_apply op
    simp [output_ne_iff_of_move hmove hop, hop]

/-! ### Creations -/

theorem not_creation_nil : ¬s.Creation [] outcome := by
  rintro ⟨earlier, later, hops, -⟩
  simp at hops

theorem creation_cons_iff :
    s.Creation (op :: ops) outcome ↔
      (op = .startOutput ∧ s.AsksForOutput ∧ (s.backend.createOutput s.store).1 = outcome) ∨
        (s.apply op).2.Creation ops outcome := by
  constructor
  · rintro ⟨earlier, later, hops, hcreation⟩
    cases earlier with
    | nil =>
      obtain ⟨rfl, -⟩ := List.cons.inj hops
      exact .inl ⟨rfl, hcreation⟩
    | cons first earlier =>
      obtain ⟨rfl, rfl⟩ := List.cons.inj hops
      exact .inr ⟨earlier, later, rfl, hcreation⟩
  · rintro (⟨rfl, hcreation⟩ | ⟨earlier, later, rfl, hcreation⟩)
    · exact ⟨[], ops, rfl, hcreation⟩
    · exact ⟨op :: earlier, later, rfl, hcreation⟩

/-- The output is used up where a creation was tried. -/
theorem output_run_ne_iff (s : Source σ) (ops : List SourceOp) :
    (s.run ops).2.output ≠ .notCreated ↔
      s.output ≠ .notCreated ∨ ∃ outcome, s.Creation ops outcome := by
  induction ops generalizing s with
  | nil => simp [run, not_creation_nil]
  | cons op ops ih =>
    refine (ih (s.apply op).2).trans ?_
    rw [output_apply_ne_iff, or_assoc]
    simp only [creation_cons_iff, exists_or]
    refine or_congr_right (or_congr_left ?_)
    simp

theorem not_creation_of_output_ne (h : s.output ≠ .notCreated) : ¬s.Creation ops outcome := by
  rintro ⟨earlier, later, -, hasks, -⟩
  exact (output_run_ne_iff s earlier).2 (.inl h) (asksForOutput_iff.1 hasks).2

theorem Creation.unique (h : s.Creation ops outcome) (h' : s.Creation ops outcome') :
    outcome = outcome' := by
  induction ops generalizing s with
  | nil => exact absurd h not_creation_nil
  | cons op ops ih =>
    have hlater : op = .startOutput ∧ s.AsksForOutput →
        ∀ outcome, ¬(s.apply op).2.Creation ops outcome := fun hfirst outcome =>
      not_creation_of_output_ne ((output_apply_ne_iff s op).2 (.inr hfirst))
    rw [creation_cons_iff] at h h'
    rcases h with ⟨hop, hasks, rfl⟩ | h
    · rcases h' with ⟨-, -, rfl⟩ | h'
      · rfl
      · exact absurd h' (hlater ⟨hop, hasks⟩ _)
    · rcases h' with ⟨hop, hasks, -⟩ | h'
      · exact absurd h (hlater ⟨hop, hasks⟩ _)
      · exact ih h h'

/-! ### Finalizations -/

/-- A finalization is made by a close, which tells whether the output is used up. -/
theorem Accounted.produced_iff (h : s.Accounted) {made : List BackendCall} {produced : Bool}
    (hcalls : (s.apply op).2.calls = made ++ s.calls) (hmem : .finalize produced ∈ made) :
    op = .close ∧ (produced = true ↔ s.output ≠ .notCreated) := by
  obtain ⟨made', hmove⟩ := s.move_apply op
  obtain rfl : made' = made := List.append_cancel_right (hmove.calls_eq.symm.trans hcalls)
  obtain ⟨-, hactive, rfl, rfl⟩ := (hmove.orderly h).finalizes produced hmem
  have hready := finalizes_iff.1 ⟨produced, hcalls⟩
  change s.close.2.calls = _ at hcalls
  rw [close_eq hready.1 hready.2.1 hready.2.2] at hcalls
  obtain rfl : decide (s.output = .finished) = produced :=
    BackendCall.finalize.inj (List.cons.inj (List.cons.inj hcalls).2).1
  refine ⟨rfl, ?_⟩
  cases hstate : s.output with
  | notCreated => decide
  | active => exact absurd hstate hactive
  | finished => decide

/-- Whatever is done with a fresh source and whatever its backend does: the source is asked to
create its output once at most. It is finalized by a close, and its backend is told that there is
output if it was asked to create it, and otherwise that there is none. This is the truth just if
creating it did not fail. -/
theorem finalizations_tell_of_creations (hfresh : s.Fresh) (ops : List SourceOp) :
    let t := (s.run ops).2
    (t.Finalizes ↔ t.closed = false ∧ t.output ≠ .active ∧ t.reader = none) ∧
    (∀ outcome outcome', s.Creation ops outcome → s.Creation ops outcome' → outcome = outcome') ∧
    ∀ op made produced, (t.apply op).2.calls = made ++ t.calls → .finalize produced ∈ made →
      op = .close ∧ (produced = true ↔ ∃ outcome, s.Creation ops outcome) ∧
        ((produced = true ↔ s.Creation ops (.ok ())) ↔
          ∀ failure, ¬s.Creation ops (.error failure)) := by
  intro t
  refine ⟨finalizes_iff, fun _ _ => Creation.unique, fun op made produced hcalls hmem => ?_⟩
  obtain ⟨hop, hproduced⟩ := (hfresh.accounted.run ops).produced_iff hcalls hmem
  have htried : produced = true ↔ ∃ outcome, s.Creation ops outcome := by
    rw [hproduced, output_run_ne_iff]
    exact or_iff_right fun hspent => hspent hfresh.no_output
  refine ⟨hop, htried, fun htruth failure hfailed => ?_, fun hnone => ?_⟩
  · cases hfailed.unique (htruth.1 (htried.2 ⟨_, hfailed⟩))
  · rw [htried]
    refine ⟨?_, fun hcreated => ⟨_, hcreated⟩⟩
    rintro ⟨failure | done, hcreation⟩
    · exact absurd hcreation (hnone failure)
    · exact hcreation

/-- A second request is refused, which takes nothing back. -/
theorem finalizations_tell_of_creations_again :
    let s := inMemory "A.j" "nop"
    let ops : List SourceOp := [.startOutput, .dropOutput, .startOutput]
    s.Fresh ∧ ((s.run ops).2.apply .close).2.calls =
      [.cleanup, .finalize true] ++ (s.run ops).2.calls ∧ s.Creation ops (.ok ()) := by
  intro s ops
  have hfresh : s.Fresh := ⟨rfl, rfl, rfl, rfl⟩
  have hcalls : ((s.run ops).2.apply .close).2.calls =
      [.cleanup, .finalize true] ++ (s.run ops).2.calls := rfl
  obtain ⟨-, -, htold⟩ := finalizations_tell_of_creations hfresh ops
  obtain ⟨outcome, hcreation⟩ :=
    (htold .close _ true hcalls (by simp)).2.1.1 rfl
  have hdone : outcome = .ok () := hcreation.unique ⟨[], _, rfl, rfl, rfl⟩
  exact ⟨hfresh, hcalls, hdone ▸ hcreation⟩

/-- A source whose output cannot be created. -/
def uncreatable : Source Script := scripted "a.j" ⟨"", fun
  | .createOutput => some "disk full"
  | _ => none⟩

/-- Its backend is told of output all the same. -/
theorem told_of_output_that_was_not_created :
    uncreatable.Fresh ∧ ¬uncreatable.Creation [.startOutput] (.ok ()) ∧
      ((uncreatable.run [.startOutput]).2.apply .close).2.calls =
        [.cleanup, .finalize true, .createOutput] := by
  refine ⟨⟨rfl, rfl, rfl, rfl⟩, fun hcreated => ?_, rfl⟩
  have hfailed : uncreatable.Creation [.startOutput]
      (uncreatable.backend.createOutput uncreatable.store).1 := ⟨[], [], rfl, rfl, rfl⟩
  cases hcreated.unique hfailed

end Source
end UnitLink
