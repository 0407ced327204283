import Mathlib.Data.List.Infix
import Mathlib.Data.List.Nodup
import UnitLink.Workers
/-! What becomes of the faults of a pool. A fault is queued in the very step in which its task
crashes, before the task stops counting as in flight and long before its handle is given up.
So a handle without a result always comes after its fault, a shutdown that waited for all
tasks leaves no fault behind, and one that did not wait gives up only what crashes later. -/
namespace UnitLink

variable {α : Type}

/-- A task as it was submitted: its label and how it ends. -/
def WorkerTask.submission (t : WorkerTask α) : String × Option (Ending α) := (t.label, t.ending)

/-- The fault that a task leaves behind when it ends. -/
def taskFault? (tasks : List (String × Option (Ending α))) (i : Nat) : Option String :=
  match tasks[i]? with
  | some (label, some ending) => ending.fault? label
  | _ => none

namespace WorkerPool

/-- The worker is through with what the task does; the result is sent or the fault queued. -/
def HasEnded (p : WorkerPool α) (i : Nat) : Prop :=
  ∃ t, p.tasks[i]? = some t ∧ t.stage ≠ .running

/-- The worker is through with the task itself too, and has dropped all it had of it. -/
def IsGone (p : WorkerPool α) (i : Nat) : Prop := ∃ t, p.tasks[i]? = some t ∧ t.stage = .gone

/-! ### What a step can do -/

/-- The pools that a step may lead to. Only an end queues anything, only a shutdown that
is draining takes anything from the queue, and it is over only when it finds nothing. -/
inductive StepsTo (p : WorkerPool α) : PoolMove → WorkerPool α → Prop where
  | idle (move : PoolMove) : StepsTo p move p
  | ended (i : Nat) (label : String) (ending : Ending α)
      (task : p.tasks[i]? = some { label, ending := some ending, stage := .running }) :
      StepsTo p (.endTask i)
        { p.advance i .running .ended with
          queued := p.queued ++ (ending.fault? label).toList }
  | movedOn (move : PoolMove) (i : Nat) (old new : TaskStage) (ended : old ≠ .running)
      (still : new ≠ .running) : StepsTo p move (p.advance i old new)
  | began (notBegun : p.shutdown = .notBegun) :
      StepsTo p .beginShutdown { p with shutdown := .waiting }
  | waited (waiting : p.shutdown = .waiting) (landed : ¬p.tasks.any inFlight) :
      StepsTo p .allLanded { p with shutdown := .draining }
  | gaveUp (waiting : p.shutdown = .waiting) :
      StepsTo p .expire { p with shutdown := .draining, timedOut := true }
  | took (fault : String) (rest : List String) (draining : p.shutdown = .draining)
      (queued : p.queued = fault :: rest) :
      StepsTo p .collect { p with queued := rest, collected := p.collected ++ [fault] }
  | finished (draining : p.shutdown = .draining) (empty : p.queued = []) :
      StepsTo p .endShutdown { p with shutdown := .over }

theorem stepsTo_step (p : WorkerPool α) (move : PoolMove) : StepsTo p move (p.step move) := by
  cases move with
  | endTask i =>
    simp only [step, endTask]
    split
    · rename_i label ending htask
      exact .ended i label ending htask
    · exact .idle _
  | land i => exact .movedOn _ i _ _ (by decide) (by decide)
  | hangUp i => exact .movedOn _ i _ _ (by decide) (by decide)
  | beginShutdown =>
    simp only [step]
    split
    · rename_i h
      exact .began h
    · exact .idle _
  | allLanded =>
    simp only [step]
    split
    · rename_i h
      exact .waited h.1 h.2
    · exact .idle _
  | expire =>
    simp only [step]
    split
    · rename_i h
      exact .gaveUp h.1
    · exact .idle _
  | collect =>
    simp only [step]
    split
    · rename_i fault rest hdraining hqueued
      exact .took fault rest hdraining hqueued
    · exact .idle _
  | endShutdown =>
    simp only [step]
    split
    · rename_i h
      exact .finished h.1 h.2
    · exact .idle _

theorem advance_task (p : WorkerPool α) (i k : Nat) (old new : TaskStage) :
    (p.advance i old new).tasks[k]? = p.tasks[k]?.map fun t =>
      if i = k ∧ t.stage = old then { t with stage := new } else t := by
  unfold advance
  rw [List.getElem?_modify]
  by_cases hk : i = k
  · simp [hk]
  · simp [hk]

theorem advance_submissions (p : WorkerPool α) (i : Nat) (old new : TaskStage) :
    (p.advance i old new).tasks.map WorkerTask.submission = p.tasks.map WorkerTask.submission := by
  apply List.ext_getElem?
  intro k
  rw [List.getElem?_map, advance_task, List.getElem?_map, Option.map_map]
  congr 1
  funext t
  simp only [Function.comp_apply]
  split <;> rfl

theorem advance_hasEnded {p : WorkerPool α} {i : Nat} {old new : TaskStage}
    (hold : old ≠ .running) (hnew : new ≠ .running) (k : Nat) :
    (p.advance i old new).HasEnded k ↔ p.HasEnded k := by
  unfold HasEnded
  rw [advance_task]
  cases p.tasks[k]? with
  | none => simp
  | some t =>
    simp only [Option.map_some, Option.some.injEq, exists_eq_left']
    split
    · rename_i h
      simp [hnew, h.2, hold]
    · rfl

theorem ended_hasEnded {p : WorkerPool α} {i : Nat} {t : WorkerTask α}
    (htask : p.tasks[i]? = some t) (hrunning : t.stage = .running) (k : Nat) :
    (p.advance i .running .ended).HasEnded k ↔ k = i ∨ p.HasEnded k := by
  unfold HasEnded
  rw [advance_task]
  by_cases hk : k = i
  · subst hk
    simp [htask, hrunning]
  · simp [Ne.symm hk, hk]

/-! ### What every run keeps -/

/-- A pool of the given tasks, of which those in `order` have ended, in that order. -/
structure Accounts (tasks : List (String × Option (Ending α))) (p : WorkerPool α)
    (order : List Nat) : Prop where
  submitted : p.tasks.map WorkerTask.submission = tasks
  nodup : order.Nodup
  hasEnded : ∀ i, i ∈ order ↔ p.HasEnded i
  /-- No task ends that never ends. -/
  ending : ∀ (i : Nat) (t : WorkerTask α), p.tasks[i]? = some t → t.stage ≠ .running →
    ∃ ending, t.ending = some ending
  faults : p.collected ++ p.queued = order.filterMap (taskFault? tasks)
  /-- A shutdown that has got beyond waiting and has not given up has seen every task end. -/
  waited : p.shutdown = .draining ∨ p.shutdown = .over → p.timedOut = false →
    ∀ i < tasks.length, p.HasEnded i

variable {tasks : List (String × Option (Ending α))} {p q : WorkerPool α} {order : List Nat}

theorem Accounts.submission_of_task (h : Accounts tasks p order) {i : Nat} {t : WorkerTask α}
    (htask : p.tasks[i]? = some t) : tasks[i]? = some t.submission := by
  rw [← h.submitted, List.getElem?_map, htask]
  rfl

theorem accounts_submit (tasks : List (String × Option (Ending α))) :
    Accounts tasks (submit tasks) [] where
  submitted := by
    simp only [submit, List.map_map]
    exact List.map_id tasks
  nodup := List.nodup_nil
  hasEnded i := by
    simp only [List.not_mem_nil, false_iff, HasEnded, submit, List.getElem?_map]
    rintro ⟨t, htask, hstage⟩
    obtain ⟨submission, -, rfl⟩ := Option.map_eq_some_iff.mp htask
    exact hstage rfl
  ending i t htask hstage := by
    simp only [submit, List.getElem?_map] at htask
    obtain ⟨submission, -, rfl⟩ := Option.map_eq_some_iff.mp htask
    exact absurd rfl hstage
  faults := rfl
  waited := by
    rintro (h | h) <;> cases h

theorem Accounts.of_same (h : Accounts tasks p order) (htasks : q.tasks = p.tasks)
    (hfaults : q.collected ++ q.queued = p.collected ++ p.queued)
    (hwaited : q.shutdown = .draining ∨ q.shutdown = .over → q.timedOut = false →
      ∀ i < tasks.length, p.HasEnded i) : Accounts tasks q order where
  submitted := htasks ▸ h.submitted
  nodup := h.nodup
  hasEnded i := by
    unfold HasEnded
    rw [htasks]
    exact h.hasEnded i
  ending i t htask := h.ending i t (htasks ▸ htask)
  faults := hfaults.trans h.faults
  waited hover htime i hi := by
    unfold HasEnded
    rw [htasks]
    exact hwaited hover htime i hi

theorem Accounts.movedOn (h : Accounts tasks p order) {old new : TaskStage} (i : Nat)
    (hold : old ≠ .running) (hnew : new ≠ .running) :
    Accounts tasks (p.advance i old new) order where
  submitted := (advance_submissions p i old new).trans h.submitted
  nodup := h.nodup
  hasEnded k := (h.hasEnded k).trans (advance_hasEnded hold hnew k).symm
  ending k t htask hstage := by
    rw [advance_task] at htask
    obtain ⟨before, hbefore, rfl⟩ := Option.map_eq_some_iff.mp htask
    split at hstage
    · rename_i hmoved
      rw [if_pos hmoved]
      exact h.ending k before hbefore (hmoved.2 ▸ hold)
    · rename_i hstayed
      rw [if_neg hstayed]
      exact h.ending k before hbefore hstage
  faults := h.faults
  waited hover htime k hk := (advance_hasEnded hold hnew k).mpr (h.waited hover htime k hk)

theorem Accounts.ended (h : Accounts tasks p order) {i : Nat} {label : String}
    {ending : Ending α}
    (htask : p.tasks[i]? = some { label, ending := some ending, stage := .running }) :
    Accounts tasks
      { p.advance i .running .ended with queued := p.queued ++ (ending.fault? label).toList }
      (order ++ [i]) where
  submitted := (advance_submissions p i _ _).trans h.submitted
  nodup := by
    have hnot : i ∉ order := by
      rw [h.hasEnded]
      rintro ⟨t, ht, hstage⟩
      cases htask.symm.trans ht
      exact hstage rfl
    exact List.nodup_append.mpr ⟨h.nodup, List.nodup_singleton i, by
      rintro k hk _ hi rfl
      exact hnot (List.mem_singleton.mp hi ▸ hk)⟩
  hasEnded k := by
    rw [List.mem_append, List.mem_singleton, h.hasEnded, or_comm]
    exact (ended_hasEnded htask rfl k).symm
  ending k t ht hstage := by
    rw [advance_task] at ht
    obtain ⟨before, hbefore, rfl⟩ := Option.map_eq_some_iff.mp ht
    split at hstage
    · rename_i hmoved
      obtain ⟨rfl, -⟩ := hmoved
      cases htask.symm.trans hbefore
      exact ⟨ending, by simp⟩
    · rename_i hstayed
      rw [if_neg hstayed]
      exact h.ending k before hbefore hstage
  faults := by
    have hfault : taskFault? tasks i = ending.fault? label := by
      unfold taskFault?
      rw [h.submission_of_task htask]
      rfl
    have hone : [i].filterMap (taskFault? tasks) = (ending.fault? label).toList := by
      rw [List.filterMap_cons, hfault]
      cases ending.fault? label <;> rfl
    simp only [advance]
    rw [← List.append_assoc, h.faults, List.filterMap_append, hone]
  waited hover htime k hk :=
    (ended_hasEnded htask rfl k).mpr (.inr (h.waited hover htime k hk))

/-- A step keeps the accounts; the one task that it may end comes last. -/
theorem Accounts.step (h : Accounts tasks p order) (move : PoolMove) :
    ∃ more, Accounts tasks (p.step move) (order ++ more) := by
  have hsteps := stepsTo_step p move
  generalize p.step move = q at hsteps ⊢
  have none_ended (hq : Accounts tasks q order) : ∃ more, Accounts tasks q (order ++ more) :=
    ⟨[], by simpa using hq⟩
  cases hsteps with
  | idle => exact none_ended h
  | ended i label ending htask => exact ⟨[i], h.ended htask⟩
  | movedOn _ i old new hold hnew => exact none_ended (h.movedOn i hold hnew)
  | began => exact none_ended (h.of_same rfl rfl (by rintro (h | h) <;> cases h))
  | waited _ hlanded =>
    refine none_ended (h.of_same rfl rfl fun _ _ i hi => ?_)
    have hi : i < p.tasks.length := by
      rw [← h.submitted, List.length_map] at hi
      exact hi
    refine ⟨p.tasks[i], List.getElem?_eq_getElem hi, fun hstage => hlanded ?_⟩
    exact List.any_eq_true.mpr ⟨p.tasks[i], List.getElem_mem hi, by simp [inFlight, hstage]⟩
  | gaveUp => exact none_ended (h.of_same rfl rfl (by rintro - ⟨⟩))
  | took fault rest _ hqueued => exact none_ended (h.of_same rfl (by simp [hqueued]) h.waited)
  | finished hdraining =>
    exact none_ended (h.of_same rfl rfl fun _ => h.waited (.inl hdraining))

theorem Accounts.run (h : Accounts tasks p order) (moves : List PoolMove) :
    ∃ more, Accounts tasks (p.run moves) (order ++ more) := by
  induction moves generalizing p order with
  | nil => exact ⟨[], by simpa [WorkerPool.run] using h⟩
  | cons move moves ih =>
    obtain ⟨first, hfirst⟩ := h.step move
    obtain ⟨more, hmore⟩ := ih hfirst
    exact ⟨first ++ more, by simpa [WorkerPool.run] using hmore⟩

/-! ### Handles -/

/-- A handle gives the outcome of its own task and no other, if anything. -/
theorem Accounts.join_eq {ε : Type} (h : Accounts tasks p order) (noResult : String → ε) {i : Nat}
    {outcome : Except ε α} (hjoin : p.join? noResult i = some outcome) :
    p.HasEnded i ∧ ∃ label e, tasks[i]? = some (label, some e) ∧
      outcome = e.joined (noResult label) := by
  unfold join? at hjoin
  split at hjoin
  · rename_i label ending stage htask
    have hsubmitted := h.submission_of_task htask
    split at hjoin
    · cases hjoin
    · rename_i value _ hstage
      cases hjoin
      exact ⟨⟨_, htask, hstage⟩, label, _, hsubmitted, rfl⟩
    · cases hjoin
      exact ⟨⟨_, htask, by simp⟩, label, _, hsubmitted, rfl⟩
    · cases hjoin
  · cases hjoin

theorem Accounts.joins_of_gone {ε : Type} (h : Accounts tasks p order) (noResult : String → ε)
    {i : Nat} (hgone : p.IsGone i) : ∃ outcome, p.join? noResult i = some outcome := by
  obtain ⟨⟨label, ending, stage⟩, htask, rfl⟩ := hgone
  obtain ⟨ending, rfl⟩ := h.ending i _ htask (by simp)
  unfold join?
  rw [htask]
  cases ending with
  | returned value => exact ⟨_, rfl⟩
  | crashed message => exact ⟨_, rfl⟩

theorem Accounts.joins_of_returned {ε : Type} (h : Accounts tasks p order)
    (noResult : String → ε) {i : Nat} {label : String} {value : α}
    (htask : tasks[i]? = some (label, some (.returned value))) (hended : p.HasEnded i) :
    p.join? noResult i = some (.ok value) := by
  obtain ⟨⟨label', ending, stage⟩, htask', hstage⟩ := hended
  obtain ⟨rfl, rfl⟩ : label = label' ∧ some (.returned value) = ending := by
    simpa [WorkerTask.submission] using htask.symm.trans (h.submission_of_task htask')
  unfold join?
  rw [htask']
  cases stage with
  | running => exact absurd rfl hstage
  | ended | landed | gone => rfl

/-! ### Shutting down -/

theorem run_append (p : WorkerPool α) (earlier later : List PoolMove) :
    p.run (earlier ++ later) = (p.run earlier).run later := List.foldl_append

theorem step_over {p : WorkerPool α} (h : p.shutdown = .over) (move : PoolMove) :
    (p.step move).shutdown = .over ∧ (p.step move).collected = p.collected ∧
      (p.step move).timedOut = p.timedOut := by
  have hsteps := stepsTo_step p move
  generalize p.step move = q at hsteps ⊢
  cases hsteps with
  | idle | ended | movedOn => exact ⟨h, rfl, rfl⟩
  | began hstage | waited hstage | gaveUp hstage | took _ _ hstage | finished hstage =>
    rw [h] at hstage
    cases hstage

theorem run_over {p : WorkerPool α} (h : p.shutdown = .over) (moves : List PoolMove) :
    (p.run moves).shutdown = .over ∧ (p.run moves).collected = p.collected ∧
      (p.run moves).timedOut = p.timedOut := by
  induction moves generalizing p with
  | nil => exact ⟨h, rfl, rfl⟩
  | cons move moves ih =>
    obtain ⟨hover, hcollected, htime⟩ := step_over h move
    obtain ⟨hover', hcollected', htime'⟩ := ih hover
    exact ⟨hover', hcollected'.trans hcollected, htime'.trans htime⟩

/-- The end of a shutdown that is over: it was draining, and found the queue empty. -/
theorem exists_end_of_over {p : WorkerPool α} (hbefore : p.shutdown ≠ .over)
    {moves : List PoolMove} (hover : (p.run moves).shutdown = .over) :
    ∃ earlier later, moves = earlier ++ .endShutdown :: later ∧
      (p.run earlier).shutdown = .draining ∧ (p.run earlier).queued = [] := by
  induction moves generalizing p with
  | nil => exact absurd hover hbefore
  | cons move moves ih =>
    by_cases hnext : (p.step move).shutdown = .over
    · have hsteps := stepsTo_step p move
      generalize p.step move = q at hsteps hnext
      cases hsteps with
      | idle | ended | movedOn => exact absurd hnext hbefore
      | began | waited | gaveUp => cases hnext
      | took _ _ hdraining => cases hdraining.symm.trans hnext
      | finished hdraining hempty => exact ⟨[], moves, rfl, hdraining, hempty⟩
    · obtain ⟨earlier, later, rfl, hdraining, hempty⟩ := ih hnext hover
      exact ⟨move :: earlier, later, rfl, hdraining, hempty⟩

theorem prefix_of_end {p : WorkerPool α} {earlier later before rest : List PoolMove}
    (hsplit : earlier ++ .endShutdown :: later = before ++ rest)
    (hdraining : (p.run earlier).shutdown = .draining) (hempty : (p.run earlier).queued = [])
    (hbefore : (p.run before).shutdown ≠ .over) : ∃ between, earlier = before ++ between := by
  rcases List.append_eq_append_iff.mp hsplit with ⟨between, hbetween, hrest⟩ | ⟨between, h, -⟩
  · cases between with
    | nil => exact ⟨[], by simpa using hbetween.symm⟩
    | cons move between =>
      obtain ⟨rfl, rfl⟩ := List.cons.inj hrest
      refine absurd ?_ hbefore
      rw [hbetween, run_append]
      have hstep : ((p.run earlier).step .endShutdown).shutdown = .over := by
        simp [WorkerPool.step, hdraining, hempty]
      exact (run_over hstep between).1
  · exact ⟨between, h⟩

theorem run_hasEnded (tasks : List (String × Option (Ending α))) {before between : List PoolMove}
    {i : Nat} (h : ((submit tasks).run before).HasEnded i) :
    ((submit tasks).run (before ++ between)).HasEnded i := by
  obtain ⟨order, horder⟩ := (accounts_submit tasks).run before
  obtain ⟨more, hmore⟩ := horder.run between
  rw [run_append]
  exact (hmore.hasEnded i).mp (List.mem_append_left _ ((horder.hasEnded i).mpr h))

/-- The faults are those of the tasks that have ended in the pool: one for each that crashed
and none for any other. -/
def FaultsOf (tasks : List (String × Option (Ending α))) (p : WorkerPool α)
    (faults : List String) : Prop :=
  ∃ order : List Nat, order.Nodup ∧ (∀ i, i ∈ order ↔ p.HasEnded i) ∧
    faults = order.filterMap (taskFault? tasks)

theorem FaultsOf.mem {faults : List String} (h : FaultsOf tasks p faults) {i : Nat}
    {fault : String} (hfault : taskFault? tasks i = some fault) (hended : p.HasEnded i) :
    fault ∈ faults := by
  obtain ⟨order, -, hmem, rfl⟩ := h
  exact List.mem_filterMap.mpr ⟨i, (hmem i).mpr hended, hfault⟩

theorem lt_of_taskFault? {i : Nat} {fault : String} (h : taskFault? tasks i = some fault) :
    i < tasks.length := by
  unfold taskFault? at h
  split at h
  · rename_i htask
    exact (List.getElem?_eq_some_iff.mp htask).1
  · cases h

/-- The faults that a shutdown has collected when it is over. -/
theorem faultsOf_collected (tasks : List (String × Option (Ending α))) {earlier : List PoolMove}
    (later : List PoolMove) (hdraining : ((submit tasks).run earlier).shutdown = .draining)
    (hempty : ((submit tasks).run earlier).queued = []) :
    FaultsOf tasks ((submit tasks).run earlier)
        ((submit tasks).run (earlier ++ .endShutdown :: later)).collected ∧
      (((submit tasks).run (earlier ++ .endShutdown :: later)).timedOut = false →
        ∀ i < tasks.length, ((submit tasks).run earlier).HasEnded i) := by
  obtain ⟨order, horder⟩ := (accounts_submit tasks).run earlier
  rw [List.nil_append] at horder
  have hend : ((submit tasks).run earlier).step .endShutdown =
      { (submit tasks).run earlier with shutdown := .over } := by
    simp [WorkerPool.step, hdraining, hempty]
  have hrun : (submit tasks).run (earlier ++ .endShutdown :: later) =
      run { (submit tasks).run earlier with shutdown := .over } later := by
    rw [run_append, ← hend]
    rfl
  obtain ⟨-, hcollected, htime⟩ :=
    run_over (p := { (submit tasks).run earlier with shutdown := .over }) rfl later
  rw [hrun, hcollected, htime]
  refine ⟨⟨order, horder.nodup, horder.hasEnded, ?_⟩, horder.waited (.inl hdraining)⟩
  simpa [hempty] using horder.faults

/-- Whatever moves are made: joining gives the outcome of the task itself, and gives it once
there is one to give or its worker is through with the task; the fault of a task that can be
joined is queued or collected by then; and a shutdown that is over has collected one fault
for each crashed task that ended before its draining did, so for each that could be joined
before that, and for every crashed task unless it gave up waiting. -/
theorem joins_and_faults_accounted {ε : Type} (noResult : String → ε)
    (tasks : List (String × Option (Ending α))) (moves : List PoolMove) :
    let p := (submit tasks).run moves
    (∀ i label ending, tasks[i]? = some (label, ending) →
      (∀ outcome, p.join? noResult i = some outcome →
        ∃ e, ending = some e ∧ outcome = e.joined (noResult label)) ∧
      (∀ value, ending = some (.returned value) → p.HasEnded i →
        p.join? noResult i = some (.ok value)) ∧
      (p.IsGone i → ∃ outcome, p.join? noResult i = some outcome)) ∧
    FaultsOf tasks p (p.collected ++ p.queued) ∧
    (∀ i outcome, p.join? noResult i = some outcome → p.HasEnded i) ∧
    (p.shutdown = .over →
      ∃ earlier later, moves = earlier ++ .endShutdown :: later ∧
        ((submit tasks).run earlier).shutdown = .draining ∧
        FaultsOf tasks ((submit tasks).run earlier) p.collected ∧
        (∀ before rest, moves = before ++ rest → ((submit tasks).run before).shutdown ≠ .over →
          ∀ i fault outcome, ((submit tasks).run before).join? noResult i = some outcome →
            taskFault? tasks i = some fault → fault ∈ p.collected) ∧
        (p.timedOut = false →
          (∀ i < tasks.length, ((submit tasks).run earlier).HasEnded i) ∧
          ∀ i fault, taskFault? tasks i = some fault → fault ∈ p.collected)) := by
  intro p
  -- the accounts of a pool list its ended tasks in the order in which they ended
  obtain ⟨order, horder⟩ := (accounts_submit tasks).run moves
  rw [List.nil_append] at horder
  have hjoined (before : List PoolMove) (i : Nat) (outcome : Except ε α)
      (hjoin : ((submit tasks).run before).join? noResult i = some outcome) :
      ((submit tasks).run before).HasEnded i := by
    obtain ⟨order, horder⟩ := (accounts_submit tasks).run before
    exact (horder.join_eq noResult hjoin).1
  refine ⟨fun i label ending htask => ⟨fun outcome hjoin => ?_, ?_, horder.joins_of_gone noResult⟩,
    ⟨order, horder.nodup, horder.hasEnded, horder.faults⟩, hjoined moves, fun hover => ?_⟩
  · obtain ⟨-, label', e, htask', houtcome⟩ := horder.join_eq noResult hjoin
    cases htask.symm.trans htask'
    exact ⟨e, rfl, houtcome⟩
  · rintro value rfl hended
    exact horder.joins_of_returned noResult htask hended
  · obtain ⟨earlier, later, rfl, hdraining, hempty⟩ :=
      exists_end_of_over (p := submit tasks) (by simp [submit]) hover
    obtain ⟨hcollected, hwaited⟩ := faultsOf_collected tasks later hdraining hempty
    refine ⟨earlier, later, rfl, hdraining, hcollected, ?_, fun htime => ⟨hwaited htime, ?_⟩⟩
    · intro before rest hsplit hbefore i fault outcome hjoin hfault
      obtain ⟨between, rfl⟩ := prefix_of_end hsplit hdraining hempty hbefore
      exact hcollected.mem hfault (run_hasEnded tasks (hjoined before i outcome hjoin))
    · intro i fault hfault
      exact hcollected.mem hfault (hwaited htime i (lt_of_taskFault? hfault))

/-- A crashed task is joined, another one is stuck, and the shutdown gives up waiting for it. -/
theorem joins_and_faults_accounted_stuck :
    let tasks : List (String × Option (Ending Nat)) :=
      [("stuck", none), ("explode", some (.crashed "kaboom")), ("fine", some (.returned 7))]
    let before : List PoolMove := [.endTask 1, .land 1, .hangUp 1]
    let rest : List PoolMove := [.beginShutdown, .expire, .collect, .endShutdown, .endTask 2]
    let p := (submit tasks).run (before ++ rest)
    p.shutdown = .over ∧ p.timedOut = true ∧ p.join? id 2 = some (.ok 7) ∧
      ((submit tasks).run before).join? id 1 = some (.error "explode") ∧
      "task `explode` panicked: kaboom" ∈ p.collected := by
  intro tasks before rest p
  have hover : p.shutdown = .over := rfl
  obtain ⟨-, -, -, hshutdown⟩ := joins_and_faults_accounted id tasks (before ++ rest)
  obtain ⟨-, -, -, -, -, hjoined, -⟩ := hshutdown hover
  refine ⟨hover, rfl, rfl, rfl, ?_⟩
  exact hjoined before rest rfl (by decide) 1 _ _ rfl rfl

/-! ### Every shutdown comes to an end -/

theorem run_collect {p : WorkerPool α} (h : p.shutdown = .draining) :
    ∃ more, (p.run more).shutdown = .over := by
  generalize hqueued : p.queued = faults
  induction faults generalizing p with
  | nil => exact ⟨[.endShutdown], by simp [run, WorkerPool.step, h, hqueued]⟩
  | cons fault rest ih =>
    have hstep : p.step .collect =
        { p with queued := rest, collected := p.collected ++ [fault] } := by
      simp [WorkerPool.step, h, hqueued]
    obtain ⟨more, hmore⟩ := ih (p := p.step .collect) (by rw [hstep]; exact h) (by rw [hstep])
    exact ⟨.collect :: more, hmore⟩

/-- Whatever its tasks are doing, a pool can be shut down. -/
theorem exists_shutdown (p : WorkerPool α) : ∃ more, (p.run more).shutdown = .over := by
  have hwaiting {p : WorkerPool α} (h : p.shutdown = .waiting) :
      ∃ more, (p.run more).shutdown = .over := by
    by_cases hinFlight : p.tasks.any inFlight
    · obtain ⟨more, hmore⟩ := run_collect (p := p.step .expire)
        (by simp [WorkerPool.step, h, hinFlight])
      exact ⟨.expire :: more, hmore⟩
    · obtain ⟨more, hmore⟩ := run_collect (p := p.step .allLanded)
        (by simp [WorkerPool.step, h, hinFlight])
      exact ⟨.allLanded :: more, hmore⟩
  cases hshutdown : p.shutdown with
  | notBegun =>
    obtain ⟨more, hmore⟩ := hwaiting (p := p.step .beginShutdown)
      (by simp [WorkerPool.step, hshutdown])
    exact ⟨.beginShutdown :: more, hmore⟩
  | waiting => exact hwaiting hshutdown
  | draining => exact run_collect hshutdown
  | «over» => exact ⟨[], hshutdown⟩

end WorkerPool

end UnitLink
