import UnitLink.Proofs.Alone
import UnitLink.Proofs.LineByLine
import UnitLink.Proofs.OneByOne
/-! Links of sources in memory, put down to the texts. A source does what it does wherever the
common store is kept, so what is known of sources beside a common store holds of those that have
nothing in common. A source then links exactly if its lines can be read and bound, its
invocations pair up and each line has its part in the output; and a job links exactly if it
comes to its second phase and each of its sources links. -/
namespace UnitLink

variable {σ τ α : Type}

theorem toOption_eq_some_iff {ε : Type} {x : Except ε α} {value : α} :
    x.toOption = some value ↔ x = .ok value := by
  cases x <;> simp [Except.toOption]

theorem Bindings.finish_eq_ok_iff {b : Bindings} {source : String} {c : ClassUnit}
    {resolution : Resolution} :
    b.finish source c = .ok resolution ↔ b.begun = [] ∧ resolution = ⟨c, b.lines, b.glue⟩ := by
  unfold finish
  rw [← List.getLast?_eq_none_iff]
  cases b.begun.getLast? with
  | some line => simp
  | none => simp [eq_comm]

namespace Source

/-! ### Sources put beside a common store -/

section Beside

variable (s : Source σ) (common : τ)

theorem startInput_beside :
    (s.beside common).startInput = (s.startInput.1, s.startInput.2.beside common) := by
  unfold startInput beside
  simp only [Beside.backend, Beside.onOwn]
  split
  · rfl
  · split
    · rfl
    · generalize s.backend.openInput s.store = opening
      obtain ⟨failure | stream, store⟩ := opening <;> rfl

theorem startOutput_beside :
    (s.beside common).startOutput = (s.startOutput.1, s.startOutput.2.beside common) := by
  unfold startOutput beside
  simp only [Beside.backend, Beside.onOwn]
  split
  · rfl
  · split
    · rfl
    · generalize s.backend.createOutput s.store = creating
      obtain ⟨failure | done, store⟩ := creating <;> rfl

theorem write_beside (bytes : ByteArray) :
    (s.beside common).write bytes = ((s.write bytes).1, (s.write bytes).2.beside common) := by
  unfold write
  split <;> rfl

theorem finishOutput_beside :
    (s.beside common).finishOutput = (s.finishOutput.1, s.finishOutput.2.beside common) := by
  have hflush : (s.beside common).flush = (s.flush.1, s.flush.2.beside common) := rfl
  unfold finishOutput
  rw [hflush]
  generalize s.flush = flushing
  obtain ⟨failure | done, flushed⟩ := flushing <;> rfl

theorem close_beside :
    (s.beside common).close = (s.close.1, s.close.2.beside common) := by
  obtain ⟨name, ⟨openInput, createOutput, write, flush, finalize, cleanup⟩, store, reader, output,
    closed, calls⟩ := s
  unfold close beside
  simp only [Beside.backend, Beside.onOwn]
  split
  · rfl
  · split
    · rfl
    · split
      · rfl
      · generalize finalize (decide (output = .finished)) store = finalizing
        obtain ⟨failure | done, store⟩ := finalizing <;> rfl

theorem writeLines_beside (lines : List String) :
    (s.beside common).writeLines lines =
      ((s.writeLines lines).1, (s.writeLines lines).2.beside common) := by
  induction lines generalizing s with
  | nil => rfl
  | cons line lines ih =>
    unfold writeLines
    rw [write_beside]
    generalize s.write (line ++ lineSeparator).toUTF8 = writing
    obtain ⟨failure | done, after⟩ := writing
    · rfl
    · exact ih after

theorem rewriteLine_beside (r : Resolution) (line : Line) (cursor : LineCursor) :
    rewriteLine r line (s.beside common, cursor) =
      ((rewriteLine r line (s, cursor)).1,
        (rewriteLine r line (s, cursor)).2.1.beside common,
        (rewriteLine r line (s, cursor)).2.2) := by
  unfold rewriteLine
  cases line.directive with
  | none => simp only [writeLines_beside]
  | some d =>
    simp only
    cases r.expand d (cursor.get? r.lines line.number).1 with
    | error failure => rfl
    | ok lines => simp only [writeLines_beside]

theorem visitLines_beside (r : Resolution) (source : String) (number : Nat)
    (lines : List (Except SystemFault String)) (cursor : LineCursor) :
    UnitLink.visitLines (m := Id) source (rewriteLine r) number lines (s.beside common, cursor) =
      let (outcome, after, last) :=
        UnitLink.visitLines (m := Id) source (rewriteLine r) number lines (s, cursor)
      (outcome, after.beside common, last) := by
  induction lines generalizing s number cursor with
  | nil => rfl
  | cons text lines ih =>
    unfold UnitLink.visitLines
    cases Line.read number text with
    | error failure => rfl
    | ok line =>
      simp only [rewriteLine_beside]
      generalize rewriteLine r line (s, cursor) = visited
      obtain ⟨failure | done, after, last⟩ := visited
      · rfl
      · exact ih after (number + 1) last

theorem rewrite_beside (r : Resolution) :
    (s.beside common).rewrite r = ((s.rewrite r).1, (s.rewrite r).2.beside common) := by
  unfold rewrite
  rw [startOutput_beside]
  generalize s.startOutput = creating
  obtain ⟨failure | done, created⟩ := creating
  · rfl
  simp only [visitOwnLines, startInput_beside]
  generalize created.startInput = opening
  obtain ⟨failure | done, opened⟩ := opening
  · rfl
  simp only [visitStarted]
  rw [show (opened.beside common).name = opened.name from rfl,
    show (opened.beside common).reader = opened.reader from rfl, visitLines_beside]
  generalize UnitLink.visitLines (m := Id) opened.name (rewriteLine r) 1 _ _ = pass
  obtain ⟨failure | done, rewritten, last⟩ := pass
  · rfl
  · exact finishOutput_beside rewritten.releaseInput common

end Beside

/-! ### Single sources -/

/-- A source in memory between two passes, of which nothing has been written. -/
structure Waiting (s : Source MemoryStore) (text : String) : Prop where
  backend_eq : s.backend = MemoryStore.backend
  store_eq : s.store = { input := text }
  no_reader : s.reader = none
  no_output : s.output = .notCreated
  not_closed : s.closed = false

theorem waiting_inMemory (name text : String) : (inMemory name text).Waiting text :=
  ⟨rfl, rfl, rfl, rfl, rfl⟩

section Waiting

variable {s : Source MemoryStore} {text : String}

theorem Waiting.startInput (h : s.Waiting text) : s.startInput = (.ok (), s.opened text) := by
  unfold Source.startInput
  rw [h.not_closed, h.no_reader, h.backend_eq]
  show (Except.ok (), { s.called .openInput s.store with
    reader := some (Stream.ofString s.store.input) }) = _
  rw [show s.store.input = text by rw [h.store_eq]]
  rfl

theorem Waiting.releaseInput (h : s.Waiting text) : (s.opened text).releaseInput.Waiting text :=
  ⟨h.backend_eq, h.store_eq, rfl, h.no_output, h.not_closed⟩

theorem Waiting.beside (h : s.Waiting text) : (s.beside ()).InMemory text where
  backend_eq := congrArg Beside.backend h.backend_eq
  input_eq := congrArg MemoryStore.input h.store_eq
  no_reader := h.no_reader
  not_closed := h.not_closed
  staged_valid := by
    show s.store.staged.IsValidUTF8
    rw [h.store_eq]
    exact ByteArray.isValidUTF8_empty
  no_output := h.no_output

theorem Waiting.discover (h : s.Waiting text) :
    s.discover = (Declarations.ofLines s.name ((textLines text).map .ok),
      (s.opened text).releaseInput) := by
  rw [discover_eq h.startInput, unread_opened]

theorem Waiting.rewrite_close (h : s.Waiting text) {r : Resolution} (hordered : r.lines.Ordered)
    {output : String} :
    (match s.rewrite r with
      | (.error failure, _) => .error failure
      | (.ok (), s) =>
        match s.close with
        | (.error failure, _) => .error failure
        | (.ok (), s) => .ok (s.outputText?.getD "")) = (.ok output : Except Failure String) ↔
      ∃ parts, Resolution.lineOutputs r.declared r.glue r.lines (textLines text) = .ok parts ∧
        output = String.join parts := by
  -- nothing is in common here, so what holds beside a common store holds
  have hempty : (s.beside ()).store.own.staged = .empty := congrArg MemoryStore.staged h.store_eq
  have hrewrite := s.rewrite_beside () r
  constructor
  · intro hok
    cases hrewritten : s.rewrite r with
    | mk outcome after =>
      cases outcome with
      | error failure =>
        rw [hrewritten] at hok
        cases hok
      | ok done =>
        rw [hrewritten] at hok hrewrite
        obtain ⟨parts, hparts, hwritten, hfinished⟩ :=
          h.beside.finished_of_rewrite hempty hordered hrewrite
        have hclose := hwritten.close
        rw [close_beside] at hclose hfinished
        refine ⟨parts, hparts, ?_⟩
        simp only at hok
        generalize after.close = closing at hok hclose hfinished
        obtain ⟨outcome, closed⟩ := closing
        obtain rfl : outcome = .ok () := hclose
        rw [← Except.ok.inj hok, show closed.outputText? = _ from hfinished]
        rfl
  · rintro ⟨parts, hparts, rfl⟩
    obtain ⟨after, closed, hok, hclosed, hfinished⟩ :=
      (h.beside.output_goes_line_by_line hempty hordered (String.join parts)).2 ⟨parts, hparts, rfl⟩
    rw [hrewrite] at hok
    obtain ⟨houtcome, rfl⟩ := Prod.mk.inj hok
    rw [close_beside] at hclosed
    obtain ⟨hcloses, rfl⟩ := Prod.mk.inj hclosed
    generalize s.rewrite r = rewriting at houtcome hcloses hfinished
    obtain ⟨outcome, after⟩ := rewriting
    obtain rfl : outcome = .ok () := houtcome
    simp only at hcloses hfinished ⊢
    generalize after.close = closing at hcloses hfinished
    obtain ⟨outcome, closed⟩ := closing
    obtain rfl : outcome = .ok () := hcloses
    show Except.ok (closed.outputText?.getD "") = _
    rw [show closed.outputText? = _ from hfinished]
    rfl

variable {load : ClassName → LoadAnswer} {size : Nat} {c : ClassUnit} {r : Resolver}
  {context : ClassName}

theorem Waiting.resolve_eq_ok_iff (h : s.Waiting text) {resolution : Resolution} :
    ((s.resolve c r context).run (.fixed load size) ⟨r.caches, ()⟩).1.1 = .ok resolution ↔
      ∃ lines bs b, readLines s.name 1 ((textLines text).map .ok) = .ok lines ∧
        r.alone (.fixed load size) (Bindings.bindLines r c lines) = .ok bs ∧
        (Bindings.start context).enterAll c s.name bs = .ok b ∧
        b.finish s.name c = .ok resolution := by
  have hopened : (s.inTurn Source.startInput).against
      (fun (shared : Shared Unit) op => shared.access (.fixed load size) op) ⟨r.caches, ()⟩ =
        ((.ok (), s.opened text), ⟨r.caches, ()⟩) := by
    show ((s.startInput.1, s.startInput.2), _) = _
    rw [h.startInput]
    rfl
  rw [Session.run_eq_against]
  constructor
  · intro hok
    obtain ⟨lines, bs, hbinds⟩ := bindsTo_of_resolve_ok hok
    rw [hbinds.against_resolve] at hok
    obtain ⟨-, hreads, hbound⟩ := hbinds
    rw [hopened, unread_opened] at hreads
    rw [hopened, ← Session.run_eq_against] at hbound
    cases hentered : (Bindings.start context).enterAll c s.name bs with
    | error failure =>
      rw [hentered] at hok
      cases hok
    | ok b =>
      rw [hentered] at hok
      exact ⟨lines, bs, b, hreads, hbound, hentered, mapError_eq_ok_iff.1 hok⟩
  · rintro ⟨lines, bs, b, hreads, hbound, hentered, hfinished⟩
    have hbinds : s.BindsTo c r
        (fun (shared : Shared Unit) op => shared.access (.fixed load size) op)
        ⟨r.caches, ()⟩ lines bs := by
      refine ⟨?_, ?_, ?_⟩
      · rw [hopened]
      · rw [hopened, unread_opened]
        exact hreads
      · rw [hopened, ← Session.run_eq_against]
        exact hbound
    rw [hbinds.against_resolve, hentered]
    exact mapError_eq_ok_iff.2 hfinished

theorem Waiting.resolve_waiting (h : s.Waiting text) (c : ClassUnit) (r : Resolver)
    (context : ClassName) (loader : Loader Unit) (shared : Shared Unit) :
    ((s.resolve c r context).run loader shared).1.2.Waiting text := by
  have hreleased : s.startInput.2.releaseInput.Waiting text := by
    rw [h.startInput]
    exact h.releaseInput
  have hfailed : ∀ failure, s.startInput.1 = .error failure → s.startInput.2.Waiting text := by
    rw [h.startInput]
    rintro failure ⟨⟩
  have hkeeps : (s.resolve c r context).Meets Protocol.any fun result => result.2.Waiting text :=
    @resolve_keeps MemoryStore Unit _ (fun t => t.Waiting text) s (fun _ => hreleased)
      (fun _ => hfailed) c r context
  exact (hkeeps.run (Session.any_keeps loader) trivial).1

theorem ordered_of_enterAll {number : Nat} {texts : List (Except SystemFault String)}
    {lines : List Line} {bs : List (Nat × Binding)} {b : Bindings}
    (hlines : readLines s.name number texts = .ok lines)
    (hbound : r.alone (.fixed load size) (Bindings.bindLines r c lines) = .ok bs)
    (hentered : (Bindings.start context).enterAll c s.name bs = .ok b) (hbegun : b.begun = []) :
    b.lines.Ordered := by
  unfold Resolver.alone at hbound
  rw [Session.run_eq_against] at hbound
  have hready := Bindings.ready_start context (ascending_of_readLines hlines).1
    (Bindings.kinds_of_bindLines hbound)
  obtain ⟨_, -, hall⟩ := Bindings.nested_of_enterAll_ok hready rfl hentered hbegun
  exact hall.ordered

/-- How the link of one source in memory comes to an output: its lines are read and bound, the
bindings entered and found balanced, and each line has its part. -/
theorem Waiting.linkAlone_eq_ok_iff (h : s.Waiting text) {output : String} :
    s.linkAlone c r context (.fixed load size) = .ok output ↔
      ∃ lines bs b parts, readLines s.name 1 ((textLines text).map .ok) = .ok lines ∧
        r.alone (.fixed load size) (Bindings.bindLines r c lines) = .ok bs ∧
        (Bindings.start context).enterAll c s.name bs = .ok b ∧ b.begun = [] ∧
        Resolution.lineOutputs c b.glue b.lines (textLines text) = .ok parts ∧
        output = String.join parts := by
  have hwaiting := h.resolve_waiting c r context (.fixed load size) ⟨r.caches, ()⟩
  unfold linkAlone
  constructor
  · intro hok
    cases hrun : ((s.resolve c r context).run (.fixed load size) ⟨r.caches, ()⟩).1 with
    | mk outcome resolved =>
      rw [hrun] at hok hwaiting
      rcases outcome with (failure | message) | resolution
      · cases hok
      · cases hok
      · obtain ⟨lines, bs, b, hlines, hbound, hentered, hfinished⟩ :=
          h.resolve_eq_ok_iff.1 (congrArg Prod.fst hrun)
        obtain ⟨hbegun, rfl⟩ := Bindings.finish_eq_ok_iff.1 hfinished
        obtain ⟨parts, hparts, rfl⟩ :=
          (hwaiting.rewrite_close (ordered_of_enterAll hlines hbound hentered hbegun)).1 hok
        exact ⟨lines, bs, b, parts, hlines, hbound, hentered, hbegun, hparts, rfl⟩
  · rintro ⟨lines, bs, b, parts, hlines, hbound, hentered, hbegun, hparts, rfl⟩
    have hordered := ordered_of_enterAll hlines hbound hentered hbegun
    have hresolved : ((s.resolve c r context).run (.fixed load size) ⟨r.caches, ()⟩).1.1 = _ :=
      h.resolve_eq_ok_iff.2
      ⟨lines, bs, b, hlines, hbound, hentered, Bindings.finish_eq_ok_iff.2 ⟨hbegun, rfl⟩⟩
    generalize ((s.resolve c r context).run (.fixed load size) ⟨r.caches, ()⟩).1 = run
      at hwaiting hresolved
    obtain ⟨outcome, resolved⟩ := run
    obtain rfl : outcome = .ok ⟨c, b.lines, b.glue⟩ := hresolved
    exact (hwaiting.rewrite_close hordered).2 ⟨parts, hparts, rfl⟩

/-- The output of a source in memory, put together from the parts of its lines. -/
def composed (s : Source MemoryStore) (c : ClassUnit) (r : Resolver) (context : ClassName)
    (loader : Loader Unit) : Option String := do
  let texts := textLines s.store.input
  let lines ← (readLines s.name 1 (texts.map .ok)).toOption
  let bs ← (r.alone loader (Bindings.bindLines r c lines)).toOption
  let b ← ((Bindings.start context).enterAll c s.name bs).toOption
  guard (b.begun = [])
  let parts ← (Resolution.lineOutputs c b.glue b.lines texts).toOption
  return String.join parts

theorem Waiting.toOption_linkAlone (h : s.Waiting text) :
    (s.linkAlone c r context (.fixed load size)).toOption =
      s.composed c r context (.fixed load size) := by
  have htext : s.store.input = text := by rw [h.store_eq]
  ext output
  rw [toOption_eq_some_iff, h.linkAlone_eq_ok_iff]
  simp [composed, htext, Option.bind_eq_some_iff, toOption_eq_some_iff, eq_comm (a := output)]

/-- What links by itself with one resolver links to the same with another, and after its lines
have been changed, if the lines bind to the same and have the same parts. -/
theorem Waiting.linkAlone_carries {s' : Source MemoryStore} {text' : String} {r' : Resolver}
    (h : s.Waiting text) (h' : s'.Waiting text') (hname : s'.name = s.name)
    (hlines : ∀ lines, readLines s.name 1 ((textLines text).map .ok) = .ok lines →
      ∃ lines', readLines s.name 1 ((textLines text').map .ok) = .ok lines' ∧
        List.Forall₂ (Bindings.LineCarries load size c r r') lines lines')
    (hparts : ∀ glue table parts,
      Resolution.lineOutputs c glue table (textLines text) = .ok parts →
        Resolution.lineOutputs c glue table (textLines text') = .ok parts)
    {output : String} (hok : s.linkAlone c r context (.fixed load size) = .ok output) :
    s'.linkAlone c r' context (.fixed load size) = .ok output := by
  obtain ⟨lines, bs, b, parts, hread, hbound, hentered, hbegun, hout, rfl⟩ :=
    h.linkAlone_eq_ok_iff.1 hok
  obtain ⟨lines', hread', hcarries⟩ := hlines lines hread
  refine h'.linkAlone_eq_ok_iff.2 ⟨lines', bs, b, parts, ?_, ?_, ?_, hbegun,
    hparts _ _ _ hout, rfl⟩
  · rw [hname]
    exact hread'
  · exact Bindings.bindLines_carries hcarries bs hbound
  · rw [hname]
    exact hentered

end Waiting

theorem of_discover_inMemory {name text : String} {c : ClassUnit} {s : Source MemoryStore}
    (h : (inMemory name text).discover = (.ok c, s)) :
    s.Waiting text ∧ s.name = name ∧
      Declarations.ofLines name ((textLines text).map .ok) = .ok c := by
  rw [(waiting_inMemory name text).discover] at h
  obtain ⟨hclass, rfl⟩ := Prod.mk.inj h
  exact ⟨(waiting_inMemory name text).releaseInput, rfl, hclass⟩

end Source

/-! ### Jobs -/

namespace Job

theorem firstError_eq_ok_iff {outcomes : List (Except Failure String)} :
    firstError outcomes = .ok () ↔ ∀ outcome ∈ outcomes, ∃ output, outcome = .ok output := by
  induction outcomes with
  | nil => simp [firstError]
  | cons first others ih =>
    cases first with
    | error failure => simp [firstError]
    | ok output => simp [firstError, ih]

variable {job : Job Unit MemoryStore} {load : ClassName → LoadAnswer} {size : Nat}
  {discovered : List (Source MemoryStore × ClassUnit)} {r : Resolver} (schedule : List Nat)

/-- Every source of a job is in memory and untouched. -/
def InMemory (job : Job Unit MemoryStore) : Prop :=
  ∀ s ∈ job.sources, ∃ name text, s = Source.inMemory name text

theorem InMemory.unwritten (h : job.InMemory) : ∀ s ∈ job.sources, s.Unwritten ∧ s.Unfinished := by
  intro s hs
  obtain ⟨name, text, rfl⟩ := h s hs
  exact ⟨Source.Fresh.unwritten ⟨rfl, rfl, rfl, rfl⟩, Source.unfinished_inMemory name text⟩

theorem InMemory.link_of_begins (h : job.InMemory)
    (hbegins : job.Begins (.fixed load size) discovered r ()) :
    (job.link schedule (.fixed load size)).result =
        firstError (discovered.map fun x => x.1.linkAlone x.2 r job.context (.fixed load size)) ∧
      (job.link schedule (.fixed load size)).outputs =
        discovered.map fun x =>
          (x.1.linkAlone x.2 r job.context (.fixed load size)).toOption := by
  have hdiscovered : ∀ x ∈ discovered, x.1.Unwritten ∧ x.1.Unfinished := by
    intro x hx
    obtain ⟨s, hs, heq⟩ := hbegins.exists_source hx
    obtain ⟨hunwritten, hunfinished⟩ := h.unwritten s hs
    have := hunwritten.discover
    have := hunfinished.discover
    simp_all
  obtain ⟨hresult, hsources, -⟩ := hbegins.link_eq schedule
  obtain ⟨halone, houtputs⟩ :=
    linkSources_eq_alone schedule load size r job.context () hdiscovered
  refine ⟨hresult.trans halone, ?_⟩
  rw [LinkReport.outputs, hsources]
  rw [List.map_map] at houtputs
  exact houtputs

theorem InMemory.all_isSome_iff (h : job.InMemory)
    (hbegins : job.Begins (.fixed load size) discovered r ()) :
    (job.link schedule (.fixed load size)).result = .ok () ↔
      ∀ output ∈ (job.link schedule (.fixed load size)).outputs, output.isSome = true := by
  obtain ⟨hresult, houtputs⟩ := h.link_of_begins schedule hbegins
  rw [hresult, firstError_eq_ok_iff, houtputs]
  simp only [List.forall_mem_map, Option.isSome_iff_exists, toOption_eq_some_iff]

/-- A job in memory links exactly if it comes to its second phase and each of its sources
links. -/
theorem InMemory.link_eq_ok_iff (h : job.InMemory) :
    (job.link schedule (.fixed load size)).result = .ok () ↔
      ∃ discovered r, job.Begins (.fixed load size) discovered r () ∧
        ∀ x ∈ discovered, ∃ output,
          x.1.linkAlone x.2 r job.context (.fixed load size) = .ok output := by
  constructor
  · intro hok
    rcases begins_or_gives_up schedule (granted_of_result_ok schedule hok) (.fixed load size) with
      ⟨discovered, r, common, hbegins⟩ | ⟨message, -, hcrashed⟩ | ⟨failures, hgives, hresult, -⟩
    · refine ⟨discovered, r, hbegins, ?_⟩
      rw [(h.link_of_begins schedule hbegins).1, firstError_eq_ok_iff] at hok
      exact fun x hx => hok _ (List.mem_map_of_mem hx)
    · rw [hok] at hcrashed
      cases hcrashed
    · obtain ⟨first, others, rfl, -⟩ := hgives.beginOneByOne
      rw [hok] at hresult
      cases hresult
  · rintro ⟨discovered, r, hbegins, hall⟩
    rw [(h.link_of_begins schedule hbegins).1, firstError_eq_ok_iff]
    intro outcome houtcome
    obtain ⟨x, hx, rfl⟩ := List.mem_map.1 houtcome
    exact hall x hx

theorem sources_of_crashed {loader : Loader Unit} {message : String}
    (hstarted : job.workers.Granted)
    (h : (loadLibraries loader job.libraries.eraseDups job.common).1 =
      .error (.crashed message)) :
    (job.link schedule loader).sources = job.sources.map fun s => s.discover.2 := by
  rw [(link_of_granted schedule loader hstarted).2.1]
  unfold linkPhases
  generalize loadLibraries loader job.libraries.eraseDups job.common = loaded at h
  obtain ⟨outcome, common⟩ := loaded
  obtain rfl : outcome = .error (.crashed message) := h
  exact List.map_map

theorem InMemory.outputs_of_not_begins (h : job.InMemory)
    (hnot : ∀ discovered r, ¬job.Begins (.fixed load size) discovered r ()) :
    (job.link schedule (.fixed load size)).outputs = job.sources.map fun _ => none := by
  unfold LinkReport.outputs
  by_cases hstarted : job.workers.Granted
  swap
  · obtain ⟨chain, -, -, hsources, -⟩ :=
      link_of_not_granted schedule (.fixed load size) hstarted
    rw [hsources]
    exact List.map_congr_left fun s hs => (h.unwritten s hs).2.no_text
  rcases begins_or_gives_up schedule hstarted (.fixed load size) with
    ⟨discovered, r, common, hbegins⟩ | ⟨message, hcrashed, -⟩ | ⟨failures, -, -, hsources⟩
  · exact absurd hbegins (hnot discovered r)
  · rw [sources_of_crashed schedule hstarted hcrashed, List.map_map]
    exact List.map_congr_left fun s hs => (h.unwritten s hs).2.discover.no_text
  · rw [hsources, List.map_map, List.map_map]
    refine List.map_congr_left fun s hs => ?_
    have hunfinished := (h.unwritten s hs).2.discover
    exact (Source.outputText?_abandon hunfinished.backend_eq).trans hunfinished.no_text

theorem begins_of_beginOneByOne (hstarted : job.workers.Granted)
    (h : job.beginOneByOne (.fixed load size) = .ok (discovered, r)) :
    job.Begins (.fixed load size) discovered r () := by
  rcases begins_or_gives_up [] hstarted (.fixed load size) with
    ⟨discovered', r', common, hbegins⟩ | ⟨message, hcrashed, -⟩ | ⟨failures, hgives, -⟩
  · obtain ⟨rfl, rfl⟩ := Prod.mk.inj (Except.ok.inj (h.symm.trans hbegins.beginOneByOne))
    exact hbegins
  · unfold beginOneByOne at h
    obtain ⟨found, -, h⟩ := exists_of_bind_eq_ok h
    rw [hcrashed] at h
    cases h
  · obtain ⟨first, others, -, hfirst⟩ := hgives.beginOneByOne
    rw [hfirst] at h
    cases h

/-- The outputs of a job in memory that comes to its second phase, put together from the texts
of its sources. -/
def composed (job : Job Unit MemoryStore) (loader : Loader Unit) :
    Option (List (Option String)) := do
  let (discovered, r) ← (job.beginOneByOne loader).toOption
  return discovered.map fun x => x.1.composed x.2 r job.context loader

theorem InMemory.waiting (h : job.InMemory)
    (hbegins : job.Begins (.fixed load size) discovered r ())
    {x : Source MemoryStore × ClassUnit} (hx : x ∈ discovered) : ∃ text, x.1.Waiting text := by
  obtain ⟨s, hs, hdiscover⟩ := hbegins.exists_source hx
  obtain ⟨name, text, rfl⟩ := h s hs
  exact ⟨text, (Source.of_discover_inMemory hdiscover).1⟩

/-- A job in memory leaves the outputs that can be put together, and links if that is all of
them. -/
theorem InMemory.link_of_composed (h : job.InMemory) (hstarted : job.workers.Granted)
    {outputs : List (Option String)}
    (hcomposed : job.composed (.fixed load size) = some outputs) :
    ((job.link schedule (.fixed load size)).result = .ok () ↔
        ∀ output ∈ outputs, output.isSome = true) ∧
      (job.link schedule (.fixed load size)).outputs = outputs := by
  obtain ⟨⟨discovered, r⟩, hbegun, houtputs⟩ := Option.bind_eq_some_iff.1 hcomposed
  have hbegins := begins_of_beginOneByOne hstarted (toOption_eq_some_iff.1 hbegun)
  have hleft : (job.link schedule (.fixed load size)).outputs = outputs := by
    rw [(h.link_of_begins schedule hbegins).2, ← Option.some.inj houtputs]
    refine List.map_congr_left fun x hx => ?_
    obtain ⟨text, hwaiting⟩ := h.waiting hbegins hx
    exact hwaiting.toOption_linkAlone
  refine ⟨?_, hleft⟩
  rw [h.all_isSome_iff schedule hbegins, hleft]

end Job
end UnitLink
