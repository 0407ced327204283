import UnitLink.Proofs.Jobs
import UnitLink.Proofs.QualifiedSearch
/-! The bound on searches. A search goes into a class once for each name, so it does not meet a
bound that is at least the number of names that there are. Two such bounds cannot be told apart:
with both, tasks make the same accesses, whatever the answers, and jobs link alike. -/
namespace UnitLink

variable {τ α β : Type}

/-! ### Sessions that cannot be told apart -/

namespace Session

/-- Sessions that keep to the protocol, make the same accesses and come to the same value,
whichever of the admitted answers they get. -/
inductive Agree (P : Protocol τ) : Session τ α → Session τ α → Prop
  | done (value : α) : Agree P (done value) (done value)
  | ask {op : SharedOp τ} {next next' : op.Answer → Session τ α} (hasks : P.asks op)
      (hnext : ∀ answer, P.answers op answer → Agree P (next answer) (next' answer)) :
      Agree P (ask op next) (ask op next')

variable {P : Protocol τ} {s s' : Session τ α} {f f' : α → Session τ β}

theorem Agree.bind (h : s.Agree P s') (hf : ∀ value, (f value).Agree P (f' value)) :
    (s >>= f).Agree P (s' >>= f') := by
  induction h with
  | done value => exact hf value
  | ask hasks _ ih => exact .ask hasks ih

theorem Meets.agree_bind {post : α → Prop} (h : s.Meets P post)
    (hf : ∀ value, post value → (f value).Agree P (f' value)) : (s >>= f).Agree P (s >>= f') := by
  induction s with
  | done value => exact hf value h
  | ask op next ih => exact .ask h.1 fun answer hanswer => ih answer (h.2 answer hanswer)

theorem Meets.agree {post : α → Prop} (h : s.Meets P post) : s.Agree P s := by
  rw [← bind_pure s]
  exact h.agree_bind fun value _ => .done value

theorem forall₂_set_set {R : α → β → Prop} {as : List α} {bs : List β} (h : List.Forall₂ R as bs)
    (i : Nat) {a : α} {b : β} (hab : R a b) : List.Forall₂ R (as.set i a) (bs.set i b) := by
  induction h generalizing i with
  | nil => exact .nil
  | cons hfirst hrest ih =>
    cases i with
    | zero => exact .cons hab hrest
    | succ i => exact .cons hfirst (ih i)

section Interleaving

variable {loader loader' : Loader τ} {Inv : Shared τ → Prop} (hkeeps : Keeps P loader Inv)
  (hload : ∀ shared : Shared τ, shared.access loader' = shared.access loader)

include hkeeps hload

theorem Agree.step (h : s.Agree P s') {shared : Shared τ} (hshared : Inv shared) :
    (s.step loader shared).1.Agree P (s'.step loader' shared).1 ∧
      (s'.step loader' shared).2 = (s.step loader shared).2 ∧ Inv (s.step loader shared).2 := by
  cases h with
  | done value => exact ⟨.done value, rfl, hshared⟩
  | @ask op _ _ hasks hnext =>
    obtain ⟨hanswer, hinv⟩ := hkeeps shared op hshared hasks
    simp only [Session.step, hload]
    exact ⟨hnext _ hanswer, trivial, hinv⟩

theorem Agree.run (h : s.Agree P s') {shared : Shared τ} (hshared : Inv shared) :
    s'.run loader' shared = s.run loader shared ∧ Inv (s.run loader shared).2 := by
  induction h generalizing shared with
  | done value => exact ⟨rfl, hshared⟩
  | @ask op _ _ hasks _ ih =>
    obtain ⟨hanswer, hinv⟩ := hkeeps shared op hshared hasks
    simp only [Session.run, hload]
    exact ih _ hanswer hinv

theorem runEach_agree {sessions sessions' : List (Session τ α)}
    (h : List.Forall₂ (Agree P) sessions sessions') {shared : Shared τ} (hshared : Inv shared) :
    runEach loader' sessions' shared = runEach loader sessions shared := by
  induction h generalizing shared with
  | nil => rfl
  | cons hfirst _ ih =>
    obtain ⟨hrun, hinv⟩ := hfirst.run hkeeps hload hshared
    simp only [runEach, hrun, ih hinv]

theorem interleave_agree (schedule : List Nat) {sessions sessions' : List (Session τ α)}
    (h : List.Forall₂ (Agree P) sessions sessions') {shared : Shared τ} (hshared : Inv shared) :
    interleave loader' schedule sessions' shared = interleave loader schedule sessions shared := by
  induction schedule generalizing sessions sessions' shared with
  | nil => exact runEach_agree hkeeps hload h hshared
  | cons turn schedule ih =>
    rw [interleave, interleave]
    cases hturn : sessions[turn]? with
    | none =>
      have hturn' : sessions'[turn]? = none := by
        rw [List.getElem?_eq_none_iff] at hturn ⊢
        exact h.length_eq ▸ hturn
      simp only [hturn']
      exact ih h hshared
    | some session =>
      obtain ⟨session', hturn', hagree⟩ := exists_of_getElem? h hturn
      obtain ⟨hstep, hshared', hinv⟩ := hagree.step hkeeps hload hshared
      simp only [hturn', hshared']
      exact ih (forall₂_set_set h turn hstep) hinv

end Interleaving
end Session

def Congruence.agreeing (P : Protocol τ) : Congruence τ where
  related := Session.Agree P
  related_pure := .done
  related_bind := Session.Agree.bind

/-! ### Searches -/

/-- The loader has classes of at most so many names. -/
def Loader.NamesAtMost (loader : Loader τ) (n : Nat) : Prop :=
  ∃ names : List ClassName, names.length ≤ n ∧ ∀ name c, loader.Supplies name c → c.name ∈ names

def Loader.resized (loader : Loader τ) (n : Nat) : Loader τ := { loader with size := n }

theorem ClassLibrary.namesAtMost_loader (l : ClassLibrary) {n : Nat} (h : l.classes.length ≤ n) :
    (l.loader : Loader τ).NamesAtMost n := by
  refine ⟨l.classes.map fun c => c.name, by simpa using h, fun name c hc => ?_⟩
  have hfound := l.loads_loader.eq_some_of_supplies hc
  exact List.mem_map_of_mem (List.mem_of_find?_eq_some hfound)

theorem access_resized (loader : Loader τ) (n : Nat) (shared : Shared τ) :
    shared.access (loader.resized n) = shared.access loader := by
  funext op
  cases op <;> rfl

namespace Resolver

variable {r : Resolver} {loader : Loader τ} {names : List ClassName} {n : Nat}

def resized (r : Resolver) (n : Nat) : Resolver := { r with reach := n }

/-- All classes that can be looked up have names from the list. -/
structure Knows (r : Resolver) (loader : Loader τ) (names : List ClassName) : Prop where
  job : ∀ c ∈ r.jobClasses, c.name ∈ names
  libraries : ∀ c ∈ r.libraries, c.name ∈ names
  supplied : ∀ name c, loader.Supplies name c → c.name ∈ names

theorem Knows.cons (h : r.Knows loader names) (name : ClassName) :
    r.Knows loader (name :: names) where
  job c hc := List.mem_cons_of_mem _ (h.job c hc)
  libraries c hc := List.mem_cons_of_mem _ (h.libraries c hc)
  supplied other c hc := List.mem_cons_of_mem _ (h.supplied other c hc)

theorem Knows.lookupAll_delivers (h : r.Knows loader names) (supertypes : List ClassName) :
    r.Delivers loader (r.lookupAll supertypes) fun classes => ∀ c ∈ classes, c.name ∈ names := by
  refine lookupAll_delivers_good (fun name => lookup_delivers_good name ?_ ?_) supertypes
  · intro c hc
    exact h.job c (of_jobClass? hc).1
  · rintro - c (hpre | hsupplied)
    · exact h.libraries c (of_preloaded hpre).1
    · exact h.supplied name c hsupplied

theorem Delivers.agree_bind {x : Resolving τ α} {f f' : α → Resolving τ β} {good : α → Prop}
    (h : r.Delivers loader x good)
    (hf : ∀ value, good value → (f value).run.Agree (r.protocol loader) (f' value).run) :
    (x >>= f).run.Agree (r.protocol loader) (x >>= f').run := by
  rw [ExceptT.run_bind, ExceptT.run_bind]
  apply Session.Meets.agree_bind h
  rintro (stop | value) hvalue
  · exact .done _
  · exact hf value hvalue

/-- Two searches agree if both may go into as many classes as there are names left to visit. -/
theorem Knows.search_agrees (h : r.Knows loader names) (find : ClassUnit → Option α)
    {steps steps' : Nat} {visited : List ClassName} {pending : List ClassUnit}
    (hpending : ∀ c ∈ pending, c.name ∈ names)
    (hsteps : DepthFirst.unvisited names visited ≤ steps)
    (hsteps' : DepthFirst.unvisited names visited ≤ steps') :
    (r.search find steps visited pending).run.Agree (r.protocol loader)
      (r.search find steps' visited pending).run := by
  induction steps, visited, pending using search.induct find generalizing steps' with
  | case1 steps visited =>
    rw [search, search]
    exact .done _
  | case2 steps visited c pending hmem ih =>
    rw [search_of_mem hmem, search_of_mem hmem]
    exact ih (fun d hd => hpending d (List.mem_cons_of_mem _ hd)) hsteps hsteps'
  | case3 steps visited c pending hnew found hc =>
    rw [search_of_found hnew hc, search_of_found hnew hc]
    exact .done _
  | case4 visited c pending hnew hc =>
    -- with no steps left there is no new name either
    have := DepthFirst.unvisited_cons_lt (hpending c List.mem_cons_self) hnew
    omega
  | case5 visited c pending hnew hc steps ih =>
    have hlt := DepthFirst.unvisited_cons_lt (hpending c List.mem_cons_self) hnew
    obtain ⟨more, rfl⟩ : ∃ more, steps' = more + 1 := ⟨steps' - 1, by omega⟩
    rw [search_of_not_found hnew hc, search_of_not_found hnew hc]
    apply (h.lookupAll_delivers c.supertypes).agree_bind
    intro supertypes hsupertypes
    refine ih supertypes (fun d hd => ?_) (by omega) (by omega)
    rcases List.mem_append.1 hd with hd | hd
    · exact hsupertypes d hd
    · exact hpending d (List.mem_cons_of_mem _ hd)

theorem lookupAll_resized (r : Resolver) (n : Nat) (supertypes : List ClassName) :
    ((r.resized n).lookupAll supertypes : Resolving τ _) = r.lookupAll supertypes := by
  induction supertypes with
  | nil => rfl
  | cons name supertypes ih =>
    rw [lookupAll, lookupAll, ih]
    rfl

theorem search_resized (r : Resolver) (n : Nat) (find : ClassUnit → Option α) (steps : Nat)
    (visited : List ClassName) (pending : List ClassUnit) :
    ((r.resized n).search find steps visited pending : Resolving τ _) =
      r.search find steps visited pending := by
  induction steps, visited, pending using search.induct find with
  | case1 => rw [search, search]
  | case2 steps visited c pending hmem ih => rw [search_of_mem hmem, search_of_mem hmem, ih]
  | case3 steps visited c pending hnew found hc =>
    rw [search_of_found hnew hc, search_of_found hnew hc]
  | case4 visited c pending hnew hc =>
    rw [search.eq_def, search.eq_def]
    simp only [if_neg hnew, hc]
  | case5 visited c pending hnew hc steps ih =>
    rw [search_of_not_found hnew hc, search_of_not_found hnew hc, lookupAll_resized]
    congr 1
    funext supertypes
    exact ih supertypes

/-- The bound on searches is at least the number of names that classes can have. -/
def Reaches (r : Resolver) (loader : Loader τ) : Prop :=
  ∃ names, r.Knows loader names ∧ names.length ≤ r.reach

theorem Reaches.of_resized (h : r.Reaches (loader.resized n)) : r.Reaches loader := by
  obtain ⟨names, ⟨hjob, hlibraries, hsupplied⟩, hlength⟩ := h
  exact ⟨names, ⟨hjob, hlibraries, hsupplied⟩, hlength⟩

theorem reaches_of_build {discovered : List Discovered} {libraries : List ClassUnit}
    {unresolved : Option ClassName} (hbuild : build discovered libraries unresolved loader = .ok r)
    (h : loader.NamesAtMost loader.size) : r.Reaches loader := by
  obtain ⟨names, hlength, hnames⟩ := h
  have hreach := reach_of_build_ok hbuild
  let own := (r.jobClasses ++ r.libraries).map fun c => c.name
  refine ⟨own ++ names, ⟨?_, ?_, ?_⟩, ?_⟩
  · intro c hc
    exact List.mem_append_left _ (List.mem_map_of_mem (List.mem_append_left _ hc))
  · intro c hc
    exact List.mem_append_left _ (List.mem_map_of_mem (List.mem_append_right _ hc))
  · intro name c hc
    exact List.mem_append_right _ (hnames name c hc)
  · simp only [own, List.length_append, List.length_map]
    omega

theorem build_resized (discovered : List Discovered) (libraries : List ClassUnit)
    (unresolved : Option ClassName) (loader : Loader τ) (n : Nat) :
    build discovered libraries unresolved (loader.resized n) =
      (build discovered libraries unresolved loader).map
        fun r => r.resized (discovered.length + libraries.length + n) := by
  unfold build
  cases duplicate? [] discovered <;> rfl

variable {kind : MemberKind}

theorem findInherited_agrees (h : r.Reaches loader) (h' : (r.resized n).Reaches loader)
    (c : ClassUnit) (find : ClassUnit → Option α) :
    (r.findInherited c find).run.Agree (r.protocol loader)
      ((r.resized n).findInherited c find).run := by
  obtain ⟨names, hknows, hreach, hn⟩ : ∃ names, r.Knows loader names ∧ names.length ≤ r.reach ∧
      names.length ≤ n := by
    obtain ⟨names, hknows, hlength⟩ := h
    obtain ⟨names', ⟨hjob, hlibraries, hsupplied⟩, hlength'⟩ := h'
    rcases Nat.le_total names.length names'.length with hle | hle
    · exact ⟨names, hknows, hlength, hle.trans hlength'⟩
    · exact ⟨names', ⟨hjob, hlibraries, hsupplied⟩, hle.trans hlength, hlength'⟩
  have hunvisited : DepthFirst.unvisited (c.name :: names) [] ≤ names.length + 1 :=
    DepthFirst.unvisited_le_length
  unfold findInherited
  rw [search_resized]
  apply (hknows.cons c.name).search_agrees
  · simp
  · omega
  · show _ ≤ n + 1
    omega

theorem resolve_agrees (h : r.Reaches loader) (h' : (r.resized n).Reaches loader)
    (signature : String) (referrer : ClassUnit) :
    (r.resolve kind signature referrer).run.Agree (r.protocol loader)
      ((r.resized n).resolve kind signature referrer).run := by
  unfold resolve
  apply (parse_delivers signature).agree_bind
  intro parsed hparsed
  cases parsed.owner with
  | none => exact (resolveUnqualified_delivers hparsed).agree
  | some written =>
    show (r.resolveQualified signature parsed _ referrer).run.Agree _
      ((r.resized n).resolveQualified signature parsed _ referrer).run
    unfold resolveQualified
    apply (namedClass_delivers _ referrer signature).agree_bind
    intro c _
    apply (Congruence.agreeing _).related_run_bind (findInherited_agrees h h' c _)
    rintro (_ | found)
    · exact .done _
    · exact .done _

/-- How far searches may go makes no difference to what a signature resolves to, whatever is in
the caches by then. -/
theorem resolve_resized (h : r.Reaches loader) (h' : (r.resized n).Reaches loader)
    (signature : String) (referrer : ClassUnit) {shared : Shared τ}
    (hshared : r.Faithful loader shared) (size : Nat) :
    ((r.resized n).resolve kind signature referrer).run.run (loader.resized size) shared =
      (r.resolve kind signature referrer).run.run loader shared :=
  ((resolve_agrees h h' signature referrer).run (r.protocol_keeps loader)
    (access_resized loader size) hshared).1

end Resolver

/-! ### Links -/

namespace Job

variable {σ : Type}

theorem loadLibraries_resized (loader : Loader τ) (n : Nat) (names : List ClassName) (common : τ) :
    loadLibraries (loader.resized n) names common = loadLibraries loader names common := by
  induction names generalizing common with
  | nil => rfl
  | cons name names ih =>
    rw [loadLibraries, loadLibraries]
    simp only [ih]
    rfl

variable [CommonStore σ τ] {loader : Loader τ} {r : Resolver} {n : Nat}

theorem linkSources_resized (schedule : List Nat) {reach : Nat} (h : r.Reaches loader)
    (h' : (r.resized reach).Reaches loader) (context : ClassName)
    (discovered : List (Source σ × ClassUnit)) (common : τ) :
    linkSources schedule (loader.resized n) (r.resized reach) context discovered common =
      linkSources schedule loader r context discovered common := by
  -- tasks of one source agree because their resolvers do
  have hagree : List.Forall₂ (Session.Agree (r.protocol loader))
      (discovered.map fun x => x.1.link x.2 r context)
      (discovered.map fun x => x.1.link x.2 (r.resized reach) context) := by
    rw [List.forall₂_map_left_iff, List.forall₂_map_right_iff, List.forall₂_same]
    intro x _
    exact (Congruence.agreeing _).source_link_related (fun _ => .ask trivial fun _ _ => .done _)
      (fun _ => Resolver.resolve_agrees h h') x.1 x.2 context
  have hsame := Session.interleave_agree (r.protocol_keeps loader) (access_resized loader n)
    schedule hagree (r.faithful_start loader common)
  unfold linkSources
  simp only
  rw [show (r.resized reach).caches = r.caches from rfl, hsame]

theorem linkDiscovered_resized (schedule : List Nat) (h : loader.NamesAtMost loader.size)
    (h' : loader.NamesAtMost n) (job : Job τ σ) (discovered : List (Source σ × ClassUnit))
    (libraries : List ClassUnit) (common : τ) :
    linkDiscovered schedule (loader.resized n) job discovered libraries common =
      linkDiscovered schedule loader job discovered libraries common := by
  unfold linkDiscovered
  simp only
  rw [Resolver.build_resized]
  cases hbuild : Resolver.build (discovered.map fun x => ⟨x.1.name, x.2⟩) libraries
      job.unresolved loader with
  | error failure => rfl
  | ok r =>
    have hreaches := Resolver.reaches_of_build hbuild h
    have hresized := Resolver.build_resized (discovered.map fun x => ⟨x.1.name, x.2⟩) libraries
      job.unresolved loader n
    have hlimit : (loader.resized n).NamesAtMost (loader.resized n).size := h'
    rw [hbuild] at hresized
    have hreaches' := Resolver.reaches_of_build hresized hlimit
    simp only [Except.map]
    rw [linkSources_resized schedule hreaches hreaches'.of_resized]

/-- How far searches may go makes no difference to a link, as long as it is at least as far as
there are classes that the loader can answer with. -/
theorem link_resized (schedule : List Nat) (h : loader.NamesAtMost loader.size)
    (h' : loader.NamesAtMost n) (job : Job τ σ) :
    job.link schedule (loader.resized n) = job.link schedule loader := by
  unfold link linkPhases
  simp only [loadLibraries_resized, linkDiscovered_resized schedule h h']

theorem link_resized_library (schedule : List Nat) (l : ClassLibrary) (h : l.classes.length ≤ n)
    (job : Job τ σ) : job.link schedule (l.loader.resized n) = job.link schedule l.loader :=
  link_resized schedule (l.namesAtMost_loader (Nat.le_refl _)) (l.namesAtMost_loader h) job

end Job
end UnitLink
