import UnitLink.ClassPath
import UnitLink.Proofs.LookupStages
/-! Classes that are looked up at the same time. Lookups of one name agree, later ones no longer
ask the loader, one that fails leaves nothing behind for the others, and a job's class is never
asked for at all. All this holds in every interleaving, and also of a loader that answers every
question in another way. -/
namespace UnitLink

/-- A loader that answers with the class asked for, or none. -/
def Loader.NamesAsked {τ : Type} (loader : Loader τ) : Prop :=
  ∀ name common c, (loader.load name common).1 = .found c → c.name = name

/-- A loader that has its answers written out, and gives them whatever it is asked. -/
def Loader.scripted : Loader (List LoadAnswer) where
  load
    | name, [] => (.refused (.notFound name), [])
    | _, answer :: rest => (answer, rest)
  size := 0

/-- The name of the class that an access is about. -/
def SharedOp.className? {τ : Type} : SharedOp τ → Option ClassName
  | loaded name | load name | keep name _ => some name
  | _ => none

def Access.loadAnswer? {τ : Type} : Access τ → Option LoadAnswer
  | ⟨_, .load _, answer⟩ => some answer
  | _ => none

/-- What the loader answered to all but one of the sessions. -/
def heardBut {τ : Type} (j : Nat) (log : List (Access τ)) : List LoadAnswer :=
  (log.filter fun a => a.session ≠ j).filterMap Access.loadAnswer?

namespace UnderWay

variable {τ : Type}

/-- A lookup has succeeded. -/
def Gives (u : UnderWay τ LookupResult) (i : Nat) (c : ClassUnit) : Prop :=
  u.sessions[i]? = some (.done (.ok (.ok c)))

instance (u : UnderWay τ LookupResult) (i : Nat) (c : ClassUnit) : Decidable (u.Gives i c) :=
  match h : u.sessions[i]? with
  | some (.done result) => decidable_of_iff (result = .ok (.ok c)) (by simp [Gives, h])
  | some (.ask ..) => isFalse (by simp [Gives, h])
  | none => isFalse (by simp [Gives, h])

/-- A lookup has failed, or was stopped. -/
def Fails (u : UnderWay τ LookupResult) (i : Nat) : Prop :=
  ∃ result, u.sessions[i]? = some (.done result) ∧ ∀ c, result ≠ .ok (.ok c)

end UnderWay

namespace Resolver

variable {τ : Type} {loader : Loader τ} {r : Resolver} {names : List ClassName}
  {supplied : ClassName → ClassUnit → Prop} {u : UnderWay τ LookupResult}

/-! ### Accesses -/

theorem Coherent.accesses (h : r.Coherent supplied names u)
    (hloader : ∀ name common c, (loader.load name common).1 = .found c → supplied name c)
    (schedule : List Nat) :
    ∀ a ∈ u.accesses loader schedule, ∃ name, names[a.session]? = some name ∧
      a.op.className? = some name ∧ r.jobClass? name = none := by
  induction schedule generalizing u with
  | nil => simp [UnderWay.accesses]
  | cons i schedule ih =>
    intro a ha
    rw [UnderWay.accesses, List.mem_append, Option.mem_toList] at ha
    rcases ha with ha | ha
    · rw [UnderWay.session_of_access? ha]
      rcases h.at_turn i with hnone | ⟨name, stage, hname, hstage, hsound⟩
      · simp [UnderWay.access?, hnone] at ha
      · rw [LookupStage.access?_eq hstage, Option.map_eq_some_iff] at ha
        obtain ⟨op, hop, rfl⟩ := ha
        refine ⟨name, hname, ?_, hsound.undeclared hop⟩
        cases stage <;> cases hop <;> rfl
    · exact ih (h.turn hloader i) a ha

theorem later_lookup {name : ClassName} {c : ClassUnit} {j : Nat}
    (hsession : u.sessions[j]? = some (LookupStage.reading.session name))
    (hentered : u.shared.caches.classes.lookup name = some c)
    (h : r.Coherent supplied names u)
    (hloader : ∀ name common c, (loader.load name common).1 = .found c → supplied name c)
    (schedule : List Nat) :
    (∀ a ∈ u.accesses loader schedule, a.session = j → a.op = .loaded name) ∧
      (j ∈ schedule → (u.run loader schedule).Gives j c) := by
  induction schedule generalizing u with
  | nil => exact ⟨by simp [UnderWay.accesses], by simp⟩
  | cons i schedule ih =>
    by_cases hi : i = j
    · subst hi
      have hturn : (u.turn loader i).sessions[i]? = some (.done (.ok (.ok c))) := by
        rw [LookupStage.turn_eq hsession]
        have hlength := (List.getElem?_eq_some_iff.mp hsession).1
        rw [List.getElem?_set_self hlength]
        simp only [LookupStage.next, hentered]
        rfl
      obtain ⟨hrun, hlog⟩ := UnderWay.run_done loader hturn schedule
      refine ⟨fun a ha hsame => ?_, fun _ => hrun⟩
      rw [UnderWay.accesses, List.mem_append, Option.mem_toList] at ha
      rcases ha with ha | ha
      · rw [LookupStage.access?_eq hsession] at ha
        cases ha
        rfl
      · exact absurd hsame (hlog a ha)
    · obtain ⟨hlog, hgives⟩ := ih ((UnderWay.turn_sessions_ne (Ne.symm hi)).trans hsession)
        (h.lookup_turn i hentered) (h.turn hloader i)
      refine ⟨fun a ha hsame => ?_, fun hmem => ?_⟩
      · rw [UnderWay.accesses, List.mem_append, Option.mem_toList] at ha
        rcases ha with ha | ha
        · exact absurd ((UnderWay.session_of_access? ha).symm.trans hsame) hi
        · exact hlog a ha hsame
      · exact hgives ((List.mem_cons.mp hmem).resolve_left (Ne.symm hi))

/-! ### Leaving a failed lookup out -/

/-- Two runs that differ in one lookup only, and in where the loader has its answers from. -/
structure Alike {τ' : Type} (names : List ClassName) (j : Nat) (u : UnderWay τ LookupResult)
    (u' : UnderWay τ' LookupResult) : Prop where
  length : u'.sessions.length = u.sessions.length
  calls : ∀ i ≠ j, ∀ name, names[i]? = some name → ∃ stage : LookupStage,
    u.sessions[i]? = some (stage.session name) ∧ u'.sessions[i]? = some (stage.session name)
  caches : u'.shared.caches = u.shared.caches

/-- A lookup that has brought a class enters it, or finds one entered, and cannot fail. -/
theorem Coherent.not_fails_of_keeping (h : r.Coherent supplied names u)
    (hloader : ∀ name common c, (loader.load name common).1 = .found c → supplied name c)
    {j : Nat} {name : ClassName} {c : ClassUnit}
    (hkeeping : u.sessions[j]? = some ((LookupStage.keeping c).session name))
    (schedule : List Nat) : ¬(u.run loader schedule).Fails j := by
  induction schedule generalizing u with
  | nil =>
    rintro ⟨result, hresult, -⟩
    cases hkeeping.symm.trans hresult
  | cons i schedule ih =>
    by_cases hi : i = j
    · subst hi
      have hturn : (u.turn loader i).Gives i (u.shared.caches.keep name c).1 := by
        unfold UnderWay.Gives
        rw [LookupStage.turn_eq hkeeping]
        exact List.getElem?_set_self (List.getElem?_eq_some_iff.mp hkeeping).1
      rintro ⟨result, hresult, hfailed⟩
      have hrun := (UnderWay.run_done loader hturn schedule).1
      cases hrun.symm.trans hresult
      exact hfailed _ rfl
    · exact ih (h.turn hloader i) ((UnderWay.turn_sessions_ne (Ne.symm hi)).trans hkeeping)

theorem heardBut_accesses (j i : Nat) (schedule : List Nat) :
    heardBut j (u.accesses loader (i :: schedule)) =
      heardBut j (u.access? loader i).toList ++
        heardBut j ((u.turn loader i).accesses loader schedule) := by
  simp [heardBut, UnderWay.accesses]

theorem heardBut_singleton {j : Nat} {a : Access τ} (h : a.session ≠ j) :
    heardBut j [a] = a.loadAnswer?.toList := by
  rw [heardBut, List.filter_cons_of_pos (by simpa using h), List.filter_nil]
  cases hanswer : a.loadAnswer? with
  | none => exact List.filterMap_cons_none hanswer
  | some answer => rw [List.filterMap_cons_some hanswer]; rfl

theorem next_scripted {shared : Shared τ} {shared' : Shared (List LoadAnswer)}
    (hcaches : shared'.caches = shared.caches) (name : ClassName) (stage : LookupStage)
    {i j : Nat} (hi : i ≠ j) {rest : List LoadAnswer}
    (hcommon : shared'.common = heardBut j
      ((stage.op? name).map fun op => ⟨i, op, (shared.access loader op).1⟩).toList ++ rest) :
    (stage.next .scripted name shared').1 = (stage.next loader name shared).1 ∧
      (stage.next .scripted name shared').2.caches = (stage.next loader name shared).2.caches ∧
      (stage.next .scripted name shared').2.common = rest := by
  have heard (op : SharedOp τ) : heardBut j [⟨i, op, (shared.access loader op).1⟩] =
      (Access.loadAnswer? ⟨i, op, (shared.access loader op).1⟩).toList :=
    heardBut_singleton hi
  cases stage with
  | reading =>
    have hrest : shared'.common = rest := hcommon.trans (congrArg (· ++ rest) (heard _))
    simp only [LookupStage.next, hcaches]
    cases shared.caches.classes.lookup name <;> exact ⟨rfl, hcaches, hrest⟩
  | loading =>
    have hanswer : shared'.common = (loader.load name shared.common).1 :: rest :=
      hcommon.trans (congrArg (· ++ rest) (heard _))
    simp [LookupStage.next, Loader.scripted, hanswer, hcaches]
  | keeping c =>
    have hrest : shared'.common = rest := hcommon.trans (congrArg (· ++ rest) (heard _))
    simp [LookupStage.next, hcaches, hrest]
  | finished result => exact ⟨rfl, hcaches, hcommon⟩

/-- Another lookup has its turn, in the one run with the loader and in the other with the answers
that the loader gave. -/
theorem Alike.turn {j i : Nat} (hi : i ≠ j) {u' : UnderWay (List LoadAnswer) LookupResult}
    (hcoherent : r.Coherent supplied names u) (h : Alike names j u u') {rest : List LoadAnswer}
    (hcommon : u'.shared.common = heardBut j (u.access? loader i).toList ++ rest) :
    Alike names j (u.turn loader i) (u'.turn .scripted i) ∧
      (u'.turn .scripted i).shared.common = rest := by
  rcases hcoherent.at_turn i with hnone | ⟨name, -, hname, -, -⟩
  · have hnone' : u'.sessions[i]? = none := by
      rw [List.getElem?_eq_none_iff] at hnone ⊢
      exact h.length ▸ hnone
    rw [UnderWay.turn, UnderWay.turn, hnone, hnone']
    simp only [UnderWay.access?, hnone] at hcommon
    exact ⟨h, hcommon⟩
  · obtain ⟨stage, hstage, hstage'⟩ := h.calls i hi name hname
    rw [LookupStage.access?_eq hstage] at hcommon
    obtain ⟨hnext, hcaches, hrest⟩ := next_scripted h.caches name stage hi hcommon
    rw [LookupStage.turn_eq hstage, LookupStage.turn_eq hstage']
    refine ⟨⟨?_, fun k hk other hother => ?_, hcaches⟩, hrest⟩
    · simpa using h.length
    · by_cases hsame : i = k
      · subst hsame
        cases hname.symm.trans hother
        refine ⟨(stage.next loader name u.shared).1,
          List.getElem?_set_self (List.getElem?_eq_some_iff.mp hstage).1, ?_⟩
        rw [hnext]
        exact List.getElem?_set_self (List.getElem?_eq_some_iff.mp hstage').1
      · rw [List.getElem?_set_ne hsame, List.getElem?_set_ne hsame]
        exact h.calls k hk other hother

/-- The turns of a lookup that fails leave the caches and the other lookups as they are. -/
theorem Alike.own_turn {τ' : Type} {j : Nat} {u' : UnderWay τ' LookupResult}
    (hcoherent : r.Coherent supplied names u)
    (hloader : ∀ name common c, (loader.load name common).1 = .found c → supplied name c)
    (h : Alike names j u u') {schedule : List Nat}
    (hfails : (u.run loader (j :: schedule)).Fails j) :
    Alike names j (u.turn loader j) u' := by
  rcases hcoherent.at_turn j with hnone | ⟨name, stage, -, hstage, -⟩
  · rw [UnderWay.turn, hnone]
    exact h
  · have hcaches : (u.turn loader j).shared.caches = u.shared.caches := by
      rw [LookupStage.turn_eq hstage]
      cases stage with
      | reading =>
        simp only [LookupStage.next]
        cases u.shared.caches.classes.lookup name <;> rfl
      | loading | finished => rfl
      | keeping c => exact absurd hfails (hcoherent.not_fails_of_keeping hloader hstage _)
    refine ⟨h.length.trans (UnderWay.turn_sessions_length j).symm, fun i hi other hother => ?_,
      h.caches.trans hcaches.symm⟩
    rw [UnderWay.turn_sessions_ne hi]
    exact h.calls i hi other hother

/-- What a run comes to without a lookup that fails in it, given what the loader answered to
the others. -/
theorem Alike.run {j : Nat} {u' : UnderWay (List LoadAnswer) LookupResult}
    (hcoherent : r.Coherent supplied names u)
    (hloader : ∀ name common c, (loader.load name common).1 = .found c → supplied name c)
    (h : Alike names j u u') {schedule : List Nat} (hfails : (u.run loader schedule).Fails j)
    (hcommon : u'.shared.common = heardBut j (u.accesses loader schedule)) :
    Alike names j (u.run loader schedule)
      (u'.run .scripted (schedule.filter fun i => i ≠ j)) := by
  induction schedule generalizing u u' with
  | nil => exact h
  | cons i schedule ih =>
    rw [heardBut_accesses] at hcommon
    by_cases hi : i = j
    · subst hi
      have hsilent : heardBut i (u.access? loader i).toList = [] := by
        cases haccess : u.access? loader i with
        | none => rfl
        | some a => simp [heardBut, UnderWay.session_of_access? haccess]
      rw [hsilent, List.nil_append] at hcommon
      simpa using ih (hcoherent.turn hloader i) (h.own_turn hcoherent hloader hfails) hfails
        hcommon
    · obtain ⟨hturn, hrest⟩ := h.turn hi hcoherent hcommon
      simpa [hi] using ih (hcoherent.turn hloader i) hturn hfails hrest

theorem Alike.gives_iff {τ' : Type} {j i : Nat} {u' : UnderWay τ' LookupResult}
    (hlength : u.sessions.length = names.length) (h : Alike names j u u') (hi : i ≠ j)
    (result : LookupResult) :
    u'.sessions[i]? = some (.done result) ↔ u.sessions[i]? = some (.done result) := by
  cases hname : names[i]? with
  | none =>
    have hnone : u.sessions[i]? = none := by
      rw [List.getElem?_eq_none_iff] at hname ⊢
      exact hlength ▸ hname
    have hnone' : u'.sessions[i]? = none := by
      rw [List.getElem?_eq_none_iff] at hnone ⊢
      exact h.length ▸ hnone
    rw [hnone, hnone']
    simp
  | some name =>
    obtain ⟨stage, hstage, hstage'⟩ := h.calls i hi name hname
    rw [hstage, hstage']
    cases stage <;> simp [LookupStage.session, LookupStage.asking, LookupStage.entering]

/-! ### The classes that lookups give -/

theorem jobClass?_of_mem {discovered : List Discovered} {libraries : List ClassUnit}
    {unresolved : Option ClassName}
    (hbuild : build discovered libraries unresolved loader = .ok r) {d : Discovered}
    (hd : d ∈ discovered) : r.jobClass? d.declared.name = some d.declared := by
  have hnodup := nodup_of_build_ok hbuild
  have hmem : d.declared ∈ r.jobClasses := by
    rw [jobClasses_eq hbuild]
    exact List.mem_map_of_mem hd
  cases hfound : r.jobClass? d.declared.name with
  | none => exact absurd (List.find?_eq_none.mp hfound d.declared hmem) (by simp)
  | some c =>
    obtain ⟨hc, hname⟩ := of_jobClass? hfound
    rw [jobClasses_eq hbuild] at hc hmem
    have hnodup' : ((discovered.map Discovered.declared).map fun c => c.name).Nodup := by
      rwa [List.map_map]
    exact congrArg some (List.inj_on_of_nodup_map hnodup' hc hmem hname)

theorem Coherent.of_gives (h : r.Coherent supplied names u) {i : Nat} {name : ClassName}
    {c : ClassUnit} (hname : names[i]? = some name) (hgives : u.Gives i c) :
    r.jobClass? name = some c ∨
      r.jobClass? name = none ∧ u.shared.caches.classes.lookup name = some c := by
  obtain ⟨stage, hstage, hsound⟩ := h.calls i name hname
  have hfinished : stage = .finished (.ok (.ok c)) := by
    have hsession := hstage.symm.trans hgives
    cases stage <;> cases hsession
    rfl
  cases hjob : r.jobClass? name with
  | some own =>
    cases hfinished.symm.trans (hsound.own own hjob)
    exact .inl rfl
  | none => exact .inr ⟨rfl, hsound.found c hjob hfinished⟩

theorem lookups_gives_own (common : τ) {i : Nat} {name : ClassName} {c : ClassUnit}
    (hname : names[i]? = some name) (hjob : r.jobClass? name = some c) :
    (r.lookups names common).Gives i c := by
  have hsession := r.lookups_session common hname
  rw [LookupStage.start, hjob] at hsession
  exact hsession

theorem alike_lookups (r : Resolver) (names : List ClassName) (j : Nat) (common : τ)
    (script : List LoadAnswer) :
    Alike names j (r.lookups names common) (r.lookups names script) where
  length := by simp [lookups]
  calls i _ name hname :=
    ⟨.start r name, r.lookups_session common hname, r.lookups_session script hname⟩
  caches := rfl

/-- A lookup that has made no access by the time another one of its name has succeeded. -/
theorem Coherent.gives_later {common : τ} {earlier : List Nat}
    (h : r.Coherent supplied names ((r.lookups names common).run loader earlier))
    (hloader : ∀ name common c, (loader.load name common).1 = .found c → supplied name c)
    {i j : Nat} {name : ClassName} {c : ClassUnit} (hi : names[i]? = some name)
    (hj : names[j]? = some name) (hgives : ((r.lookups names common).run loader earlier).Gives i c)
    (hidle : ∀ a ∈ (r.lookups names common).accesses loader earlier, a.session ≠ j)
    (later : List Nat) :
    (∀ a ∈ (r.lookups names common).accesses loader (earlier ++ later), a.session = j →
        a.op = .loaded name) ∧
      (j ∈ later → ((r.lookups names common).run loader (earlier ++ later)).Gives j c) := by
  rw [UnderWay.accesses_append, UnderWay.run_append]
  have hsession := (UnderWay.session_of_no_access hidle).trans (r.lookups_session common hj)
  have hlater (a : Access τ) (hlog : a ∈ ((r.lookups names common).run loader earlier).accesses
      loader later → a.session = j → a.op = .loaded name)
      (ha : a ∈ (r.lookups names common).accesses loader earlier ++
        ((r.lookups names common).run loader earlier).accesses loader later)
      (hsame : a.session = j) : a.op = .loaded name := by
    rcases List.mem_append.mp ha with ha | ha
    · exact absurd hsame (hidle a ha)
    · exact hlog ha hsame
  rcases h.of_gives hi hgives with hjob | ⟨hjob, hentered⟩
  · rw [LookupStage.start, hjob] at hsession
    obtain ⟨hrun, hnone⟩ := UnderWay.run_done loader hsession later
    exact ⟨fun a => hlater a fun ha hsame => absurd hsame (hnone a ha), fun _ => hrun⟩
  · rw [LookupStage.start, hjob] at hsession
    obtain ⟨hlog, hrun⟩ := later_lookup hsession hentered h hloader later
    exact ⟨fun a => hlater a (hlog a), hrun⟩

end Resolver

theorem ClassLibrary.namesAsked_loader {τ : Type} (l : ClassLibrary) :
    (l.loader : Loader τ).NamesAsked := by
  intro name common c h
  have hfound := l.loads_loader.eq_some_of_supplies ⟨common, h⟩
  simpa using List.find?_some hfound

theorem ClassFile.name_of_parseNamed {name : ClassName} {data : List UInt8} {c : ClassUnit}
    (h : parseNamed name data = .ok c) : c.name = name := by
  unfold parseNamed at h
  cases hparse : parse data with
  | error fault => simp [hparse, bind, Except.bind] at h
  | ok found =>
    simp only [hparse, bind, Except.bind] at h
    split at h
    · rename_i hname
      cases h
      exact hname
    · cases h

theorem ClassPath.namesAsked_loader (p : ClassPath) (tree : FileTree) :
    (p.loader tree).NamesAsked := by
  intro name common c h
  simp only [loader, load] at h
  split at h
  · cases h
  · split at h
    · rename_i hparse
      cases h
      exact ClassFile.name_of_parseNamed hparse
    · cases h

namespace Resolver

variable {τ : Type}

/-- However lookups interleave, and whatever the loader answers each of them: the lookup of a
job's class gives that class, which is never in the cache nor asked for; all lookups of a name
that succeed give one class; once one has succeeded, a lookup of the name that has not begun
reads the cache, asks for nothing and succeeds with its first turn; without a lookup that fails,
the others come to the same if the loader answers them the same; and with a loader that answers
with the class asked for, such as a library or a class path, they give the class of their
name. -/
theorem lookups_coherent {loader : Loader τ} {discovered : List Discovered}
    {libraries : List ClassUnit} {unresolved : Option ClassName} {r : Resolver}
    (hbuild : build discovered libraries unresolved loader = .ok r) (names : List ClassName)
    (common : τ) (schedule : List Nat) :
    let start := r.lookups names common
    let now := start.run loader schedule
    (∀ d ∈ discovered,
      (∀ i : Nat, names[i]? = some d.declared.name → start.Gives i d.declared ∧
        now.Gives i d.declared) ∧
      now.shared.caches.classes.lookup d.declared.name = none ∧
      ∀ a ∈ start.accesses loader schedule, a.op.className? ≠ some d.declared.name) ∧
    (∀ (i j : Nat) (c c' : ClassUnit), names[i]? = names[j]? → now.Gives i c → now.Gives j c' →
      c = c') ∧
    (∀ earlier later, schedule = earlier ++ later →
      ∀ (i j : Nat) (name : ClassName) (c : ClassUnit),
      names[i]? = some name → names[j]? = some name → (start.run loader earlier).Gives i c →
        (∀ a ∈ start.accesses loader earlier, a.session ≠ j) →
          (∀ a ∈ start.accesses loader schedule, a.session = j → a.op = .loaded name) ∧
          (j ∈ later → now.Gives j c)) ∧
    (∀ j, now.Fails j →
      let without := (r.lookups names (heardBut j (start.accesses loader schedule))).run .scripted
        (schedule.filter fun i => i ≠ j)
      without.shared.caches = now.shared.caches ∧
        ∀ i ≠ j, ∀ result, without.sessions[i]? = some (.done result) ↔
          now.sessions[i]? = some (.done result)) ∧
    (loader.NamesAsked → ∀ (i : Nat) (name : ClassName) (c : ClassUnit), names[i]? = some name →
      now.Gives i c → c.name = name) ∧
    (∀ library : ClassLibrary, (library.loader : Loader τ).NamesAsked) ∧
    ∀ (path : ClassPath) (tree : FileTree), (path.loader tree).NamesAsked := by
  intro start now
  -- nothing is asked of the answers until it comes to the names of the classes
  have hany : ∀ name common c, (loader.load name common).1 = .found c →
      (fun _ _ => True : ClassName → ClassUnit → Prop) name c := fun _ _ _ _ => trivial
  have hstart := coherent_lookups (fun _ _ => True) hbuild names common
    fun _ => trivial
  have hnow := hstart.run hany schedule
  refine ⟨fun d hd => ?_, fun i j c c' hnames hi hj => ?_, ?_, fun j hfails => ?_, ?_,
    ClassLibrary.namesAsked_loader, ClassPath.namesAsked_loader⟩
  · have hjob := jobClass?_of_mem hbuild hd
    refine ⟨fun i hi => ?_, ?_, fun a ha heq => ?_⟩
    · have hgives := lookups_gives_own (r := r) common hi hjob
      exact ⟨hgives, (UnderWay.run_done loader hgives schedule).1⟩
    · rw [Option.eq_none_iff_forall_ne_some]
      intro c hc
      cases hjob.symm.trans (hnow.entries _ c hc).1
    · obtain ⟨name, -, hname, hnone⟩ := hstart.accesses hany schedule a ha
      cases heq.symm.trans hname
      cases hjob.symm.trans hnone
  · obtain ⟨hlt, -⟩ := List.getElem?_eq_some_iff.mp hi
    have hname := List.getElem?_eq_getElem (hnow.length ▸ hlt)
    rcases hnow.of_gives hname hi with hc | ⟨hnone, hc⟩
    · rcases hnow.of_gives (hnames ▸ hname) hj with hc' | ⟨hnone, -⟩
      · exact Option.some.inj (hc.symm.trans hc')
      · cases hc.symm.trans hnone
    · rcases hnow.of_gives (hnames ▸ hname) hj with hc' | ⟨-, hc'⟩
      · cases hc'.symm.trans hnone
      · exact Option.some.inj (hc.symm.trans hc')
  · rintro earlier later rfl i j name c hi hj hgives hidle
    exact (hstart.run hany earlier).gives_later hany hi hj hgives hidle later
  · have halike := (alike_lookups r names j common _).run hstart hany hfails rfl
    exact ⟨halike.caches, fun i hi result => halike.gives_iff hnow.length hi result⟩
  · intro hnamed i name c hname hgives
    have hstart := coherent_lookups (fun name c => c.name = name) hbuild names common
      fun _ => rfl
    rcases (hstart.run hnamed schedule).of_gives hname hgives with hjob | ⟨-, hentered⟩
    · exact (of_jobClass? hjob).2
    · exact ((hstart.run hnamed schedule).entries name c hentered).2

/-- Refuses its first question and answers each later one with another class. -/
def flakyLoader : Loader Nat where
  load name asked :=
    match asked with
    | 0 => (.refused (.notFound name), 1)
    | _ => (.found ⟨⟨name, .empty, none, List.replicate asked name⟩, [], []⟩, asked + 1)
  size := 3

/-- A lookup fails, two others bring different classes for the name, and a fourth comes late. -/
theorem lookups_coherent_flakyLoader :
    let own : ClassUnit := ⟨⟨.ofString "A", .empty, none, []⟩, [], []⟩
    let other : ClassName := .ofString "B"
    ∃ r, build [⟨"A.j", own⟩] [] none flakyLoader = .ok r ∧
      let start := r.lookups [own.name, other, other, other, other] 0
      let earlier := start.run flakyLoader [1, 1, 2, 3, 2, 3, 2, 3]
      let now := start.run flakyLoader ([1, 1, 2, 3, 2, 3, 2, 3] ++ [4])
      now.Gives 0 own ∧
        (∃ c, earlier.Gives 2 c ∧ earlier.Gives 3 c ∧ now.Gives 4 c) ∧
        ∀ a ∈ start.accesses flakyLoader ([1, 1, 2, 3, 2, 3, 2, 3] ++ [4]), a.session = 4 →
          a.op = .loaded other := by
  intro own other
  have hbuild : build [⟨"A.j", own⟩] [] none flakyLoader = .ok ⟨[own], [], none, 4⟩ := rfl
  refine ⟨_, hbuild, ?_⟩
  intro start earlier now
  obtain ⟨hown, -, hlater, -⟩ := lookups_coherent hbuild [own.name, other, other, other, other] 0
    ([1, 1, 2, 3, 2, 3, 2, 3] ++ [4])
  have hfirst : earlier.Gives 2 ⟨⟨other, .empty, none, [other]⟩, [], []⟩ := by decide +kernel
  have hsecond : earlier.Gives 3 ⟨⟨other, .empty, none, [other]⟩, [], []⟩ := by decide +kernel
  obtain ⟨hlog, hfourth⟩ := hlater _ _ rfl 2 4 other _ rfl rfl hfirst (by decide +kernel)
  exact ⟨((hown _ (List.mem_singleton_self _)).1 0 rfl).2,
    ⟨_, hfirst, hsecond, hfourth (List.mem_singleton_self _)⟩, hlog⟩

end Resolver
end UnitLink
