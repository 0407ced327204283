import Mathlib.Logic.ExistsUnique
import UnitLink.Proofs.ArgumentOptions
/-! Command lines are read group by group. The first group that ends the reading decides, and if
there is none, unrecognised options are told of, or the settings are what is linked with. -/
namespace UnitLink

inductive SettingKind where
  | inputs | libraries | classPath | unresolved | context | threads | shutdown | time | unrecognised

namespace Setting

def kind : Setting → SettingKind
  | input .. => .inputs
  | library _ => .libraries
  | directories _ => .classPath
  | unresolved _ => .unresolved
  | context _ => .context
  | threads _ => .threads
  | shutdownMilliseconds _ => .shutdown
  | time => .time
  | unrecognised _ => .unrecognised

def input? : Setting → Option (String × Option String)
  | input path output => some (path, output)
  | _ => none

def library? : Setting → Option String
  | library name => some name
  | _ => none

def directoriesOf : Setting → List String
  | directories list => list
  | _ => []

def unresolved? : Setting → Option String
  | unresolved name => some name
  | _ => none

def context? : Setting → Option String
  | context name => some name
  | _ => none

def threads? : Setting → Option Nat
  | threads count => some count
  | _ => none

def shutdownMilliseconds? : Setting → Option Nat
  | shutdownMilliseconds count => some count
  | _ => none

end Setting

namespace Arguments

/-- A group that no argument is missing from. -/
inductive Complete : List String → Prop
  | taking {option : String} (value : String) : TakesNext option → Complete [option, value]
  | single {argument : String} : ¬TakesNext argument → Complete [argument]

/-- A command line in groups. Only the last one can lack an argument. -/
inductive Grouped : List (List String) → Prop
  | nil : Grouped []
  | cons {group : List String} {groups : List (List String)} : Complete group → Grouped groups →
      Grouped (group :: groups)
  | cut {option : String} : TakesNext option → Grouped [[option]]

/-- Groups none of which ends the reading, with what they set and what is unrecognised. -/
inductive Collects : List (List String) → List Setting → List String → Prop
  | nil : Collects [] [] []
  | sets {group : List String} {setting : Setting} {groups : List (List String)}
      {settings : List Setting} {unknown : List String} : Sets group setting →
      Collects groups settings unknown → Collects (group :: groups) (setting :: settings) unknown
  | unrecognised {argument : String} {groups : List (List String)} {settings : List Setting}
      {unknown : List String} : Unrecognised argument → Collects groups settings unknown →
      Collects ([argument] :: groups) settings (argument :: unknown)

/-- What settings come to: the lists have everything in its order, and of single values the last
one counts. -/
structure Gives (settings : List Setting) (link : LinkArguments) : Prop where
  inputs : link.inputs = settings.filterMap Setting.input?
  libraries : link.libraries = settings.filterMap Setting.library?
  classPath : link.classPath = settings.flatMap Setting.directoriesOf
  unresolved : link.unresolved = (settings.filterMap Setting.unresolved?).getLast?
  context : link.context =
    (settings.filterMap Setting.context?).getLast?.getD "runtime/ExecutionContext"
  threads : link.threads = (settings.filterMap Setting.threads?).getLast?
  shutdown : link.shutdownMilliseconds =
    (settings.filterMap Setting.shutdownMilliseconds?).getLast?.getD 5000
  time : link.time = true ↔ .time ∈ settings

/-- What a command line comes to, by its groups. -/
inductive Outcome : List (List String) → Except ArgumentFault Action → Prop
  | halts {before : List (List String)} {group : List String} {settings : List Setting}
      {unknown : List String} {halt : Halt} (after : List (List String)) :
      Collects before settings unknown → Halts group halt →
      Outcome (before ++ group :: after) halt.result
  | unrecognised {groups : List (List String)} {settings : List Setting}
      {unknown : List String} : Collects groups settings unknown → unknown ≠ [] →
      Outcome groups (.error (.unrecognised unknown))
  | noInputs {groups : List (List String)} {settings : List Setting} :
      Collects groups settings [] → (∀ setting ∈ settings, setting.kind ≠ .inputs) →
      Outcome groups (.error .noInputs)
  | links {groups : List (List String)} {settings : List Setting} {link : LinkArguments} :
      Collects groups settings [] → (∃ setting ∈ settings, setting.kind = .inputs) →
      Gives settings link → Outcome groups (.ok (.link link))

variable {group : List String} {gs before after : List (List String)} {settings : List Setting}
  {unknown : List String} {setting other : Setting} {halt : Halt} {c : Collected}
  {result : Except ArgumentFault Action} {text argument : String}

/-! ### Groups -/

theorem Complete.groups_append (h : Complete group) (rest : List String) :
    groups (group ++ rest) = groups group ++ groups rest := by
  cases h with
  | taking value htakes =>
    rcases htakes with rfl | htakes
    · exact (groups_library value rest).trans (by rw [groups_library value []]; rfl)
    · exact (groups_directories htakes value rest).trans
        (by rw [groups_directories htakes value []]; rfl)
  | single hnot => exact (groups_single hnot rest).trans (by rw [groups_single hnot []]; rfl)

theorem groups_flatten_append (h : ∀ group ∈ gs, Complete group) (rest : List String) :
    groups (gs.flatten ++ rest) = gs.flatMap groups ++ groups rest := by
  induction gs with
  | nil => rfl
  | cons group gs ih =>
    obtain ⟨hgroup, hothers⟩ := List.forall_mem_cons.1 h
    rw [List.flatten_cons, List.append_assoc, hgroup.groups_append, ih hothers,
      List.flatMap_cons, List.append_assoc]

theorem Grouped.groups_flatten (h : Grouped gs) : groups gs.flatten = gs.flatMap groups := by
  induction h with
  | nil => rfl
  | cons hgroup _ ih => rw [List.flatten_cons, hgroup.groups_append, ih, List.flatMap_cons]
  | cut => simp

theorem grouped_append_iff {gs' : List (List String)} (hne : gs' ≠ []) :
    Grouped (gs ++ gs') ↔ (∀ group ∈ gs, Complete group) ∧ Grouped gs' := by
  induction gs with
  | nil => simp
  | cons group gs ih =>
    rw [List.cons_append, List.forall_mem_cons, and_assoc, ← ih]
    constructor
    · intro h
      generalize hall : gs ++ gs' = all at h
      cases h with
      | cons hgroup hothers => exact ⟨hgroup, hothers⟩
      | cut => exact absurd (List.append_eq_nil_iff.1 hall).2 hne
    · exact fun h => .cons h.1 h.2

theorem exists_grouped : (arguments : List String) → ∃ gs, Grouped gs ∧ gs.flatten = arguments
  | [] => ⟨[], .nil, rfl⟩
  | [argument] => by
    by_cases h : TakesNext argument
    · exact ⟨[[argument]], .cut h, rfl⟩
    · exact ⟨[[argument]], .cons (.single h) .nil, rfl⟩
  | argument :: next :: rest => by
    by_cases h : TakesNext argument
    · obtain ⟨gs, hgrouped, rfl⟩ := exists_grouped rest
      exact ⟨[argument, next] :: gs, .cons (.taking next h) hgrouped, rfl⟩
    · obtain ⟨gs, hgrouped, hflatten⟩ := exists_grouped (next :: rest)
      exact ⟨[argument] :: gs, .cons (.single h) hgrouped, by simp [hflatten]⟩

theorem Complete.append_inj {group' rest rest' : List String} (h : Complete group)
    (h' : Complete group') (heq : group ++ rest = group' ++ rest') :
    group = group' ∧ rest = rest' := by
  obtain hhead := congrArg List.head? heq
  cases h with
  | taking value htakes =>
    cases h' with
    | taking value' htakes' => simpa [and_assoc] using heq
    | single hnot => exact absurd (Option.some.inj hhead ▸ htakes) hnot
  | single hnot =>
    cases h' with
    | taking value' htakes' => exact absurd (Option.some.inj hhead ▸ htakes') hnot
    | single hnot' => simpa using heq

theorem Complete.append_ne_cut {option : String} (h : Complete group) (htakes : TakesNext option)
    (rest : List String) : group ++ rest ≠ [option] := by
  intro heq
  cases h with
  | taking value _ => simp at heq
  | single hnot =>
    obtain ⟨rfl, -⟩ := List.cons.inj heq
    exact hnot htakes

theorem Complete.append_ne_nil (h : Complete group) (rest : List String) : group ++ rest ≠ [] := by
  cases h <;> simp

/-- There is one way only to group the arguments. -/
theorem Grouped.unique {gs' : List (List String)} (h : Grouped gs) (h' : Grouped gs')
    (hsame : gs.flatten = gs'.flatten) : gs = gs' := by
  induction h generalizing gs' with
  | nil =>
    cases h' with
    | nil => rfl
    | cons hgroup _ => exact absurd hsame.symm (hgroup.append_ne_nil _)
    | cut => simp at hsame
  | cons hgroup hothers ih =>
    cases h' with
    | nil => exact absurd hsame (hgroup.append_ne_nil _)
    | cons hgroup' hothers' =>
      obtain ⟨rfl, hrest⟩ := hgroup.append_inj hgroup' hsame
      rw [ih hothers' hrest]
    | cut htakes => exact absurd hsame (hgroup.append_ne_cut htakes _)
  | cut htakes =>
    cases h' with
    | nil => simp at hsame
    | cons hgroup _ => exact absurd hsame.symm (hgroup.append_ne_cut htakes _)
    | cut => simpa using hsame

/-! ### Kinds of groups -/

theorem halts_of_takesNext (h : TakesNext argument) : ∃ halt, Halts [argument] halt := by
  rcases h with rfl | htakes
  · exact ⟨_, .missingClass⟩
  · exact ⟨_, .missingDirectories htakes⟩

theorem not_takesNext_of_sets (h : Sets [argument] setting) : ¬TakesNext argument := by
  intro htakes
  obtain ⟨halt, hhalts⟩ := halts_of_takesNext htakes
  cases (groups_of_sets h).symm.trans (groups_of_halts hhalts)

theorem Sets.complete (h : Sets group setting) : Complete group := by
  cases hgroup : group with
  | nil =>
    rw [hgroup] at h
    cases h
  | cons argument values =>
    subst hgroup
    cases values with
    | nil => exact .single (not_takesNext_of_sets h)
    | cons value values =>
      cases h with
      | library => exact .taking value (.inl rfl)
      | directories _ htakes => exact .taking value (.inr htakes)

theorem Grouped.cases_of_mem (h : Grouped gs) (hgroup : group ∈ gs) :
    (∃ setting, Sets group setting) ∨ (∃ halt, Halts group halt) ∨
      ∃ argument, group = [argument] ∧ Unrecognised argument := by
  induction h with
  | nil => cases hgroup
  | cons hfirst _ ih =>
    rcases List.mem_cons.1 hgroup with rfl | hgroup
    · cases hfirst with
      | taking value htakes =>
        rcases htakes with rfl | htakes
        · exact .inl ⟨_, .library value⟩
        · exact .inl ⟨_, .directories value htakes⟩
      | single hnot =>
        exact (single_group_cases hnot).imp_right (.imp_right fun hnone => ⟨_, rfl, hnone⟩)
    · exact ih hgroup
  | cut htakes =>
    obtain rfl := List.mem_singleton.1 hgroup
    exact .inr (.inl (halts_of_takesNext htakes))

/-- The groups of a command line up to the first that ends the reading, if there is one. -/
theorem collects_or_halts
    (h : ∀ group ∈ gs, (∃ setting, Sets group setting) ∨ (∃ halt, Halts group halt) ∨
      ∃ argument, group = [argument] ∧ Unrecognised argument) :
    (∃ settings unknown, Collects gs settings unknown) ∨
      ∃ before group after settings unknown halt, gs = before ++ group :: after ∧
        Collects before settings unknown ∧ Halts group halt := by
  induction gs with
  | nil => exact .inl ⟨[], [], .nil⟩
  | cons group gs ih =>
    obtain ⟨hgroup, hothers⟩ := List.forall_mem_cons.1 h
    rcases hgroup with ⟨setting, hsets⟩ | ⟨halt, hhalts⟩ | ⟨argument, rfl, hnone⟩
    · rcases ih hothers with ⟨settings, unknown, hcollects⟩ |
        ⟨before, last, after, settings, unknown, halt, rfl, hcollects, hhalts⟩
      · exact .inl ⟨_, _, .sets hsets hcollects⟩
      · exact .inr ⟨group :: before, last, after, _, _, halt, rfl, .sets hsets hcollects, hhalts⟩
    · exact .inr ⟨[], group, gs, [], [], halt, rfl, .nil, hhalts⟩
    · rcases ih hothers with ⟨settings, unknown, hcollects⟩ |
        ⟨before, last, after, settings, unknown, halt, rfl, hcollects, hhalts⟩
      · exact .inl ⟨_, _, .unrecognised hnone hcollects⟩
      · exact .inr ⟨[argument] :: before, last, after, _, _, halt, rfl,
          .unrecognised hnone hcollects, hhalts⟩

/-! ### Settings -/

/-- What is known when groups have been read. -/
structure Holds (c : Collected) (settings : List Setting) (unknown : List String) : Prop where
  gives : Gives settings c.settings
  unrecognised_eq : c.unrecognised = unknown

theorem holds_start : Holds {} [] [] := by
  refine ⟨?_, rfl⟩
  constructor <;> simp

theorem Gives.add (h : Gives settings c.settings) (setting : Setting) :
    Gives (settings ++ [setting]) (c.add setting).settings := by
  cases setting <;> constructor <;>
    simp [Collected.add, Setting.input?, Setting.library?, Setting.directoriesOf,
      Setting.unresolved?, Setting.context?, Setting.threads?, Setting.shutdownMilliseconds?,
      h.inputs, h.libraries, h.classPath, h.unresolved, h.context, h.threads, h.shutdown, h.time]

theorem Holds.sets (h : Holds c settings unknown) (hsets : Sets group setting) :
    Holds (c.add setting) (settings ++ [setting]) unknown := by
  refine ⟨h.gives.add setting, ?_⟩
  rw [← h.unrecognised_eq]
  cases setting with
  | unrecognised other => exact absurd rfl (hsets.ne_unrecognised other)
  | _ => rfl

theorem Holds.unrecognised (h : Holds c settings unknown) (argument : String) :
    Holds (c.add (.unrecognised argument)) settings (unknown ++ [argument]) :=
  ⟨h.gives, congrArg (· ++ [argument]) h.unrecognised_eq⟩

def collect (reads : List (Except Halt Setting)) (c : Collected) : Except Halt Collected :=
  reads.foldlM (fun c read => read.map c.add) c

theorem Collects.collect (h : Collects gs settings unknown) {earlier : List Setting}
    {told : List String} (hc : Holds c earlier told) :
    ∃ last, Arguments.collect (gs.flatMap groups) c = .ok last ∧
      Holds last (earlier ++ settings) (told ++ unknown) := by
  induction h generalizing c earlier told with
  | nil => exact ⟨c, rfl, by simpa using hc⟩
  | @sets group setting gs settings unknown hsets _ ih =>
    obtain ⟨last, hlast, hholds⟩ := ih (hc.sets hsets)
    refine ⟨last, ?_, by simpa using hholds⟩
    rw [List.flatMap_cons, groups_of_sets hsets]
    exact hlast
  | @unrecognised argument gs settings unknown hnone _ ih =>
    obtain ⟨last, hlast, hholds⟩ := ih (hc.unrecognised argument)
    refine ⟨last, ?_, by simpa using hholds⟩
    rw [List.flatMap_cons, groups_of_unrecognised hnone]
    exact hlast

theorem Collects.collect_start (h : Collects gs settings unknown) :
    ∃ last, Arguments.collect (gs.flatMap groups) {} = .ok last ∧ Holds last settings unknown := by
  simpa using h.collect holds_start

/-! ### Outcomes -/

def conclude : Except Halt Collected → Except ArgumentFault Action
  | .error halt => halt.result
  | .ok c => c.finish

theorem parse_eq (arguments : List String) :
    parse arguments = conclude (collect (groups arguments) {}) := by
  unfold parse collect
  cases (groups arguments).foldlM (fun (c : Collected) read => read.map c.add) {} with
  | error halt => cases halt <;> rfl
  | ok c => rfl

theorem collect_append (reads more : List (Except Halt Setting)) (c : Collected) :
    collect (reads ++ more) c = collect reads c >>= collect more :=
  List.foldlM_append

theorem conclude_of_halts (hbefore : Collects before settings unknown) (hhalts : Halts group halt)
    (reads : List (Except Halt Setting)) :
    conclude (collect (before.flatMap groups ++ (groups group ++ reads)) {}) = halt.result := by
  obtain ⟨last, hlast, -⟩ := hbefore.collect_start
  rw [collect_append, hlast, groups_of_halts hhalts]
  rfl

theorem Gives.unique {link link' : LinkArguments} (h : Gives settings link)
    (h' : Gives settings link') : link = link' := by
  have htime : link.time = link'.time := Bool.eq_iff_iff.2 (h.time.trans h'.time.symm)
  cases link
  cases link'
  rw [LinkArguments.mk.injEq]
  exact ⟨h.inputs.trans h'.inputs.symm, h.libraries.trans h'.libraries.symm,
    h.classPath.trans h'.classPath.symm, h.unresolved.trans h'.unresolved.symm,
    h.context.trans h'.context.symm, h.threads.trans h'.threads.symm,
    h.shutdown.trans h'.shutdown.symm, htime⟩

theorem Gives.inputs_eq_nil_iff {link : LinkArguments} (h : Gives settings link) :
    link.inputs = [] ↔ ∀ setting ∈ settings, setting.kind ≠ .inputs := by
  rw [h.inputs, List.filterMap_eq_nil_iff]
  refine forall₂_congr fun setting _ => ?_
  cases setting <;> simp [Setting.input?, Setting.kind]

/-- What the groups say is what the reading comes to. -/
theorem Outcome.parse_eq (h : Outcome gs result) (hgrouped : Grouped gs) :
    parse gs.flatten = result := by
  rw [Arguments.parse_eq, hgrouped.groups_flatten]
  cases h with
  | halts after hbefore hhalts =>
    rw [List.flatMap_append, List.flatMap_cons]
    exact conclude_of_halts hbefore hhalts _
  | unrecognised hcollects hne =>
    obtain ⟨last, hlast, hholds⟩ := hcollects.collect_start
    rw [hlast, conclude, Collected.finish, hholds.unrecognised_eq]
    exact if_pos hne
  | noInputs hcollects hnone =>
    obtain ⟨last, hlast, hholds⟩ := hcollects.collect_start
    rw [hlast, conclude, Collected.finish, hholds.unrecognised_eq]
    exact (if_neg (by simp)).trans (if_pos (hholds.gives.inputs_eq_nil_iff.2 hnone))
  | links hcollects hinput hgives =>
    obtain ⟨last, hlast, hholds⟩ := hcollects.collect_start
    obtain rfl := hholds.gives.unique hgives
    have hinputs : last.settings.inputs ≠ [] := by
      rw [ne_eq, hholds.gives.inputs_eq_nil_iff]
      obtain ⟨setting, hmem, hkind⟩ := hinput
      exact fun hnone => hnone setting hmem hkind
    rw [hlast, conclude, Collected.finish, hholds.unrecognised_eq]
    exact (if_neg (by simp)).trans (if_neg hinputs)

theorem exists_outcome (hgrouped : Grouped gs) : ∃ result, Outcome gs result := by
  rcases collects_or_halts fun group => hgrouped.cases_of_mem with
    ⟨settings, unknown, hcollects⟩ |
      ⟨before, group, after, settings, unknown, halt, rfl, hcollects, hhalts⟩
  · obtain ⟨last, -, hholds⟩ := hcollects.collect_start
    by_cases hunknown : unknown = []
    · subst hunknown
      by_cases hinput : ∃ setting ∈ settings, setting.kind = .inputs
      · exact ⟨_, .links hcollects hinput hholds.gives⟩
      · exact ⟨_, .noInputs hcollects fun setting hmem hkind => hinput ⟨setting, hmem, hkind⟩⟩
    · exact ⟨_, .unrecognised hcollects hunknown⟩
  · exact ⟨_, .halts after hcollects hhalts⟩

theorem parse_eq_iff_outcome (hgrouped : Grouped gs) :
    parse gs.flatten = result ↔ Outcome gs result := by
  refine ⟨?_, fun h => h.parse_eq hgrouped⟩
  rintro rfl
  obtain ⟨result, houtcome⟩ := exists_outcome hgrouped
  rwa [houtcome.parse_eq hgrouped]

/-! ### Changes -/

theorem add_comm_of_kind_ne (h : setting.kind ≠ other.kind) :
    (c.add setting).add other = (c.add other).add setting := by
  cases setting <;> cases other <;> first | rfl | exact absurd rfl h

theorem Complete.grouped_cons_iff (h : Complete group) : Grouped (group :: gs) ↔ Grouped gs := by
  refine ⟨fun hgrouped => ?_, .cons h⟩
  cases hgrouped with
  | cons _ hothers => exact hothers
  | cut htakes => exact absurd rfl (h.append_ne_cut htakes [])

theorem parse_swapped {group' : List String}
    (hgrouped : Grouped (before ++ group :: group' :: after)) (h : Sets group setting)
    (h' : Sets group' other) (hkind : setting.kind ≠ other.kind) :
    parse (before ++ group' :: group :: after).flatten =
      parse (before ++ group :: group' :: after).flatten := by
  have hswapped : Grouped (before ++ group' :: group :: after) := by
    rw [grouped_append_iff (List.cons_ne_nil _ _), h'.complete.grouped_cons_iff,
      h.complete.grouped_cons_iff]
    rwa [grouped_append_iff (List.cons_ne_nil _ _), h.complete.grouped_cons_iff,
      h'.complete.grouped_cons_iff] at hgrouped
  have hread : ∀ c, collect ((group' :: group :: after).flatMap groups) c =
      collect ((group :: group' :: after).flatMap groups) c := by
    intro c
    simp only [List.flatMap_cons, groups_of_sets h, groups_of_sets h']
    exact congrArg (collect (after.flatMap groups)) (add_comm_of_kind_ne hkind.symm)
  rw [parse_eq, parse_eq, hswapped.groups_flatten, hgrouped.groups_flatten, List.flatMap_append,
    List.flatMap_append, collect_append, collect_append]
  congr 2
  exact funext hread

theorem Dashed.one (h : Dashed text ("--" ++ argument)) (hplain : text.toList.head? ≠ some '-') :
    Dashed text ("-" ++ argument) := by
  have htext : text = argument := by
    have hoption := optionText?_of_dashed h hplain
    rw [String.toList_append] at hoption
    exact String.toList_inj.1 (Option.some.inj hoption).symm
  exact .inl (by rw [htext])

theorem Dashed.value_one {option value : String} (h : Dashed (option ++ value) ("--" ++ argument))
    (hplain : option.toList.head?.any (· ≠ '-') = true) :
    Dashed (option ++ value) ("-" ++ argument) :=
  h.one (head?_append_of_plain hplain)

theorem TakesDirectories.one (h : TakesDirectories ("--" ++ argument)) :
    TakesDirectories ("-" ++ argument) := by
  rcases h with hshort | hdashed
  · simpa using congrArg String.toList hshort
  · exact .inr (hdashed.one (by decide))

theorem beginsWithDash_two (argument : String) : BeginsWithDash ("--" ++ argument) :=
  ⟨"-" ++ argument, by rw [← String.append_assoc]; rfl⟩

theorem Sets.one_dash {values : List String} (h : Sets (("--" ++ argument) :: values) setting) :
    Sets (("-" ++ argument) :: values) setting := by
  generalize hgroup : ("--" ++ argument) :: values = group at h
  cases h with
  | library name =>
    have hchars := congrArg String.toList (List.cons.inj hgroup).1
    simp at hchars
  | directories list htakes =>
    obtain ⟨rfl, rfl⟩ := List.cons.inj hgroup
    exact .directories list htakes.one
  | libraryHere hdashed =>
    obtain ⟨rfl, rfl⟩ := List.cons.inj hgroup
    exact .libraryHere (hdashed.value_one rfl)
  | directoriesHere hdashed =>
    obtain ⟨rfl, rfl⟩ := List.cons.inj hgroup
    exact .directoriesHere (hdashed.value_one rfl)
  | unresolved hdashed =>
    obtain ⟨rfl, rfl⟩ := List.cons.inj hgroup
    exact .unresolved (hdashed.value_one rfl)
  | context hdashed =>
    obtain ⟨rfl, rfl⟩ := List.cons.inj hgroup
    exact .context (hdashed.value_one rfl)
  | threads hdashed hcount hpos =>
    obtain ⟨rfl, rfl⟩ := List.cons.inj hgroup
    exact .threads (hdashed.value_one rfl) hcount hpos
  | timeout hdashed hcount =>
    obtain ⟨rfl, rfl⟩ := List.cons.inj hgroup
    exact .timeout (hdashed.value_one rfl) hcount
  | time hdashed =>
    obtain ⟨rfl, rfl⟩ := List.cons.inj hgroup
    exact .time (hdashed.one (by decide))
  | input hplain =>
    obtain ⟨rfl, rfl⟩ := List.cons.inj hgroup
    exact absurd (beginsWithDash_two argument) hplain
  | inputTo hplain =>
    exact absurd ((List.cons.inj hgroup).1 ▸ beginsWithDash_two argument) hplain

theorem Halts.one_dash_of_version {values : List String}
    (h : Halts (("--" ++ argument) :: values) .version) :
    Halts (("-" ++ argument) :: values) .version := by
  generalize hgroup : ("--" ++ argument) :: values = group at h
  cases h with
  | version hversion =>
    obtain ⟨rfl, rfl⟩ := List.cons.inj hgroup
    rcases hversion with hshort | hdashed
    · have hchars := congrArg String.toList hshort
      simp at hchars
    · exact .version (.inr (hdashed.one (by decide)))

theorem Halts.complete_of_version (h : Halts group .version) : Complete group := by
  cases hgroup : group with
  | nil =>
    rw [hgroup] at h
    cases h
  | cons argument values =>
    subst hgroup
    have hread := groups_of_halts h
    cases h with
    | version hversion =>
      refine .single fun htakes => ?_
      rcases htakes with rfl | htakes
      · cases (groups_of_halts .missingClass).symm.trans hread
      · cases (groups_of_halts (.missingDirectories htakes)).symm.trans hread

theorem Halt.eq_version_of_result {action : Action} (h : halt.result = .ok action) :
    halt = .version := by
  cases halt with
  | version => rfl
  | fault => cases h

theorem parse_of_halts (hcomplete : ∀ group ∈ before, Complete group)
    (hbefore : Collects before settings unknown) (hgroup : Complete group)
    (hhalts : Halts group halt) (rest : List String) :
    parse (before.flatten ++ (group ++ rest)) = halt.result := by
  rw [parse_eq, groups_flatten_append hcomplete, hgroup.groups_append]
  exact conclude_of_halts hbefore hhalts _

theorem parse_of_sets (hcomplete : ∀ group ∈ before, Complete group) (hsets : Sets group setting)
    (rest : List String) :
    parse (before.flatten ++ (group ++ rest)) =
      conclude (collect (before.flatMap groups ++ .ok setting :: groups rest) {}) := by
  rw [parse_eq, groups_flatten_append hcomplete, hsets.complete.groups_append,
    groups_of_sets hsets]
  rfl

/-- A successful outcome does not depend on how many dashes a long option has. -/
theorem parse_one_dash {values : List String} {action : Action}
    (hgrouped : Grouped (before ++ (("--" ++ argument) :: values) :: after))
    (hlong : ¬Unrecognised ("--" ++ argument))
    (h : parse (before ++ (("--" ++ argument) :: values) :: after).flatten = .ok action) :
    parse (before ++ (("-" ++ argument) :: values) :: after).flatten = .ok action := by
  have hcomplete := ((grouped_append_iff (List.cons_ne_nil _ _)).1 hgrouped).1
  have houtcome := (parse_eq_iff_outcome hgrouped).1 h
  rw [List.flatten_append, List.flatten_cons] at h ⊢
  rcases collects_or_halts fun group hgroup =>
      hgrouped.cases_of_mem (List.mem_append_left _ hgroup) with
    ⟨settings, unknown, hcollects⟩ |
      ⟨first, group, others, settings, unknown, halt, rfl, hcollects, hhalts⟩
  · rcases hgrouped.cases_of_mem (List.mem_append_right _ List.mem_cons_self) with
      ⟨setting, hsets⟩ | ⟨halt, hhalts⟩ | ⟨other, hother, hnone⟩
    · rwa [parse_of_sets hcomplete hsets.one_dash, ← parse_of_sets hcomplete hsets]
    · have hhalted := (Outcome.halts after hcollects hhalts).parse_eq hgrouped
      rw [List.flatten_append, List.flatten_cons, h] at hhalted
      obtain rfl := Halt.eq_version_of_result hhalted.symm
      have hone := hhalts.one_dash_of_version
      rw [parse_of_halts hcomplete hcollects hone.complete_of_version hone, hhalted]
    · obtain ⟨rfl, -⟩ := List.cons.inj hother
      exact absurd hnone hlong
  -- the reading ends before the option, so what the option is makes no difference
  · have hended : ∀ rest, parse ((first ++ group :: others).flatten ++ rest) = halt.result := by
      intro rest
      rw [List.flatten_append, List.flatten_cons, List.append_assoc, List.append_assoc]
      exact parse_of_halts (fun group hgroup => hcomplete group (List.mem_append_left _ hgroup))
        hcollects (hcomplete group (by simp)) hhalts _
    rwa [hended] at h ⊢

/-- Every command line is read in its groups, and what they say decides. An outcome is that of the
first group that ends the reading, whatever else there is. If there is none, the unrecognised
options are told of, then that there is no input, and else everything that is set is linked with.
So neighbouring groups can change places if they set different things, and where the reading
succeeds a long option can have one dash for two. -/
theorem parse_reads_groups :
    (∀ arguments, ∃! gs, Grouped gs ∧ gs.flatten = arguments) ∧
    (∀ gs result, Grouped gs → (parse gs.flatten = result ↔ Outcome gs result)) ∧
    (∀ before group group' after setting other, Grouped (before ++ group :: group' :: after) →
      Sets group setting → Sets group' other → setting.kind ≠ other.kind →
        parse (before ++ group' :: group :: after).flatten =
          parse (before ++ group :: group' :: after).flatten) ∧
    ∀ before argument values after action,
      Grouped (before ++ (("--" ++ argument) :: values) :: after) →
      ¬Unrecognised ("--" ++ argument) →
      parse (before ++ (("--" ++ argument) :: values) :: after).flatten = .ok action →
        parse (before ++ (("-" ++ argument) :: values) :: after).flatten = .ok action := by
  refine ⟨fun arguments => ?_, fun gs result => parse_eq_iff_outcome,
    fun before group group' after setting other => parse_swapped,
    fun before argument values after action => parse_one_dash⟩
  obtain ⟨gs, hgrouped, hflatten⟩ := exists_grouped arguments
  exact ⟨gs, ⟨hgrouped, hflatten⟩, fun gs' h' => h'.1.unique hgrouped (h'.2.trans hflatten.symm)⟩

/-- An option takes what looks like another one. -/
theorem parse_reads_groups_crossed :
    let line := [["-l", "--help"], ["--classpath", "a:b"], ["A.j=B.j"]]
    let link : LinkArguments :=
      { inputs := [("A.j", some "B.j")], libraries := ["--help"], classPath := ["a", "b"] }
    Grouped line ∧ Outcome line (.ok (.link link)) ∧
      parse ["-l", "--help", "-classpath", "a:b", "A.j=B.j"] = .ok (.link link) ∧
      parse ["--classpath", "a:b", "-l", "--help", "A.j=B.j"] = .ok (.link link) := by
  intro line link
  have htakes : TakesDirectories "--classpath" := .inr (.inr rfl)
  have hplain : ¬TakesNext "A.j=B.j" :=
    not_takesNext_of_plain (mt beginsWithDash_iff.1 (by decide))
  have hgrouped : Grouped line :=
    .cons (.taking _ (.inl rfl)) (.cons (.taking _ (.inr htakes)) (.cons (.single hplain) .nil))
  have hparsed : parse line.flatten = .ok (.link link) := by rfl
  obtain ⟨-, hdecides, hswaps, hone⟩ := parse_reads_groups
  refine ⟨hgrouped, (hdecides line _ hgrouped).1 hparsed, ?_, ?_⟩
  · exact hone [["-l", "--help"]] "classpath" ["a:b"] [["A.j=B.j"]] _ hgrouped
      (fun hnone => hnone.takes_none (.inr htakes)) hparsed
  · exact (hswaps [] _ _ [["A.j=B.j"]] _ _ hgrouped (.library "--help")
      (.directories "a:b" htakes) (by simp [Setting.kind])).trans hparsed

end Arguments
end UnitLink
