import UnitLink.Arguments
/-! What arguments say, one group at a time. A group sets something, or it ends the reading, or it
is an option that nothing is known of. -/
namespace UnitLink

def Halt.result : Halt → Except ArgumentFault Action
  | version => .ok .version
  | fault reason => .error reason

namespace Arguments

/-- A text behind one dash or two. -/
def Dashed (text argument : String) : Prop := argument = "-" ++ text ∨ argument = "--" ++ text

def BeginsWithDash (argument : String) : Prop := ∃ text, argument = "-" ++ text

def TakesDirectories (option : String) : Prop := option = "-cp" ∨ Dashed "classpath" option

/-- An option that the next argument belongs to, whatever it looks like. -/
def TakesNext (option : String) : Prop := option = "-l" ∨ TakesDirectories option

/-- What the arguments of a group set. -/
inductive Sets : List String → Setting → Prop
  | library (name : String) : Sets ["-l", name] (.library name)
  | libraryHere {argument name : String} : Dashed ("lib=" ++ name) argument →
      Sets [argument] (.library name)
  | directories {option : String} (list : String) : TakesDirectories option →
      Sets [option, list] (.directories (directoryList list.toList))
  | directoriesHere {argument list : String} : Dashed ("classpath=" ++ list) argument →
      Sets [argument] (.directories (directoryList list.toList))
  | unresolved {argument name : String} : Dashed ("unresolved=" ++ name) argument →
      Sets [argument] (.unresolved name)
  | context {argument name : String} : Dashed ("context=" ++ name) argument →
      Sets [argument] (.context name)
  | threads {argument text : String} {count : Nat} : Dashed ("threads=" ++ text) argument →
      Text.numeral largest text.toList = .ok count → count ≠ 0 → Sets [argument] (.threads count)
  | timeout {argument text : String} {count : Nat} :
      Dashed ("shutdown-timeout-ms=" ++ text) argument →
      Text.numeral largest text.toList = .ok count →
      Sets [argument] (.shutdownMilliseconds count)
  | time {argument : String} : Dashed "time" argument → Sets [argument] .time
  | input {path : String} : ¬BeginsWithDash path → '=' ∉ path.toList →
      Sets [path] (.input path none)
  | inputTo {path output : String} : ¬BeginsWithDash (path ++ "=" ++ output) →
      '=' ∉ path.toList → Sets [path ++ "=" ++ output] (.input path (some output))

/-- A group that ends the reading. -/
inductive Halts : List String → Halt → Prop
  | version {argument : String} : argument = "-v" ∨ Dashed "version" argument →
      Halts [argument] .version
  | help {argument : String} : Dashed "help" argument → Halts [argument] (.fault .helpWanted)
  | missingClass : Halts ["-l"] (.fault .missingClass)
  | missingDirectories {option : String} : TakesDirectories option →
      Halts [option] (.fault (.missingDirectories option))
  | badThreads {argument text : String} {fault : Text.NumeralFault} :
      Dashed ("threads=" ++ text) argument →
      Text.numeral largest text.toList = .error fault →
      Halts [argument] (.fault (.badThreads text fault))
  | zeroThreads {argument text : String} : Dashed ("threads=" ++ text) argument →
      Text.numeral largest text.toList = .ok 0 → Halts [argument] (.fault .zeroThreads)
  | badTimeout {argument text : String} {fault : Text.NumeralFault} :
      Dashed ("shutdown-timeout-ms=" ++ text) argument →
      Text.numeral largest text.toList = .error fault →
      Halts [argument] (.fault (.badTimeout text fault))

/-- An option that is none of those there are. -/
structure Unrecognised (argument : String) : Prop where
  dashed : BeginsWithDash argument
  takes_none : ¬TakesNext argument
  sets_nothing : ∀ setting, ¬Sets [argument] setting
  not_halts : ∀ halt, ¬Halts [argument] halt

variable {group : List String} {argument option value text : String} {setting : Setting}
  {halt : Halt}

/-! ### Options -/

theorem optionText?_of_dashed (h : Dashed text argument) (hplain : text.toList.head? ≠ some '-') :
    optionText? argument.toList = some text.toList := by
  rcases h with rfl | rfl
  · rw [String.toList_append, show "-".toList = ['-'] from rfl]
    unfold optionText?
    split <;> simp_all
  · rw [String.toList_append, show "--".toList = ['-', '-'] from rfl]
    rfl

theorem dashed_of_optionText? {cs : List Char} (h : optionText? argument.toList = some cs) :
    Dashed (String.ofList cs) argument := by
  unfold optionText? at h
  split at h
  · rename_i text hchars
    obtain rfl := Option.some.inj h
    exact .inr (String.toList_inj.1 (by simp [hchars]))
  · rename_i text _ hchars
    obtain rfl := Option.some.inj h
    exact .inl (String.toList_inj.1 (by simp [hchars]))
  · cases h

theorem isOption_iff (hplain : option.toList.head? ≠ some '-') :
    isOption option argument.toList = true ↔ Dashed option argument := by
  unfold isOption
  rw [beq_iff_eq]
  constructor
  · intro h
    simpa using dashed_of_optionText? h
  · exact fun h => optionText?_of_dashed h hplain

theorem dashed_of_optionValue? {cs : List Char}
    (h : optionValue? option argument.toList = some cs) :
    Dashed (option ++ "=" ++ String.ofList cs) argument := by
  unfold optionValue? Text.dropBeginning? at h
  obtain ⟨text, htext, hvalue⟩ := Option.bind_eq_some_iff.1 h
  obtain ⟨hstarts, hrest⟩ := Option.ite_none_right_eq_some.1 hvalue
  obtain ⟨rest, rfl⟩ := List.isPrefixOf_iff_prefix.1 hstarts
  obtain rfl : rest = cs := by simpa using hrest
  have hwritten : String.ofList (option.toList ++ ['='] ++ rest) =
      option ++ "=" ++ String.ofList rest := String.toList_inj.1 (by simp)
  exact hwritten ▸ dashed_of_optionText? htext

theorem takesDirectories_iff :
    takesDirectories argument = true ↔ TakesDirectories argument := by
  unfold takesDirectories TakesDirectories
  rw [Bool.or_eq_true, beq_iff_eq, isOption_iff (by decide)]

theorem TakesDirectories.ne_library (h : TakesDirectories option) : option ≠ "-l" := by
  rintro rfl
  exact absurd (takesDirectories_iff.2 h) (by decide)

theorem not_dashed_of_plain (h : ¬BeginsWithDash argument) : ¬Dashed text argument := by
  rintro (rfl | rfl)
  · exact h ⟨text, rfl⟩
  · exact h ⟨"-" ++ text, by rw [← String.append_assoc]; rfl⟩

theorem beginsWithDash_iff : BeginsWithDash argument ↔ argument.toList.head? = some '-' := by
  constructor
  · rintro ⟨text, rfl⟩
    rw [String.toList_append]
    rfl
  · intro h
    obtain ⟨cs, hcs⟩ := List.head?_eq_some_iff.1 h
    exact ⟨String.ofList cs, String.toList_inj.1 (by simp [hcs])⟩

/-! ### Groups -/

theorem head?_append_of_plain (hplain : option.toList.head?.any (· ≠ '-') = true) :
    (option ++ value).toList.head? ≠ some '-' := by
  cases hcs : option.toList with
  | nil => simp [hcs] at hplain
  | cons c cs => simpa [hcs] using hplain

theorem not_takesNext_of_plain (h : ¬BeginsWithDash argument) : ¬TakesNext argument := by
  rintro (rfl | rfl | hlong)
  · exact h ⟨"l", rfl⟩
  · exact h ⟨"cp", rfl⟩
  · exact not_dashed_of_plain h hlong

/-- Only these texts make an option that takes the next argument. -/
theorem not_takesNext_of_dashed (h : Dashed text argument) (hplain : text.toList.head? ≠ some '-')
    (hother : text ∉ ["l", "cp", "classpath"]) : ¬TakesNext argument := by
  have htext := optionText?_of_dashed h hplain
  have hsame : ∀ other : String, optionText? argument.toList = some other.toList →
      text = other := fun other hsome =>
    String.toList_inj.1 (Option.some.inj (htext.symm.trans hsome))
  rintro (rfl | rfl | hlong)
  · exact hother (by simp [hsame "l" rfl])
  · exact hother (by simp [hsame "cp" rfl])
  · exact hother (by simp [hsame "classpath" (optionText?_of_dashed hlong (by decide))])

theorem groups_library (name : String) (rest : List String) :
    groups ("-l" :: name :: rest) = .ok (.library name) :: groups rest := by
  rw [groups, if_pos rfl]

theorem groups_directories (h : TakesDirectories option) (list : String) (rest : List String) :
    groups (option :: list :: rest) =
      .ok (.directories (directoryList list.toList)) :: groups rest := by
  rw [groups, if_neg h.ne_library, if_pos (takesDirectories_iff.2 h)]

theorem groups_single (h : ¬TakesNext argument) (rest : List String) :
    groups (argument :: rest) = single argument.toList :: groups rest := by
  have hlibrary : argument ≠ "-l" := fun heq => h (.inl heq)
  have hdirectories : takesDirectories argument ≠ true := fun htakes =>
    h (.inr (takesDirectories_iff.1 htakes))
  cases rest with
  | nil => simp [groups, hlibrary, hdirectories]
  | cons next rest => rw [groups, if_neg hlibrary, if_neg hdirectories]

theorem groups_of_dashed {read : Except Halt Setting} (h : Dashed text argument)
    (hplain : text.toList.head? ≠ some '-') (hother : text ∉ ["l", "cp", "classpath"])
    (hone : single ("-" ++ text).toList = read) (htwo : single ("--" ++ text).toList = read) :
    groups [argument] = [read] := by
  rw [groups_single (not_takesNext_of_dashed h hplain hother), groups]
  rcases h with rfl | rfl
  · rw [hone]
  · rw [htwo]

theorem groups_of_value (read : List Char → Except Halt Setting)
    (h : Dashed (option ++ value) argument) (hplain : option.toList.head?.any (· ≠ '-') = true)
    (hequals : '=' ∈ option.toList)
    (hone : ∀ cs, single ("-".toList ++ (option.toList ++ cs)) = read cs)
    (htwo : ∀ cs, single ("--".toList ++ (option.toList ++ cs)) = read cs) :
    groups [argument] = [read value.toList] := by
  refine groups_of_dashed h (head?_append_of_plain hplain) (fun hmem => ?_) ?_ ?_
  · have hnone : ∀ text ∈ ["l", "cp", "classpath"], '=' ∉ text.toList := by decide
    exact hnone _ hmem (by simp [hequals])
  · simpa using hone value.toList
  · simpa using htwo value.toList

theorem threads_eq_ok {count : Nat} (h : Text.numeral largest text.toList = .ok count) :
    threads text.toList =
      if count = 0 then .error (.fault .zeroThreads) else .ok (.threads count) := by
  unfold threads
  rw [h]
  cases count <;> rfl

theorem single_of_plain (h : ¬BeginsWithDash argument) :
    single argument.toList = .ok (input argument.toList) := by
  have hnone : optionText? argument.toList = none := by
    cases htext : optionText? argument.toList with
    | none => rfl
    | some cs => exact absurd (dashed_of_optionText? htext) (not_dashed_of_plain h)
  have hvalue : ∀ option, optionValue? option argument.toList = none := by
    intro option
    rw [optionValue?, hnone]
    rfl
  have hoption : ∀ option, isOption option argument.toList = false := by
    intro option
    rw [isOption, hnone]
    rfl
  rw [beginsWithDash_iff] at h
  have hshort : (argument.toList == ['-', 'v']) = false :=
    beq_false_of_ne fun heq => h (by rw [heq]; rfl)
  unfold single
  simp only [hvalue, hoption, hshort, Bool.or_false, Bool.false_eq_true, if_false, if_neg h]

theorem groups_of_sets (h : Sets group setting) : groups group = [.ok setting] := by
  cases h with
  | library name => exact groups_library name []
  | directories list htakes => exact groups_directories htakes list []
  | libraryHere hdashed =>
    rw [groups_of_value (fun cs => .ok (.library (String.ofList cs))) hdashed rfl (by decide)
      (fun _ => rfl) fun _ => rfl, String.ofList_toList]
  | directoriesHere hdashed =>
    exact groups_of_value (fun cs => .ok (.directories (directoryList cs))) hdashed rfl (by decide)
      (fun _ => rfl) fun _ => rfl
  | unresolved hdashed =>
    rw [groups_of_value (fun cs => .ok (.unresolved (String.ofList cs))) hdashed rfl (by decide)
      (fun _ => rfl) fun _ => rfl, String.ofList_toList]
  | context hdashed =>
    rw [groups_of_value (fun cs => .ok (.context (String.ofList cs))) hdashed rfl (by decide)
      (fun _ => rfl) fun _ => rfl, String.ofList_toList]
  | threads hdashed hcount hpos =>
    rw [groups_of_value threads hdashed rfl (by decide) (fun _ => rfl) fun _ => rfl,
      threads_eq_ok hcount, if_neg hpos]
  | timeout hdashed hcount =>
    rw [groups_of_value timeout hdashed rfl (by decide) (fun _ => rfl) fun _ => rfl, timeout,
      hcount]
  | time hdashed => exact groups_of_dashed hdashed (by decide) (by decide) rfl rfl
  | input hplain hequals =>
    have hnone := Text.cutFirst_eq_none_iff.2 fun c hc =>
      beq_false_of_ne (ne_of_mem_of_not_mem hc hequals)
    rw [groups_single (not_takesNext_of_plain hplain), single_of_plain hplain, input, hnone,
      String.ofList_toList]
    rfl
  | @inputTo path output hplain hequals =>
    have hcut : Text.cutFirst (· == '=') (path ++ "=" ++ output).toList =
        some (path.toList, output.toList) :=
      Text.cutFirst_eq_some_iff.2
        ⟨fun c hc => beq_false_of_ne (ne_of_mem_of_not_mem hc hequals), '=', rfl, by simp⟩
    rw [groups_single (not_takesNext_of_plain hplain), single_of_plain hplain, input, hcut]
    simp [groups]

theorem groups_of_halts (h : Halts group halt) : groups group = [.error halt] := by
  cases h with
  | version hversion =>
    rcases hversion with rfl | hdashed
    · rfl
    · exact groups_of_dashed hdashed (by decide) (by decide) rfl rfl
  | help hdashed => exact groups_of_dashed hdashed (by decide) (by decide) rfl rfl
  | missingClass => rfl
  | missingDirectories htakes =>
    rw [groups, if_neg htakes.ne_library, if_pos (takesDirectories_iff.2 htakes)]
  | badThreads hdashed hfault =>
    rw [groups_of_value threads hdashed rfl (by decide) (fun _ => rfl) fun _ => rfl, threads,
      hfault, String.ofList_toList]
  | zeroThreads hdashed hzero =>
    rw [groups_of_value threads hdashed rfl (by decide) (fun _ => rfl) fun _ => rfl,
      threads_eq_ok hzero, if_pos rfl]
  | badTimeout hdashed hfault =>
    rw [groups_of_value timeout hdashed rfl (by decide) (fun _ => rfl) fun _ => rfl, timeout,
      hfault, String.ofList_toList]

theorem threads_cases (h : Dashed ("threads=" ++ text) argument) :
    (∃ setting, Sets [argument] setting) ∨ ∃ halt, Halts [argument] halt := by
  cases hcount : Text.numeral largest text.toList with
  | error fault => exact .inr ⟨_, .badThreads h hcount⟩
  | ok count =>
    cases count with
    | zero => exact .inr ⟨_, .zeroThreads h hcount⟩
    | succ count => exact .inl ⟨_, .threads h hcount (Nat.succ_ne_zero count)⟩

theorem timeout_cases (h : Dashed ("shutdown-timeout-ms=" ++ text) argument) :
    (∃ setting, Sets [argument] setting) ∨ ∃ halt, Halts [argument] halt := by
  cases hcount : Text.numeral largest text.toList with
  | error fault => exact .inr ⟨_, .badTimeout h hcount⟩
  | ok count => exact .inl ⟨_, .timeout h hcount⟩

theorem exists_sets_of_plain (h : ¬BeginsWithDash argument) :
    ∃ setting, Sets [argument] setting := by
  cases hcut : Text.cutFirst (· == '=') argument.toList with
  | none =>
    have hnone := Text.cutFirst_eq_none_iff.1 hcut
    exact ⟨_, .input h fun hmem => absurd (hnone _ hmem) (by decide)⟩
  | some parts =>
    obtain ⟨path, output⟩ := parts
    obtain ⟨hnone, c, hc, hchars⟩ := Text.cutFirst_eq_some_iff.1 hcut
    obtain rfl := eq_of_beq hc
    have hwritten : argument = String.ofList path ++ "=" ++ String.ofList output :=
      String.toList_inj.1 (by simp [hchars])
    rw [hwritten] at h ⊢
    refine ⟨_, .inputTo h fun hmem => ?_⟩
    rw [String.toList_ofList] at hmem
    exact absurd (hnone _ hmem) (by decide)

/-- An argument by itself sets something, or ends the reading, or is an option that is none. -/
theorem single_cases (argument : String) :
    (∃ setting, Sets [argument] setting) ∨ (∃ halt, Halts [argument] halt) ∨
      BeginsWithDash argument ∧ single argument.toList = .ok (.unrecognised argument) := by
  have hvalue : ∀ {option : String} {cs : List Char},
      optionValue? option argument.toList = some cs →
        Dashed (option ++ "=" ++ String.ofList cs) argument := fun h => dashed_of_optionValue? h
  generalize hread : single argument.toList = read
  unfold single at hread
  split at hread
  case h_1 name h => exact .inl ⟨_, .libraryHere (hvalue h)⟩
  split at hread
  case h_1 list h => exact .inl ⟨_, .directoriesHere (hvalue h)⟩
  split at hread
  case h_1 name h => exact .inl ⟨_, .unresolved (hvalue h)⟩
  split at hread
  case h_1 name h => exact .inl ⟨_, .context (hvalue h)⟩
  split at hread
  case h_1 count h => exact (threads_cases (hvalue h)).imp_right .inl
  split at hread
  case h_1 count h => exact (timeout_cases (hvalue h)).imp_right .inl
  split at hread
  case isTrue h => exact .inl ⟨_, .time ((isOption_iff (by decide)).1 h)⟩
  split at hread
  case isTrue h =>
    rw [Bool.or_eq_true, isOption_iff (by decide), beq_iff_eq] at h
    have hshort : argument.toList = ['-', 'v'] → argument = "-v" := fun heq =>
      String.toList_inj.1 (heq.trans rfl)
    exact .inr (.inl ⟨_, .version (h.symm.imp_left hshort)⟩)
  split at hread
  case isTrue h => exact .inr (.inl ⟨_, .help ((isOption_iff (by decide)).1 h)⟩)
  split at hread
  case isTrue h =>
    rw [String.ofList_toList] at hread
    exact .inr (.inr ⟨beginsWithDash_iff.2 h, hread.symm⟩)
  case isFalse h => exact .inl (exists_sets_of_plain (mt beginsWithDash_iff.1 h))

theorem groups_of_unrecognised (h : Unrecognised argument) :
    groups [argument] = [.ok (.unrecognised argument)] := by
  rw [groups_single h.takes_none, groups]
  rcases single_cases argument with ⟨setting, hsets⟩ | ⟨halt, hhalts⟩ | ⟨-, hread⟩
  · exact absurd hsets (h.sets_nothing setting)
  · exact absurd hhalts (h.not_halts halt)
  · rw [hread]

theorem Sets.ne_unrecognised (h : Sets group setting) (other : String) :
    setting ≠ .unrecognised other := by
  cases h <;> simp

theorem single_group_cases (h : ¬TakesNext argument) :
    (∃ setting, Sets [argument] setting) ∨ (∃ halt, Halts [argument] halt) ∨
      Unrecognised argument := by
  rcases single_cases argument with hsets | hhalts | ⟨hdash, hread⟩
  · exact .inl hsets
  · exact .inr (.inl hhalts)
  · have hgroups : groups [argument] = [.ok (.unrecognised argument)] := by
      rw [groups_single h, hread, groups]
    refine .inr (.inr ⟨hdash, h, fun setting hsets => ?_, fun halt hhalts => ?_⟩)
    · obtain rfl := Except.ok.inj (List.singleton_inj.1 ((groups_of_sets hsets).symm.trans hgroups))
      exact hsets.ne_unrecognised argument rfl
    · cases (groups_of_halts hhalts).symm.trans hgroups

end Arguments
end UnitLink
