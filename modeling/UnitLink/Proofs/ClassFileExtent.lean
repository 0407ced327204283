import UnitLink.Proofs.ClassFileEncoding
/-! How far a class file extends. What a reader accepts, it accepts for the bytes that it takes:
others may follow them, but if some of them are missing it finds its input truncated. -/
namespace UnitLink.ClassFile

/-- What the reader accepts starts with the data that it takes, and these go with its value. -/
def Takes {α : Type} (reader : Reader α) (P : List UInt8 → α → Prop) : Prop :=
  ∀ input value after, reader.run input = .ok (value, after) →
    ∃ taken, input.rest = taken ++ after.rest ∧ P taken value

section Taking

variable {α β : Type} {reader : Reader α} {P : List UInt8 → α → Prop}

theorem takes_pure {value : α} (h : P [] value) : Takes (pure value) P := by
  intro input found after hrun
  obtain ⟨rfl, rfl⟩ := Prod.mk.inj (Except.ok.inj hrun)
  exact ⟨[], rfl, h⟩

theorem takes_throw (fault : ClassFileFault) : Takes (throw fault) P := by
  intro input found after hrun
  cases hrun

theorem takes_bytes {n : Nat} {P : List UInt8 → List UInt8 → Prop}
    (h : ∀ data, data.length = n → P data data) : Takes (bytes n) P := by
  intro input found after hrun
  change bytes n input = _ at hrun
  unfold bytes at hrun
  split at hrun
  · rename_i taken rest htake
    obtain ⟨rfl, rfl⟩ := Prod.mk.inj (Except.ok.inj hrun)
    obtain ⟨hlength, hrest⟩ := takeExactly_eq_some_iff.1 htake
    exact ⟨taken, hrest, h taken hlength⟩
  · cases hrun

theorem Takes.bind {f : α → Reader β} {Q : List UInt8 → β → Prop} (h : Takes reader P)
    (hf : ∀ data value, P data value → Takes (f value) fun more result => Q (data ++ more) result) :
    Takes (reader >>= f) Q := by
  intro input result after hrun
  rw [StateT.run_bind] at hrun
  cases hfirst : reader.run input with
  | error fault =>
    rw [hfirst] at hrun
    cases hrun
  | ok first =>
    obtain ⟨value, between⟩ := first
    rw [hfirst] at hrun
    obtain ⟨data, hdata, hvalue⟩ := h input value between hfirst
    obtain ⟨more, hmore, hresult⟩ := hf data value hvalue between result after hrun
    exact ⟨data ++ more, by rw [hdata, hmore, List.append_assoc], hresult⟩

theorem Takes.mono {Q : List UInt8 → α → Prop} (h : Takes reader P)
    (hPQ : ∀ data value, P data value → Q data value) : Takes reader Q := by
  intro input value after hrun
  obtain ⟨taken, hrest, htaken⟩ := h input value after hrun
  exact ⟨taken, hrest, hPQ taken value htaken⟩

theorem Takes.map {f : α → β} {Q : List UInt8 → β → Prop} (h : Takes reader P)
    (hf : ∀ data value, P data value → Q data (f value)) : Takes (f <$> reader) Q := by
  rw [map_eq_pure_bind]
  exact h.bind fun data value hvalue => takes_pure (by simpa using hf data value hvalue)

end Taking

/-- A reader that takes just these data, and finds its input truncated if it has not all of them. -/
structure Exact {α : Type} (reader : Reader α) (taken : List UInt8) (value : α) : Prop where
  reads : Reads reader taken value
  truncated : ∀ offset k, k < taken.length →
    ∃ place, reader.run ⟨offset, taken.take k⟩ = .error (.truncated place)

/-- What the reader accepts, it reads exactly. -/
def Exacting {α : Type} (reader : Reader α) : Prop := Takes reader (Exact reader)

section Exacting

variable {α β : Type} {reader : Reader α}

theorem Exact.bind {f : α → Reader β} {data more : List UInt8} {value : α} {result : β}
    (h : Exact reader data value) (hf : Exact (f value) more result) :
    Exact (reader >>= f) (data ++ more) result where
  reads := h.reads.bind hf.reads
  truncated := by
    intro offset k hk
    rw [StateT.run_bind, List.take_append]
    rcases Nat.lt_or_ge k data.length with hlt | hge
    · obtain ⟨place, hplace⟩ := h.truncated offset k hlt
      refine ⟨place, ?_⟩
      rw [Nat.sub_eq_zero_of_le (Nat.le_of_lt hlt), List.take_zero, List.append_nil, hplace]
      rfl
    · have hmore : k - data.length < more.length := by
        rw [List.length_append] at hk
        omega
      obtain ⟨place, hplace⟩ := hf.truncated (offset + data.length) (k - data.length) hmore
      refine ⟨place, ?_⟩
      rw [List.take_of_length_le hge, h.reads offset (more.take (k - data.length))]
      exact hplace

theorem exacting_pure (value : α) : Exacting (pure value : Reader α) :=
  takes_pure ⟨reads_pure value, by simp⟩

theorem exacting_throw (fault : ClassFileFault) : Exacting (throw fault : Reader α) :=
  takes_throw fault

theorem exacting_bytes (n : Nat) : Exacting (bytes n) := by
  refine takes_bytes fun data hlength =>
    ⟨hlength ▸ reads_bytes data, fun offset k hk => ⟨offset, ?_⟩⟩
  change bytes n _ = _
  unfold bytes
  cases htake : takeExactly n (data.take k) with
  | none => rfl
  | some taken =>
    obtain ⟨taken, rest⟩ := taken
    obtain ⟨htaken, happend⟩ := takeExactly_eq_some_iff.1 htake
    have hshort := congrArg List.length happend
    rw [List.length_take, List.length_append] at hshort
    omega

theorem Exacting.bind {f : α → Reader β} (h : Exacting reader) (hf : ∀ value, Exacting (f value)) :
    Exacting (reader >>= f) :=
  Takes.bind h fun _ value hvalue => (hf value).mono fun _ _ hresult => hvalue.bind hresult

theorem Exacting.map (f : α → β) (h : Exacting reader) : Exacting (f <$> reader) := by
  rw [map_eq_pure_bind]
  exact h.bind fun value => exacting_pure (f value)

theorem Exacting.discard (h : Exacting reader) : Exacting (discard reader) := h.map _

theorem exacting_repeated (h : Exacting reader) (n : Nat) : Exacting (repeated reader n) := by
  induction n with
  | zero => exact exacting_pure []
  | succ n ih => exact h.bind fun first => ih.bind fun others => exacting_pure (first :: others)

end Exacting

/-! ### The parts of a class file -/

theorem exacting_skip (n : Nat) : Exacting (skip n) := (exacting_bytes n).discard

theorem exacting_u16 : Exacting u16 := (exacting_bytes 2).map bigEndian

theorem exacting_u32 : Exacting u32 := (exacting_bytes 4).map bigEndian

theorem exacting_constant (index : Nat) : Exacting (constant index) := by
  have hskip : ∀ (n : Nat) (entry : Constant × Bool),
      Exacting (do skip n; return entry) :=
    fun n entry => (exacting_skip n).bind fun _ => exacting_pure entry
  unfold constant
  refine ((exacting_bytes 1).map bigEndian).bind fun tag => ?_
  split
  · exact exacting_u16.bind fun length => (exacting_bytes length).bind fun _ => exacting_pure _
  · exact exacting_u16.bind fun _ => exacting_pure _
  all_goals first | exact hskip _ _ | exact exacting_throw _

theorem exacting_constantsFrom (count : Nat) (pool : ConstantPool) :
    Exacting (constantsFrom count pool) := by
  fun_induction constantsFrom count pool with
  | case1 pool hlt ihWide ihNarrow =>
    refine (exacting_constant pool.size).bind fun (entry, wide) => ?_
    cases wide with
    | true => exact ihWide entry
    | false => exact ihNarrow entry
  | case2 pool hge => exact exacting_pure pool

theorem exacting_constantPool : Exacting constantPool :=
  exacting_u16.bind fun count => exacting_constantsFrom count #[.other]

theorem exacting_utf8At (pool : ConstantPool) (index : Nat) : Exacting (utf8At pool index) := by
  unfold utf8At
  split
  · exact exacting_pure _
  · exact exacting_throw _

theorem exacting_classAt (pool : ConstantPool) (index : Nat) : Exacting (classAt pool index) := by
  unfold classAt
  split
  · exact (exacting_utf8At pool _).bind fun _ => exacting_pure _
  · exact exacting_throw _

theorem exacting_accessFlags : Exacting accessFlags := exacting_u16.bind fun _ => exacting_pure _

theorem exacting_skipAttributes : Exacting skipAttributes :=
  exacting_u16.bind fun count =>
    (exacting_repeated ((exacting_skip 2).bind fun _ => exacting_u32.bind exacting_skip)
      count).discard

theorem exacting_member (kind : MemberKind) (pool : ConstantPool) (owner : ClassName) :
    Exacting (member kind pool owner) := by
  unfold member
  refine exacting_accessFlags.bind fun modifiers => ?_
  refine exacting_u16.bind fun name => (exacting_utf8At pool name).bind fun name => ?_
  refine exacting_u16.bind fun index => (exacting_utf8At pool index).bind fun descriptor => ?_
  refine exacting_skipAttributes.bind fun _ => ?_
  split
  · exact exacting_pure _
  · exact exacting_throw _

theorem exacting_superclass (pool : ConstantPool) (index : Nat) {α : Type}
    {f : Option ClassName → Reader α} (hf : ∀ superclass, Exacting (f superclass)) :
    Exacting (if index = 0 then pure none >>= f
      else (some <$> classAt pool index) >>= f) := by
  split
  · exact (exacting_pure none).bind hf
  · exact ((exacting_classAt pool index).map some).bind hf

theorem exacting_classUnit : Exacting classUnit := by
  unfold classUnit
  refine exacting_u32.bind fun found => ?_
  split
  · exact exacting_throw (.badMagic found)
  refine (exacting_skip 2).bind fun _ => (exacting_skip 2).bind fun _ => ?_
  refine exacting_constantPool.bind fun pool => exacting_accessFlags.bind fun modifiers => ?_
  refine exacting_u16.bind fun index => (exacting_classAt pool index).bind fun name => ?_
  refine exacting_u16.bind fun index => exacting_superclass pool index fun superclass => ?_
  have hclass : Exacting (do classAt pool (← u16)) := exacting_u16.bind (exacting_classAt pool)
  refine exacting_u16.bind fun count => (exacting_repeated hclass count).bind fun interfaces => ?_
  refine exacting_u16.bind fun count =>
    (exacting_repeated (exacting_member .field pool name) count).bind fun fields => ?_
  refine exacting_u16.bind fun count =>
    (exacting_repeated (exacting_member .method pool name) count).bind fun methods => ?_
  exact exacting_skipAttributes.bind fun _ => exacting_pure _

theorem parse_eq_ok_iff {data : List UInt8} {unit : ClassUnit} :
    parse data = .ok unit ↔ ∃ after, classUnit.run ⟨0, data⟩ = .ok (unit, after) := by
  unfold parse
  cases classUnit.run ⟨0, data⟩ with
  | error fault => simp [Except.map]
  | ok result => simp [Except.map, Prod.ext_iff]

/-- A class file has an end that can be told from its beginning: with bytes missing before that end
it is refused, and with any bytes after it the class is the same. -/
theorem parse_takes_prefix {data : List UInt8} {unit : ClassUnit} (h : parse data = .ok unit) :
    ∃ n ≤ data.length,
      (∀ start, start <+: data → start.length < n →
        ∃ place, parse start = .error (.truncated place)) ∧
      ∀ more, parse (data.take n ++ more) = .ok unit := by
  obtain ⟨after, hrun⟩ := parse_eq_ok_iff.1 h
  obtain ⟨taken, hdata, hexact⟩ := exacting_classUnit ⟨0, data⟩ unit after hrun
  have hdata : data = taken ++ after.rest := hdata
  refine ⟨taken.length, by simp [hdata], fun start hstart hlt => ?_, fun more => ?_⟩
  · obtain ⟨place, hplace⟩ := hexact.truncated 0 start.length hlt
    have htake : start = taken.take start.length := by
      rw [← List.prefix_iff_eq_take]
      exact List.prefix_of_prefix_length_le hstart (hdata ▸ List.prefix_append _ _)
        (Nat.le_of_lt hlt)
    refine ⟨place, ?_⟩
    rw [parse, htake, hplace]
    rfl
  · rw [hdata, List.take_left]
    exact parse_eq_ok_iff.2 ⟨_, hexact.reads 0 more⟩

/-- A class file with two more bytes after it. The last entry of the pool takes an index more than
the pool has, and the field has an attribute. -/
def followed : List UInt8 :=
  [0xCA, 0xFE, 0xBA, 0xBE, 0, 0, 0, 52, 0, 6, 1, 0, 1, 0x41, 7, 0, 1, 1, 0, 1, 0x78, 1, 0, 1, 0x49,
    5, 0, 0, 0, 0, 0, 0, 0, 1, 0, 1, 0, 2, 0, 0, 0, 0, 0, 1, 0, 2, 0, 3, 0, 4, 0, 1, 0, 1, 0, 0, 0, 2,
    7, 7, 0, 0, 0, 0, 9, 9]

theorem parse_takes_prefix_followed :
    let unit : ClassUnit :=
      { name := .ofString "A", modifiers := .ofAccessFlags 1, superclass := none, interfaces := [],
        methods := [], fields := [⟨.ofString "A", "x", "I", .ofAccessFlags 2⟩] }
    parse followed = .ok unit ∧
      ∃ n ≤ followed.length,
        (∀ start, start <+: followed → start.length < n →
          ∃ place, parse start = .error (.truncated place)) ∧
        ∀ more, parse (followed.take n ++ more) = .ok unit := by
  intro unit
  have hparsed : parse followed = .ok unit := by decide +kernel
  exact ⟨hparsed, parse_takes_prefix hparsed⟩

end UnitLink.ClassFile
