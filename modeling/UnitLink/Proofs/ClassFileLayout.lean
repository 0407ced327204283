import Mathlib.Data.List.Induction
import UnitLink.Proofs.ClassFileExtent
/-! Class files as they are found. All that is accepted is laid out in the parts of a class file.
A record of a field or a method points to two texts; these are put together, and the member's name
and type are what the one text is read as. -/
namespace UnitLink.ClassFile

/-! ### What is taken -/

section Taking

variable {α β γ : Type} {reader : Reader α} {encode : β → List UInt8}

theorem bigEndianBytes_bigEndian (data : List UInt8) :
    bigEndian data < limit data.length ∧ bigEndianBytes data.length (bigEndian data) = data := by
  induction data using List.reverseRecOn with
  | nil => exact ⟨by decide, rfl⟩
  | append_singleton data last ih =>
    obtain ⟨hlt, hbytes⟩ := ih
    have hlast := last.toNat_lt
    have hvalue : bigEndian (data ++ [last]) = 256 * bigEndian data + last.toNat := by
      simp [bigEndian]
    have hhigh : (256 * bigEndian data + last.toNat) / 256 = bigEndian data := by omega
    have hlow : UInt8.ofNat (256 * bigEndian data + last.toNat) = last := by
      apply UInt8.toNat_inj.1
      simp
    rw [hvalue, List.length_append, List.length_singleton, limit, bigEndianBytes, hhigh, hlow,
      hbytes]
    exact ⟨by omega, rfl⟩

theorem takes_number (width : Nat) :
    Takes (bigEndian <$> bytes width) fun data n =>
      n < limit width ∧ data = bigEndianBytes width n := by
  have hbytes : Takes (bytes width) fun data value => data.length = width ∧ value = data :=
    takes_bytes fun data hlength => ⟨hlength, rfl⟩
  refine hbytes.map fun data value => ?_
  rintro ⟨rfl, rfl⟩
  obtain ⟨hlt, hdata⟩ := bigEndianBytes_bigEndian value
  exact ⟨hlt, hdata.symm⟩

theorem takes_index :
    Takes u16 fun data n => ∃ index : UInt16, n = index.toNat ∧ data = encodeIndex index := by
  refine (takes_number 2).mono fun data n => ?_
  rintro ⟨hlt, rfl⟩
  have hindex : (UInt16.ofNat n).toNat = n := UInt16.toNat_ofNat_of_lt' hlt
  exact ⟨.ofNat n, hindex.symm, by rw [encodeIndex, hindex]⟩

theorem takes_flags :
    Takes accessFlags fun data modifiers =>
      ∃ flags : BitVec 16, modifiers = .ofAccessFlags flags ∧ data = encodeFlags flags := by
  refine (takes_number 2).bind fun data n => ?_
  rintro ⟨hlt, rfl⟩
  have hflags : (BitVec.ofNat 16 n).toNat = n := by
    rw [BitVec.toNat_ofNat]
    exact Nat.mod_eq_of_lt hlt
  exact takes_pure ⟨.ofNat 16 n, rfl, by rw [List.append_nil, encodeFlags, hflags]⟩

theorem takes_skip (n : Nat) : Takes (skip n) fun data _ => data.length = n :=
  (takes_bytes (P := fun data _ => data.length = n) fun _ h => h).map fun _ _ h => h

theorem takes_skip_index :
    Takes (skip 2) fun data _ => ∃ index : UInt16, data = encodeIndex index := by
  refine (takes_skip 2).mono fun data _ hlength => ?_
  obtain ⟨hlt, hdata⟩ := bigEndianBytes_bigEndian data
  rw [hlength] at hlt hdata
  have hindex : (UInt16.ofNat (bigEndian data)).toNat = bigEndian data :=
    UInt16.toNat_ofNat_of_lt' hlt
  exact ⟨.ofNat (bigEndian data), by rw [encodeIndex, hindex, hdata]⟩

theorem takes_repeated (h : Takes reader fun data _ => ∃ item, data = encode item) (n : Nat) :
    Takes (repeated reader n) fun data _ =>
      ∃ items : List β, items.length = n ∧ data = items.flatMap encode := by
  induction n with
  | zero => exact takes_pure ⟨[], rfl, rfl⟩
  | succ n ih =>
    refine h.bind fun data first => ?_
    rintro ⟨item, rfl⟩
    refine ih.bind fun more others => ?_
    rintro ⟨items, hlength, rfl⟩
    exact takes_pure ⟨item :: items, by simp [hlength], by simp⟩

theorem takes_counted (h : Takes reader fun data _ => ∃ item, data = encode item)
    {f : List α → Reader γ} {P : List UInt8 → γ → Prop}
    (hf : ∀ (list : Counted 2 β) values, Takes (f values) fun more result =>
      P (list.encode encode ++ more) result) :
    Takes (u16 >>= fun count => repeated reader count >>= f) P := by
  refine (takes_number 2).bind fun data count => ?_
  rintro ⟨hfits, rfl⟩
  refine (takes_repeated h count).bind fun more values => ?_
  rintro ⟨items, rfl, rfl⟩
  refine (hf ⟨items, hfits⟩ values).mono fun rest result hresult => ?_
  rwa [Counted.encode, List.append_assoc] at hresult

end Taking

theorem takes_other (kind : OtherKind) {wide : Bool}
    (hwide : ∀ data, (Entry.other kind data).wide = wide) :
    Takes (do skip kind.size; return (Constant.other, wide)) fun data result =>
      ∃ entry : Entry, bigEndianBytes 1 kind.tag ++ data = entry.encode ∧
        result.2 = entry.wide := by
  refine (takes_skip kind.size).bind fun data _ hlength => takes_pure ?_
  refine ⟨.other kind ⟨data.toArray, by simpa using hlength⟩, ?_, (hwide _).symm⟩
  simp [Entry.encode]

theorem takes_constant (index : Nat) :
    Takes (constant index) fun data result =>
      ∃ entry : Entry, data = entry.encode ∧ result.2 = entry.wide := by
  unfold constant
  refine (takes_number 1).bind fun data tag => ?_
  rintro ⟨-, rfl⟩
  split
  · refine (takes_number 2).bind fun size length => ?_
    rintro ⟨hfits, rfl⟩
    refine (takes_bytes (P := fun data value => data.length = length ∧ value = data)
      fun _ h => ⟨h, rfl⟩).bind fun data text => ?_
    rintro ⟨rfl, rfl⟩
    refine takes_pure ⟨.utf8 ⟨text, hfits⟩, ?_, rfl⟩
    rw [List.append_nil, Entry.encode, Counted.encode_bytes]
  · refine takes_index.bind fun size name => ?_
    rintro ⟨name, rfl, rfl⟩
    refine takes_pure ⟨.classRef name, ?_, rfl⟩
    rw [List.append_nil, Entry.encode]
  · exact takes_other .string fun _ => rfl
  · exact takes_other .methodType fun _ => rfl
  · exact takes_other .moduleInfo fun _ => rfl
  · exact takes_other .packageInfo fun _ => rfl
  · exact takes_other .methodHandle fun _ => rfl
  · exact takes_other .integer fun _ => rfl
  · exact takes_other .float fun _ => rfl
  · exact takes_other .fieldRef fun _ => rfl
  · exact takes_other .methodRef fun _ => rfl
  · exact takes_other .interfaceMethodRef fun _ => rfl
  · exact takes_other .nameAndType fun _ => rfl
  · exact takes_other .dynamic fun _ => rfl
  · exact takes_other .invokeDynamic fun _ => rfl
  · exact takes_other .long fun _ => rfl
  · exact takes_other .double fun _ => rfl
  · exact takes_throw _

theorem takes_constantsFrom (count : Nat) (pool : ConstantPool) :
    Takes (constantsFrom count pool) fun data _ =>
      ∃ entries, Fills count pool.size entries ∧ data = entries.flatMap Entry.encode := by
  fun_induction constantsFrom count pool with
  | case1 pool hlt ihWide ihNarrow =>
    refine (takes_constant pool.size).bind fun data result => ?_
    obtain ⟨constant, wide⟩ := result
    rintro ⟨entry, rfl, rfl⟩
    cases hwide : entry.wide with
    | true =>
      refine (ihWide constant).mono fun more _ => ?_
      rintro ⟨entries, hfills, rfl⟩
      refine ⟨entry :: entries, ⟨hlt, ?_⟩, by simp⟩
      simpa [Entry.slots, hwide] using hfills
    | false =>
      refine (ihNarrow constant).mono fun more _ => ?_
      rintro ⟨entries, hfills, rfl⟩
      refine ⟨entry :: entries, ⟨hlt, ?_⟩, by simp⟩
      simpa [Entry.slots, hwide] using hfills
  | case2 pool hge => exact takes_pure ⟨[], Nat.le_of_not_lt hge, rfl⟩

theorem takes_utf8At (pool : ConstantPool) (index : Nat) :
    Takes (utf8At pool index) fun data _ => data = [] := by
  unfold utf8At
  split
  · exact takes_pure rfl
  · exact takes_throw _

theorem takes_classAt (pool : ConstantPool) (index : Nat) :
    Takes (classAt pool index) fun data _ => data = [] := by
  unfold classAt
  split
  · refine (takes_utf8At pool _).bind fun data _ => ?_
    rintro rfl
    exact takes_pure rfl
  · exact takes_throw _

theorem takes_pool :
    Takes constantPool fun data _ => ∃ (count : UInt16) (entries : List Entry),
      Fills count.toNat 1 entries ∧ data = encodeIndex count ++ entries.flatMap Entry.encode := by
  refine takes_index.bind fun data count => ?_
  rintro ⟨count, rfl, rfl⟩
  refine (takes_constantsFrom count.toNat #[.other]).mono fun data _ => ?_
  rintro ⟨entries, hfills, rfl⟩
  exact ⟨count, entries, hfills, rfl⟩

theorem takes_class {pool : ConstantPool} :
    Takes (do classAt pool (← u16)) fun data _ => ∃ index : UInt16, data = encodeIndex index := by
  refine takes_index.bind fun data index => ?_
  rintro ⟨index, rfl, rfl⟩
  refine (takes_classAt pool _).mono fun data _ => ?_
  rintro rfl
  exact ⟨index, List.append_nil _⟩

theorem takes_superclass (pool : ConstantPool) (index : Nat) {α : Type}
    {f : Option ClassName → Reader α} {P : List UInt8 → α → Prop}
    (hf : ∀ superclass, Takes (f superclass) P) :
    Takes (if index = 0 then pure none >>= f
      else (some <$> classAt pool index) >>= f) P := by
  split
  · exact hf none
  · refine ((takes_classAt pool index).map (Q := fun data _ => data = []) fun _ _ h => h).bind
      fun data superclass => ?_
    rintro rfl
    exact hf superclass

theorem takes_attribute :
    Takes (do skip 2; skip (← u32)) fun data _ => ∃ a : Attribute, data = a.encode := by
  refine takes_skip_index.bind fun data _ => ?_
  rintro ⟨name, rfl⟩
  refine (takes_number 4).bind fun data length => ?_
  rintro ⟨hfits, rfl⟩
  refine (takes_skip length).mono fun info _ => ?_
  rintro rfl
  exact ⟨⟨name, ⟨info, hfits⟩⟩, by rw [Attribute.encode, Counted.encode_bytes]⟩

theorem takes_attributes :
    Takes skipAttributes fun data _ =>
      ∃ attributes : Counted 2 Attribute, data = attributes.encode Attribute.encode := by
  refine (takes_number 2).bind fun data count => ?_
  rintro ⟨hfits, rfl⟩
  refine (takes_repeated takes_attribute count).map fun more _ => ?_
  rintro ⟨items, rfl, rfl⟩
  exact ⟨⟨items, hfits⟩, rfl⟩

theorem takes_member (kind : MemberKind) (pool : ConstantPool) (owner : ClassName) :
    Takes (member kind pool owner) fun data _ => ∃ info : MemberInfo, data = info.encode := by
  unfold member
  refine takes_flags.bind fun data modifiers => ?_
  rintro ⟨flags, -, rfl⟩
  refine takes_index.bind fun data index => ?_
  rintro ⟨name, rfl, rfl⟩
  refine (takes_utf8At pool _).bind fun data _ => ?_
  rintro rfl
  refine takes_index.bind fun data index => ?_
  rintro ⟨descriptor, rfl, rfl⟩
  refine (takes_utf8At pool _).bind fun data _ => ?_
  rintro rfl
  refine takes_attributes.bind fun data _ => ?_
  rintro ⟨attributes, rfl⟩
  split
  · exact takes_pure ⟨⟨flags, name, descriptor, attributes⟩, by simp [MemberInfo.encode]⟩
  · exact takes_throw _

theorem takes_classUnit :
    Takes classUnit fun data _ => ∃ layout : Layout, data = layout.encode := by
  unfold classUnit
  refine (takes_number 4).bind fun data found => ?_
  rintro ⟨-, rfl⟩
  split
  · exact takes_throw (.badMagic found)
  rename_i hmagic
  obtain rfl : found = magic := not_not.1 hmagic
  refine takes_skip_index.bind fun data _ => ?_
  rintro ⟨minor, rfl⟩
  refine takes_skip_index.bind fun data _ => ?_
  rintro ⟨major, rfl⟩
  refine takes_pool.bind fun data pool => ?_
  rintro ⟨count, entries, hfills, rfl⟩
  refine takes_flags.bind fun data modifiers => ?_
  rintro ⟨flags, -, rfl⟩
  refine takes_index.bind fun data index => ?_
  rintro ⟨nameIndex, rfl, rfl⟩
  refine (takes_classAt pool _).bind fun data name => ?_
  rintro rfl
  refine takes_index.bind fun data index => ?_
  rintro ⟨superIndex, rfl, rfl⟩
  refine takes_superclass pool _ fun superclass => ?_
  refine takes_counted takes_class fun interfaces _ => ?_
  refine takes_counted (takes_member .field pool name) fun fields _ => ?_
  refine takes_counted (takes_member .method pool name) fun methods _ => ?_
  refine takes_attributes.bind fun data _ => ?_
  rintro ⟨attributes, rfl⟩
  refine takes_pure ⟨⟨minor, major, count, entries, flags, nameIndex, superIndex, interfaces, fields,
    methods, attributes, hfills⟩, ?_⟩
  simp [Layout.encode]

/-! ### What is read -/

/-- If the reader accepts an input that starts with the data, it takes just these, and its value is
such a one. -/
def Yields {α : Type} (reader : Reader α) (data : List UInt8) (P : α → Prop) : Prop :=
  ∀ offset rest value after, reader.run ⟨offset, data ++ rest⟩ = .ok (value, after) →
    after.rest = rest ∧ P value

section Yielding

variable {α β γ : Type} {reader : Reader α} {data : List UInt8} {P : α → Prop}

theorem yields_pure {value : α} (h : P value) : Yields (pure value) [] P := by
  intro offset rest found after hrun
  obtain ⟨rfl, rfl⟩ := Prod.mk.inj (Except.ok.inj hrun)
  exact ⟨rfl, h⟩

theorem yields_throw (fault : ClassFileFault) : Yields (throw fault) data P := by
  intro offset rest found after hrun
  cases hrun

theorem Yields.bind {f : α → Reader β} {more : List UInt8} {Q : β → Prop} (h : Yields reader data P)
    (hf : ∀ value, P value → Yields (f value) more Q) : Yields (reader >>= f) (data ++ more) Q := by
  intro offset rest result after hrun
  rw [StateT.run_bind, List.append_assoc] at hrun
  cases hfirst : reader.run ⟨offset, data ++ (more ++ rest)⟩ with
  | error fault =>
    rw [hfirst] at hrun
    cases hrun
  | ok first =>
    obtain ⟨value, between⟩ := first
    rw [hfirst] at hrun
    obtain ⟨hrest, hvalue⟩ := h offset (more ++ rest) value between hfirst
    refine hf value hvalue between.offset rest result after ?_
    rw [← hrest]
    exact hrun

theorem Reads.yields {value : α} (h : Reads reader data value) :
    Yields reader data (· = value) := by
  intro offset rest found after hrun
  rw [h offset rest] at hrun
  obtain ⟨rfl, rfl⟩ := Prod.mk.inj (Except.ok.inj hrun)
  exact ⟨rfl, rfl⟩

theorem Reads.bind_yields {f : α → Reader β} {value : α} {more : List UInt8} {Q : β → Prop}
    (h : Reads reader data value) (hf : Yields (f value) more Q) :
    Yields (reader >>= f) (data ++ more) Q :=
  h.yields.bind fun _ hfound => hfound ▸ hf

theorem Yields.bind_look {f : α → Reader β} {Q : β → Prop} (h : Yields reader [] P)
    (hf : ∀ value, P value → Yields (f value) data Q) : Yields (reader >>= f) data Q :=
  h.bind hf

theorem yields_repeated {encode : β → List UInt8} {R : β → α → Prop}
    (h : ∀ item, Yields reader (encode item) (R item)) (items : List β) :
    Yields (repeated reader items.length) (items.flatMap encode) (List.Forall₂ R items) := by
  induction items with
  | nil => exact yields_pure .nil
  | cons item items ih =>
    rw [List.flatMap_cons, ← List.append_nil (items.flatMap encode)]
    exact (h item).bind fun value hvalue => ih.bind fun values hvalues =>
      yields_pure (.cons hvalue hvalues)

theorem yields_counted {encode : β → List UInt8} {R : β → α → Prop}
    (h : ∀ item, Yields reader (encode item) (R item)) (list : Counted 2 β)
    {f : List α → Reader γ} {more : List UInt8} {Q : γ → Prop}
    (hf : ∀ values, List.Forall₂ R list.items values → Yields (f values) more Q) :
    Yields (u16 >>= fun count => repeated reader count >>= f) (list.encode encode ++ more) Q := by
  rw [Counted.encode, List.append_assoc]
  exact (reads_number list.fits).bind_yields ((yields_repeated h list.items).bind hf)

end Yielding

variable {pool : List Entry} {index : UInt16}

theorem TextAt.unique {text text' : String} (h : TextAt pool index text)
    (h' : TextAt pool index text') : text = text' := by
  obtain ⟨bytes, hslot, htext⟩ := h
  obtain ⟨bytes', hslot', htext'⟩ := h'
  obtain rfl : bytes = bytes' := by simpa [hslot] using hslot'
  exact String.toList_injective (htext.trans htext'.symm)

theorem ClassAt.unique {name name' : ClassName} (h : ClassAt pool index name)
    (h' : ClassAt pool index name') : name = name' := by
  obtain ⟨reference, text, hslot, htext, rfl⟩ := h
  obtain ⟨reference', text', hslot', htext', rfl⟩ := h'
  obtain rfl : reference = reference' := by simpa [hslot] using hslot'
  rw [htext.unique htext']

theorem constants_eq_utf8 {text : List Char}
    (h : (constants pool)[index.toNat]? = some (.utf8 text)) :
    TextAt pool index (String.ofList text) := by
  rw [constants_getElem?] at h
  obtain ⟨entry, hslot, hentry⟩ := Option.map_eq_some_iff.1 h
  match entry, hentry with
  | some (.utf8 bytes), hentry =>
    exact ⟨bytes, hslot, by simpa [constantAt, Entry.constant] using hentry.symm⟩

theorem yields_utf8At :
    Yields (utf8At (constants pool) index.toNat) [] fun text =>
      TextAt pool index (String.ofList text) := by
  unfold utf8At
  split
  · exact yields_pure (constants_eq_utf8 ‹_›)
  · exact yields_throw _

theorem yields_classAt :
    Yields (classAt (constants pool) index.toNat) [] (ClassAt pool index) := by
  unfold classAt
  split
  · rename_i name hname
    rw [constants_getElem?] at hname
    obtain ⟨entry, hslot, hentry⟩ := Option.map_eq_some_iff.1 hname
    match entry, hentry with
    | some (.classRef reference), hentry =>
      obtain rfl : reference.toNat = name := by simpa [constantAt, Entry.constant] using hentry
      exact yields_utf8At.bind fun text htext =>
        yields_pure ⟨reference, String.ofList text, hslot, htext, by simp [ClassName.ofString]⟩
  · exact yields_throw _

theorem MemberInfo.gives_iff {kind : MemberKind} {owner : ClassName} {info : MemberInfo}
    {m : Member kind} {name descriptor : String} (hname : TextAt pool info.name name)
    (hdescriptor : TextAt pool info.descriptor descriptor) :
    info.Gives pool owner m ↔
      Member.parse owner (kind.signature name descriptor) (.ofAccessFlags info.flags) = .ok m := by
  rw [Member.parse_eq_ok_iff]
  constructor
  · rintro ⟨howner, hmodifiers, name', descriptor', hname', hdescriptor', hread⟩
    obtain rfl := hname.unique hname'
    obtain rfl := hdescriptor.unique hdescriptor'
    exact ⟨howner, hmodifiers, hread⟩
  · rintro ⟨howner, hmodifiers, hread⟩
    exact ⟨howner, hmodifiers, name, descriptor, hname, hdescriptor, hread⟩

theorem yields_member (kind : MemberKind) (owner : ClassName) (info : MemberInfo) :
    Yields (member kind (constants pool) owner) info.encode (info.Gives pool owner) := by
  unfold member
  refine (reads_flags info.flags).bind_yields ?_
  refine (reads_index info.name).bind_yields (yields_utf8At.bind_look fun name hname => ?_)
  refine (reads_index info.descriptor).bind_yields
    (yields_utf8At.bind_look fun descriptor hdescriptor => ?_)
  rw [← List.append_nil (info.attributes.encode Attribute.encode)]
  refine (reads_attributes info.attributes).bind_yields ?_
  split
  · rename_i m hparsed
    exact yields_pure ((MemberInfo.gives_iff hname hdescriptor).2 hparsed)
  · exact yields_throw _

theorem yields_class : Yields (do classAt (constants pool) (← u16)) (encodeIndex index)
    (ClassAt pool index) := by
  rw [← List.append_nil (encodeIndex index)]
  exact (reads_index index).bind_yields yields_classAt

theorem yields_superclass {α : Type} {f : Option ClassName → Reader α} {data : List UInt8}
    {P : α → Prop}
    (hf : ∀ superclass, SuperclassAt pool index superclass → Yields (f superclass) data P) :
    Yields (if index.toNat = 0 then pure none >>= f
      else (some <$> classAt (constants pool) index.toNat) >>= f) data P := by
  split
  · rename_i hzero
    exact hf none (UInt16.toNat_inj.1 hzero)
  · rw [map_eq_pure_bind, bind_assoc]
    exact yields_classAt.bind_look fun superclass hclass => hf (some superclass) hclass

theorem yields_classUnit (layout : Layout) : Yields classUnit layout.encode layout.Gives := by
  unfold classUnit Layout.encode
  refine (reads_number (by decide)).bind_yields ?_
  rw [if_neg (by decide)]
  refine (skip_index layout.minor).bind_yields ((skip_index layout.major).bind_yields ?_)
  refine (reads_pool layout.count.toNat_lt layout.fills).bind_yields ?_
  refine (reads_flags layout.flags).bind_yields ((reads_index layout.name).bind_yields ?_)
  refine yields_classAt.bind_look fun name hname => ?_
  refine (reads_index layout.superclass).bind_yields (yields_superclass fun superclass hsuper => ?_)
  refine yields_counted (fun _ => yields_class) layout.interfaces fun interfaces hinterfaces => ?_
  refine yields_counted (yields_member .field name) layout.fields fun fields hfields => ?_
  refine yields_counted (yields_member .method name) layout.methods fun methods hmethods => ?_
  rw [← List.append_nil (layout.attributes.encode Attribute.encode)]
  refine (reads_attributes layout.attributes).bind_yields (yields_pure ?_)
  refine ⟨hname, rfl, hsuper, hinterfaces, fun kind => ?_⟩
  cases kind with
  | field => exact hfields
  | method => exact hmethods

/-- All that is accepted is laid out in the parts of a class file. -/
theorem exists_layout {data : List UInt8} {unit : ClassUnit} (h : parse data = .ok unit) :
    ∃ (layout : Layout) (rest : List UInt8), data = layout.encode ++ rest := by
  obtain ⟨after, hrun⟩ := parse_eq_ok_iff.1 h
  obtain ⟨taken, hdata, layout, rfl⟩ := takes_classUnit ⟨0, data⟩ unit after hrun
  exact ⟨layout, after.rest, hdata⟩

theorem Layout.Gives.exists_member {layout : Layout} {unit : ClassUnit} (h : layout.Gives unit)
    {kind : MemberKind} {info : MemberInfo} (hinfo : info ∈ layout.records kind) :
    ∃ m : Member kind, info.Gives layout.pool unit.name m := by
  have heach : List.Forall₂ (fun info m => (∃ m : Member kind, info.Gives layout.pool unit.name m) ∧
      info.Gives layout.pool unit.name m) (layout.records kind) (unit.members kind) :=
    (h.members kind).imp fun info m hm => ⟨⟨m, hm⟩, hm⟩
  exact ((List.forall₂_and_left _ _).1 heach).1 info hinfo

/-- What is laid out is read as the class that the layout gives, if it gives one at all. -/
theorem Layout.parse_eq_ok_iff {layout : Layout} {rest : List UInt8} {unit : ClassUnit} :
    parse (layout.encode ++ rest) = .ok unit ↔ layout.Gives unit := by
  rw [ClassFile.parse_eq_ok_iff]
  constructor
  · rintro ⟨after, hrun⟩
    exact (yields_classUnit layout 0 rest unit after hrun).2
  · intro hgives
    exact ⟨_, hgives.reads 0 rest⟩

/-- A record gives a member that has its texts for its name and its descriptor just if they are
these on their own. -/
theorem MemberInfo.Gives.own_iff {kind : MemberKind} {owner : ClassName} {info : MemberInfo}
    {m : Member kind} (h : info.Gives pool owner m) {name descriptor : String}
    (hname : TextAt pool info.name name) (hdescriptor : TextAt pool info.descriptor descriptor) :
    m.name = name ∧ m.descriptor = descriptor ↔
      kind.Names name.toList ∧ kind.Describes descriptor.toList := by
  obtain ⟨-, -, hread⟩ := Member.parse_eq_ok_iff.1 ((gives_iff hname hdescriptor).1 h)
  exact hread.own_iff

/-- What is accepted is laid out in the parts of a class file, and is read as the class that these
give: its members are what the two texts of their records are read as when these are put together,
one to one and in order. The texts are the member's own only where they are a name and a descriptor
without each other; else the one may have lost an owner or blanks, or lent a part to the other. A
record whose texts are not read as any member makes the whole file fail. -/
theorem parse_reads_texts_together (data : List UInt8) :
    (∀ unit, parse data = .ok unit →
      ∃ (layout : Layout) (rest : List UInt8), data = layout.encode ++ rest) ∧
    ∀ (layout : Layout) (rest : List UInt8), data = layout.encode ++ rest →
      (∀ unit, parse data = .ok unit ↔ layout.Gives unit) ∧
      (∀ unit, parse data = .ok unit → ∀ kind, List.Forall₂ (fun info m => ∀ name descriptor,
        TextAt layout.pool info.name name → TextAt layout.pool info.descriptor descriptor →
          (m.name = name ∧ m.descriptor = descriptor ↔
            kind.Names name.toList ∧ kind.Describes descriptor.toList))
        (layout.records kind) (unit.members kind)) ∧
      ∀ owner, ClassAt layout.pool layout.name owner → ∀ kind, ∀ info ∈ layout.records kind,
        (∀ m : Member kind, ¬ info.Gives layout.pool owner m) →
          ∃ fault, parse data = .error fault := by
  refine ⟨fun unit => exists_layout, ?_⟩
  rintro layout rest rfl
  refine ⟨fun unit => Layout.parse_eq_ok_iff, fun unit hparsed kind => ?_, ?_⟩
  · have hgives := Layout.parse_eq_ok_iff.1 hparsed
    exact (hgives.members kind).imp fun info m hm name descriptor => hm.own_iff
  · intro owner howner kind info hinfo hnone
    cases hparsed : parse (layout.encode ++ rest) with
    | error fault => exact ⟨fault, rfl⟩
    | ok unit =>
      have hgives := Layout.parse_eq_ok_iff.1 hparsed
      obtain ⟨m, hm⟩ := hgives.exists_member hinfo
      rw [hgives.name.unique howner] at hm
      exact absurd hm (hnone m)

def Counted.empty {width : Nat} {α : Type} : Counted width α where
  items := []
  fits := by
    induction width with
    | zero => exact Nat.one_pos
    | succ width ih => exact Nat.mul_pos (by decide) ih

/-- A class file whose field and method are each put together from texts that are no name and no
descriptor. -/
def stitched : Layout where
  minor := 0
  major := 52
  count := 7
  pool := [textEntry "p/C" (by decide +kernel), .classRef 1, textEntry "p/C/x" (by decide +kernel),
    textEntry "I" (by decide +kernel), textEntry "f(I" (by decide +kernel),
    textEntry ")V" (by decide +kernel)]
  flags := 1
  name := 2
  superclass := 0
  interfaces := .empty
  fields := ⟨[⟨2, 3, 4, .empty⟩], by decide⟩
  methods := ⟨[⟨1, 5, 6, .empty⟩], by decide⟩
  attributes := .empty
  fills := fills_of_length_eq rfl

def stitchedUnit : ClassUnit where
  name := .ofString "p/C"
  modifiers := .ofAccessFlags 1
  superclass := none
  interfaces := []
  fields := [⟨.ofString "p/C", "x", "I", .ofAccessFlags 2⟩]
  methods := [⟨.ofString "p/C", "f", "(I)V", .ofAccessFlags 1⟩]

def exchanged : Layout := { stitched with fields := ⟨[⟨2, 4, 3, .empty⟩], by decide⟩ }

theorem parse_stitched : parse stitched.encode = .ok stitchedUnit := by decide +kernel

theorem parse_reads_texts_together_stitched :
    stitched.Gives stitchedUnit ∧ ∃ fault, parse exchanged.encode = .error fault := by
  constructor
  · exact (((parse_reads_texts_together stitched.encode).2 stitched []
      (List.append_nil _).symm).1 _).1 parse_stitched
  · have howner : ClassAt exchanged.pool exchanged.name (.ofString "p/C") :=
      ⟨1, "p/C", rfl, ⟨_, rfl, by decide +kernel⟩, rfl⟩
    have hname : TextAt exchanged.pool 4 "I" := ⟨_, rfl, by decide +kernel⟩
    have hdescriptor : TextAt exchanged.pool 3 "p/C/x" := ⟨_, rfl, by decide +kernel⟩
    have hfails : (Member.parse (.ofString "p/C") "I p/C/x" (.ofAccessFlags 2) :
        Except MemberFault (Member .field)).toOption = none := by decide +kernel
    refine ((parse_reads_texts_together exchanged.encode).2 exchanged []
      (List.append_nil _).symm).2.2 _ howner .field _ List.mem_cons_self fun m hm => ?_
    have hparsed := (MemberInfo.gives_iff hname hdescriptor).1 hm
    have hsignature : MemberKind.field.signature "I" "p/C/x" = "I p/C/x" := by decide +kernel
    rw [hsignature] at hparsed
    rw [hparsed] at hfails
    cases hfails

/-- Where the texts of the records are `p/C/x` and `I`, and `f(I` and `)V`, the field is called `x`
and the method is `f(I)V`. -/
theorem parse_splits_texts_elsewhere :
    parse stitched.encode = .ok stitchedUnit ∧
      (∃ info m, stitched.fields.items = [info] ∧ stitchedUnit.fields = [m] ∧
        TextAt stitched.pool info.name "p/C/x" ∧ m.name = "x" ∧
          ¬ MemberKind.field.Names "p/C/x".toList) ∧
      ∃ info m, stitched.methods.items = [info] ∧ stitchedUnit.methods = [m] ∧
        TextAt stitched.pool info.name "f(I" ∧ m.name = "f" ∧
          TextAt stitched.pool info.descriptor ")V" ∧ m.descriptor = "(I)V" := by
  have hreserved : ¬ MemberKind.field.Names "p/C/x".toList := fun hname =>
    absurd (hname.unreserved '/' (by decide +kernel)) (by decide)
  refine ⟨parse_stitched, ⟨_, _, rfl, rfl, ⟨_, rfl, ?_⟩, rfl, hreserved⟩,
    ⟨_, _, rfl, rfl, ⟨_, rfl, ?_⟩, rfl, ⟨_, rfl, ?_⟩, rfl⟩⟩
  all_goals decide +kernel

end UnitLink.ClassFile
