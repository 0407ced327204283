import Mathlib.Data.List.Forall2
import UnitLink.ClassFile
import UnitLink.Proofs.MemberSignatures
import UnitLink.Proofs.Utf8Decoding
/-! Class files as they are written. An encoder stands beside the parser; what it writes is read
back as the declarations that the file holds, whatever else is in the constant pool and in the
attributes. A reader is right for some data if it takes just these off the front of its input. A
layout is a file in its parts, whatever these say, and is read as the class that it gives. -/
namespace UnitLink.ClassFile

/-! ### The format -/

/-- What the numbers of so many bytes stay below. -/
def limit : (width : Nat) → Nat
  | 0 => 1
  | width + 1 => 256 * limit width

/-- A list that a number of so many bytes can count. -/
structure Counted (width : Nat) (α : Type) where
  items : List α
  fits : items.length < limit width

/-- Entries of a constant pool that no declaration refers to. -/
inductive OtherKind where
  | integer | float | long | double | string | fieldRef | methodRef | interfaceMethodRef
  | nameAndType | methodHandle | methodType | dynamic | invokeDynamic | moduleInfo | packageInfo
  deriving DecidableEq, Repr

namespace OtherKind

def tag : OtherKind → Nat
  | integer => 3
  | float => 4
  | long => 5
  | double => 6
  | string => 8
  | fieldRef => 9
  | methodRef => 10
  | interfaceMethodRef => 11
  | nameAndType => 12
  | methodHandle => 15
  | methodType => 16
  | dynamic => 17
  | invokeDynamic => 18
  | moduleInfo => 19
  | packageInfo => 20

def size : OtherKind → Nat
  | string | methodType | moduleInfo | packageInfo => 2
  | methodHandle => 3
  | long | double => 8
  | _ => 4

end OtherKind

inductive Entry where
  | utf8 (text : Counted 2 UInt8)
  | classRef (name : UInt16)
  | other (kind : OtherKind) (data : Vector UInt8 kind.size)

def Entry.wide : Entry → Bool
  | other .long _ | other .double _ => true
  | _ => false

def Entry.slots (entry : Entry) : List (Option Entry) :=
  if entry.wide then [some entry, none] else [some entry]

/-- What stands at the indices of a pool, from 0 on. There is nothing at index 0 and at the
second index of a wide entry. -/
def slots (pool : List Entry) : List (Option Entry) := none :: pool.flatMap Entry.slots

structure Attribute where
  name : UInt16
  info : Counted 4 UInt8

structure MemberInfo where
  flags : BitVec 16
  name : UInt16
  descriptor : UInt16
  attributes : Counted 2 Attribute

/-- A class file. The class has no superclass if the index of its name is 0. -/
structure File where
  minor : UInt16
  major : UInt16
  pool : List Entry
  flags : BitVec 16
  name : UInt16
  superclass : UInt16
  interfaces : Counted 2 UInt16
  fields : Counted 2 MemberInfo
  methods : Counted 2 MemberInfo
  attributes : Counted 2 Attribute
  pool_fits : (slots pool).length < limit 2

section Flags

open Keyword

/-- The access flag of a keyword. The flag 0x8000 belongs to none. -/
def accessFlag : Keyword → BitVec 16
  | isPublic => 0x0001
  | isPrivate => 0x0002
  | isProtected => 0x0004
  | isStatic => 0x0008
  | isFinal => 0x0010
  | isSynchronized => 0x0020
  | isVolatile => 0x0040
  | isTransient => 0x0080
  | isNative => 0x0100
  | isInterface => 0x0200
  | isAbstract => 0x0400
  | isStrict => 0x0800
  | isSynthetic => 0x1000
  | isAnnotation => 0x2000
  | isEnum => 0x4000

end Flags

/-- The modifiers are the keywords whose flags are set, and no others. -/
def Flagged (flags : BitVec 16) (m : Modifiers) : Prop :=
  ∀ k, m.has k = true ↔ flags &&& accessFlag k ≠ 0

def bigEndianBytes : (width : Nat) → Nat → List UInt8
  | 0, _ => []
  | width + 1, n => bigEndianBytes width (n / 256) ++ [UInt8.ofNat n]

def Counted.encode {width : Nat} {α : Type} (list : Counted width α) (encode : α → List UInt8) :
    List UInt8 :=
  bigEndianBytes width list.items.length ++ list.items.flatMap encode

def encodeIndex (index : UInt16) : List UInt8 := bigEndianBytes 2 index.toNat

def encodeFlags (flags : BitVec 16) : List UInt8 := bigEndianBytes 2 flags.toNat

def Entry.encode : Entry → List UInt8
  | utf8 text => bigEndianBytes 1 1 ++ text.encode fun byte => [byte]
  | classRef name => bigEndianBytes 1 7 ++ encodeIndex name
  | other kind data => bigEndianBytes 1 kind.tag ++ data.toList

def Attribute.encode (a : Attribute) : List UInt8 :=
  encodeIndex a.name ++ a.info.encode fun byte => [byte]

def MemberInfo.encode (m : MemberInfo) : List UInt8 :=
  encodeFlags m.flags ++ (encodeIndex m.name ++ (encodeIndex m.descriptor ++
    m.attributes.encode Attribute.encode))

def encodePool (pool : List Entry) : List UInt8 :=
  bigEndianBytes 2 (slots pool).length ++ pool.flatMap Entry.encode

def File.encode (file : File) : List UInt8 :=
  bigEndianBytes 4 magic ++ (encodeIndex file.minor ++ (encodeIndex file.major ++
    (encodePool file.pool ++ (encodeFlags file.flags ++ (encodeIndex file.name ++
      (encodeIndex file.superclass ++ (file.interfaces.encode encodeIndex ++
        (file.fields.encode MemberInfo.encode ++ (file.methods.encode MemberInfo.encode ++
          file.attributes.encode Attribute.encode)))))))))

/-! ### Readers -/

/-- The reader takes the data off the front of its input, whatever follows them, and gives the
value. -/
def Reads {α : Type} (reader : Reader α) (data : List UInt8) (value : α) : Prop :=
  ∀ offset rest, reader.run ⟨offset, data ++ rest⟩ = .ok (value, ⟨offset + data.length, rest⟩)

section Readers

variable {α β : Type} {reader : Reader α} {data : List UInt8} {value : α}

theorem reads_pure (value : α) : Reads (pure value) [] value := fun _ _ => rfl

theorem Reads.bind {f : α → Reader β} {more : List UInt8} {result : β}
    (h : Reads reader data value) (hf : Reads (f value) more result) :
    Reads (reader >>= f) (data ++ more) result := by
  intro offset rest
  rw [StateT.run_bind, List.append_assoc, h offset (more ++ rest)]
  show (f value).run _ = _
  rw [hf, List.length_append, Nat.add_assoc]

theorem Reads.map (f : α → β) (h : Reads reader data value) :
    Reads (f <$> reader) data (f value) := by
  intro offset rest
  rw [StateT.run_map, h offset rest]
  rfl

theorem Reads.discard (h : Reads reader data value) : Reads (discard reader) data () :=
  h.map fun _ => ()

/-- A step that takes nothing leaves the data to the others. -/
theorem Reads.bind_look {f : α → Reader β} {result : β} (h : Reads reader [] value)
    (hf : Reads (f value) data result) : Reads (reader >>= f) data result :=
  h.bind hf

theorem Reads.bind_pure (f : α → β) (h : Reads reader data value) :
    Reads (reader >>= fun a => pure (f a)) data (f value) := by
  have := h.bind (f := fun a => pure (f a)) (reads_pure (f value))
  rwa [List.append_nil] at this

theorem reads_bytes (data : List UInt8) : Reads (bytes data.length) data data := by
  intro offset rest
  show bytes data.length ⟨offset, data ++ rest⟩ = _
  unfold bytes
  rw [takeExactly_eq_some_iff.2 ⟨rfl, rfl⟩]

theorem reads_skip (data : List UInt8) : Reads (skip data.length) data () :=
  (reads_bytes data).discard

theorem length_bigEndianBytes (width n : Nat) : (bigEndianBytes width n).length = width := by
  induction width generalizing n with
  | zero => rfl
  | succ width ih => rw [bigEndianBytes, List.length_append, ih, List.length_singleton]

theorem bigEndian_bigEndianBytes {width n : Nat} (h : n < limit width) :
    bigEndian (bigEndianBytes width n) = n := by
  induction width generalizing n with
  | zero =>
    obtain rfl := Nat.lt_one_iff.1 h
    rfl
  | succ width ih =>
    have hhigh : n / 256 < limit width := Nat.div_lt_of_lt_mul h
    have hlow : (UInt8.ofNat n).toNat = n % 256 := UInt8.toNat_ofNat'
    unfold bigEndian at ih ⊢
    rw [bigEndianBytes, List.foldl_append, ih hhigh, List.foldl_cons, List.foldl_nil, hlow]
    exact Nat.div_add_mod n 256

theorem reads_number {width n : Nat} (h : n < limit width) :
    Reads (bigEndian <$> bytes width) (bigEndianBytes width n) n := by
  have hbytes := (reads_bytes (bigEndianBytes width n)).map bigEndian
  rwa [length_bigEndianBytes, bigEndian_bigEndianBytes h] at hbytes

theorem reads_index (index : UInt16) : Reads u16 (encodeIndex index) index.toNat :=
  reads_number index.toNat_lt

theorem reads_flags (flags : BitVec 16) :
    Reads accessFlags (encodeFlags flags) (.ofAccessFlags flags) := by
  have hfits : flags.toNat < limit 2 := flags.isLt
  have hread := (reads_number hfits).bind_pure
    fun n => Modifiers.ofAccessFlags (BitVec.ofNat 16 n)
  rwa [BitVec.ofNat_toNat, BitVec.setWidth_eq] at hread

theorem skip_index (index : UInt16) : Reads (skip 2) (encodeIndex index) () := by
  have := reads_skip (encodeIndex index)
  rwa [encodeIndex, length_bigEndianBytes] at this

theorem Reads.repeated {encode : β → List UInt8} {items : List β} {values : List α}
    (h : List.Forall₂ (fun item value => Reads reader (encode item) value) items values) :
    Reads (repeated reader items.length) (items.flatMap encode) values := by
  induction h with
  | nil => exact reads_pure []
  | @cons item value items values hfirst _ ih =>
    rw [List.length_cons, List.flatMap_cons]
    exact hfirst.bind (ih.bind_pure (value :: ·))

end Readers

/-! ### Access flags -/

theorem accessFlag_eq (k : Keyword) : accessFlag k = BitVec.twoPow 16 k.bit := by
  cases k <;> rfl

theorem flagged_ofAccessFlags (flags : BitVec 16) : Flagged flags (.ofAccessFlags flags) := by
  intro k
  have hbit := k.bit_lt
  have hnonzero : BitVec.twoPow 16 k.bit ≠ 0#16 := by cases k <;> decide
  have hhas : (Modifiers.ofAccessFlags flags).has k = flags.getLsbD k.bit := by
    simp [Modifiers.ofAccessFlags, Modifiers.has, hbit]
  rw [hhas, accessFlag_eq, BitVec.and_twoPow]
  cases flags.getLsbD k.bit <;> simp [hnonzero]

theorem Flagged.unique {flags : BitVec 16} {m m' : Modifiers} (h : Flagged flags m)
    (h' : Flagged flags m') : m = m' := by
  obtain ⟨bits⟩ := m
  obtain ⟨bits'⟩ := m'
  refine congrArg Modifiers.mk (BitVec.eq_of_getLsbD_eq fun i hi => ?_)
  have hkeyword : ∀ i : Fin 15, (Keyword.ofNat i).bit = i := by decide
  have hiff := (h (.ofNat i)).trans (h' (.ofNat i)).symm
  simp only [Modifiers.has, hkeyword ⟨i, hi⟩] at hiff
  exact Bool.eq_iff_iff.2 hiff

/-! ### The constant pool -/

def Entry.constant : Entry → Constant
  | utf8 text => .utf8 (Text.utf8Lossy text.items)
  | classRef name => .classRef name.toNat
  | other .. => .other

/-- What a reader keeps of what stands at an index. -/
def constantAt : Option Entry → Constant
  | some entry => entry.constant
  | none => .other

def constants (pool : List Entry) : ConstantPool := ((slots pool).map constantAt).toArray

theorem Counted.encode_bytes {width : Nat} (list : Counted width UInt8) :
    list.encode (fun byte => [byte]) = bigEndianBytes width list.items.length ++ list.items := by
  rw [Counted.encode, List.flatMap_singleton']

theorem reads_text (text : Counted 2 UInt8) :
    Reads (do let length ← u16; bytes length) (text.encode fun byte => [byte]) text.items := by
  rw [Counted.encode_bytes]
  exact (reads_number text.fits).bind (reads_bytes text.items)

theorem reads_constant (index : Nat) (entry : Entry) :
    Reads (constant index) entry.encode (entry.constant, entry.wide) := by
  unfold constant
  cases entry with
  | utf8 text =>
    refine (reads_number (n := 1) (by decide)).bind ?_
    have hread := (reads_text text).bind_pure
      fun bytes => (Constant.utf8 (Text.utf8Lossy bytes), false)
    simp only [bind_assoc] at hread
    exact hread
  | classRef name =>
    refine (reads_number (n := 7) (by decide)).bind ?_
    exact (reads_index name).bind_pure fun name => (Constant.classRef name, false)
  | other kind data =>
    have hskip := reads_skip data.toList
    rw [Vector.length_toList] at hskip
    cases kind <;> exact (reads_number (by decide)).bind (hskip.bind_pure fun _ => _)

/-- The entries take up the indices from the next one on until the count is reached, which a wide
entry may go past. -/
def Fills (count : Nat) : (next : Nat) → List Entry → Prop
  | next, [] => count ≤ next
  | next, entry :: entries => next < count ∧ Fills count (next + entry.slots.length) entries

theorem Entry.slots_pos (entry : Entry) : 0 < entry.slots.length := by
  unfold Entry.slots
  split <;> exact Nat.succ_pos _

theorem fills_of_length_eq {count next : Nat} {entries : List Entry}
    (h : next + (entries.flatMap Entry.slots).length = count) : Fills count next entries := by
  induction entries generalizing next with
  | nil => exact Nat.le_of_eq h.symm
  | cons entry entries ih =>
    rw [List.flatMap_cons, List.length_append] at h
    have hpos := entry.slots_pos
    exact ⟨by omega, ih (by omega)⟩

theorem reads_constantsFrom {count : Nat} (entries : List Entry) (read : List (Option Entry))
    (hfills : Fills count read.length entries) :
    Reads (constantsFrom count (read.map constantAt).toArray) (entries.flatMap Entry.encode)
      ((read ++ entries.flatMap Entry.slots).map constantAt).toArray := by
  induction entries generalizing read with
  | nil =>
    have hfull : count ≤ read.length := hfills
    simp only [List.flatMap_nil, List.append_nil]
    rw [constantsFrom, if_neg (by simpa using hfull)]
    exact reads_pure _
  | cons entry entries ih =>
    obtain ⟨hroom, hfills⟩ := hfills
    have hread := ih (read ++ entry.slots) (by rwa [List.length_append])
    rw [List.flatMap_cons, List.flatMap_cons, ← List.append_assoc, constantsFrom,
      if_pos (by simpa using hroom)]
    refine (reads_constant _ entry).bind ?_
    unfold Entry.slots at hread ⊢
    cases hwide : entry.wide with
    | true =>
      rw [hwide] at hread
      simpa [constantAt] using hread
    | false =>
      rw [hwide] at hread
      simpa [constantAt] using hread

theorem reads_pool {pool : List Entry} {count : Nat} (hfits : count < limit 2)
    (hfills : Fills count 1 pool) :
    Reads constantPool (bigEndianBytes 2 count ++ pool.flatMap Entry.encode) (constants pool) :=
  (reads_number hfits).bind (reads_constantsFrom pool [none] hfills)

/-- The text at the index, however its bytes are decoded. -/
def TextAt (pool : List Entry) (index : UInt16) (text : String) : Prop :=
  ∃ bytes, (slots pool)[index.toNat]? = some (some (.utf8 bytes)) ∧
    text.toList = Text.utf8Lossy bytes.items

/-- The class at the index. -/
def ClassAt (pool : List Entry) (index : UInt16) (name : ClassName) : Prop :=
  ∃ reference text, (slots pool)[index.toNat]? = some (some (.classRef reference)) ∧
    TextAt pool reference text ∧ name = .ofString text

/-- The superclass of a class that has the index for it. -/
def SuperclassAt (pool : List Entry) (index : UInt16) : Option ClassName → Prop
  | none => index = 0
  | some name => ClassAt pool index name

variable {pool : List Entry} {index : UInt16}

theorem constants_getElem? :
    (constants pool)[index.toNat]? = (slots pool)[index.toNat]?.map constantAt := by
  simp [constants]

theorem reads_utf8At {text : String} (h : TextAt pool index text) :
    Reads (utf8At (constants pool) index.toNat) [] text.toList := by
  obtain ⟨bytes, hslot, htext⟩ := h
  unfold utf8At
  rw [constants_getElem?, hslot, htext]
  exact reads_pure _

theorem reads_classAt {name : ClassName} (h : ClassAt pool index name) :
    Reads (classAt (constants pool) index.toNat) [] name := by
  obtain ⟨reference, text, hslot, htext, rfl⟩ := h
  unfold classAt
  rw [constants_getElem?, hslot]
  exact (reads_utf8At htext).bind_pure ClassName.ofChars

theorem reads_class {name : ClassName} (h : ClassAt pool index name) :
    Reads (do classAt (constants pool) (← u16)) (encodeIndex index) name := by
  have hread := (reads_index index).bind (reads_classAt h)
  rwa [List.append_nil] at hread

theorem ClassAt.ne_zero {name : ClassName} (h : ClassAt pool index name) : index.toNat ≠ 0 := by
  obtain ⟨reference, text, hslot, -⟩ := h
  intro hzero
  rw [hzero] at hslot
  cases hslot

/-- What follows the index of the superclass takes no notice of how the name was found. -/
theorem reads_superclass {α : Type} {superclass : Option ClassName}
    (h : SuperclassAt pool index superclass) {f : Option ClassName → Reader α} {data : List UInt8}
    {value : α} (hf : Reads (f superclass) data value) :
    Reads (if index.toNat = 0 then pure none >>= f
      else (some <$> classAt (constants pool) index.toNat) >>= f) data value := by
  cases superclass with
  | none =>
    obtain rfl : index = 0 := h
    exact hf
  | some name =>
    rw [if_neg (ClassAt.ne_zero h)]
    exact ((reads_classAt h).map some).bind_look hf

/-! ### Attributes and members -/

theorem reads_bytesOf (info : Counted 4 UInt8) :
    Reads (do skip (← u32)) (info.encode fun byte => [byte]) () := by
  rw [Counted.encode_bytes]
  exact (reads_number info.fits).bind (reads_skip info.items)

theorem reads_attribute (a : Attribute) :
    Reads (do skip 2; skip (← u32)) a.encode () :=
  (skip_index a.name).bind (reads_bytesOf a.info)

theorem reads_attributes (attributes : Counted 2 Attribute) :
    Reads skipAttributes (attributes.encode Attribute.encode) () := by
  have hskipped : List.Forall₂ (fun a done => Reads (do skip 2; skip (← u32)) a.encode done)
      attributes.items (attributes.items.map fun _ => ()) := by
    rw [List.forall₂_map_right_iff]
    exact List.forall₂_same.2 fun a _ => reads_attribute a
  exact (reads_number attributes.fits).bind (Reads.repeated hskipped).discard

/-- What a record of a field or a method gives: its texts are read together, and the member has
the owner and the modifiers beside. -/
structure MemberInfo.Gives (pool : List Entry) {kind : MemberKind} (owner : ClassName)
    (info : MemberInfo) (m : Member kind) : Prop where
  owner_eq : m.owner = owner
  modifiers_eq : m.modifiers = .ofAccessFlags info.flags
  readAs : ∃ name descriptor, TextAt pool info.name name ∧
    TextAt pool info.descriptor descriptor ∧ m.ReadAs name descriptor

theorem reads_member {kind : MemberKind} {owner : ClassName} {info : MemberInfo} {m : Member kind}
    (h : info.Gives pool owner m) : Reads (member kind (constants pool) owner) info.encode m := by
  obtain ⟨howner, hmodifiers, name, descriptor, hname, hdescriptor, hread⟩ := h
  unfold member
  refine (reads_flags info.flags).bind ?_
  refine (reads_index info.name).bind ((reads_utf8At hname).bind_look ?_)
  refine (reads_index info.descriptor).bind ((reads_utf8At hdescriptor).bind_look ?_)
  have hparsed := Member.parse_eq_ok_iff.2 ⟨howner, hmodifiers, hread⟩
  simp only [String.ofList_toList, hparsed]
  exact (reads_attributes info.attributes).bind_pure fun _ => m

/-! ### Whole files -/

/-- A class file in its parts, whatever these say. -/
structure Layout where
  minor : UInt16
  major : UInt16
  count : UInt16
  pool : List Entry
  flags : BitVec 16
  name : UInt16
  superclass : UInt16
  interfaces : Counted 2 UInt16
  fields : Counted 2 MemberInfo
  methods : Counted 2 MemberInfo
  attributes : Counted 2 Attribute
  fills : Fills count.toNat 1 pool

namespace Layout

def encode (layout : Layout) : List UInt8 :=
  bigEndianBytes 4 magic ++ (encodeIndex layout.minor ++ (encodeIndex layout.major ++
    (encodeIndex layout.count ++ layout.pool.flatMap Entry.encode ++ (encodeFlags layout.flags ++
      (encodeIndex layout.name ++ (encodeIndex layout.superclass ++
        (layout.interfaces.encode encodeIndex ++ (layout.fields.encode MemberInfo.encode ++
          (layout.methods.encode MemberInfo.encode ++
            layout.attributes.encode Attribute.encode)))))))))

def records (layout : Layout) : MemberKind → List MemberInfo
  | .field => layout.fields.items
  | .method => layout.methods.items

/-- The class that is read of the parts. -/
structure Gives (layout : Layout) (unit : ClassUnit) : Prop where
  name : ClassAt layout.pool layout.name unit.name
  modifiers : unit.modifiers = .ofAccessFlags layout.flags
  superclass : SuperclassAt layout.pool layout.superclass unit.superclass
  interfaces : List.Forall₂ (ClassAt layout.pool) layout.interfaces.items unit.interfaces
  members (kind : MemberKind) :
    List.Forall₂ (MemberInfo.Gives layout.pool unit.name) (layout.records kind) (unit.members kind)

end Layout

theorem reads_counted {α β γ : Type} {reader : Reader α} {encode : β → List UInt8}
    {list : Counted 2 β} {values : List α} {f : List α → Reader γ} {more : List UInt8} {result : γ}
    (h : List.Forall₂ (fun item value => Reads reader (encode item) value) list.items values)
    (hf : Reads (f values) more result) :
    Reads (u16 >>= fun count => repeated reader count >>= f) (list.encode encode ++ more)
      result := by
  rw [Counted.encode, List.append_assoc]
  exact (reads_number list.fits).bind ((Reads.repeated h).bind hf)

theorem Layout.Gives.reads {layout : Layout} {unit : ClassUnit} (h : layout.Gives unit) :
    Reads classUnit layout.encode unit := by
  unfold classUnit Layout.encode
  refine (reads_number (by decide)).bind ?_
  rw [if_neg (by decide)]
  refine (skip_index layout.minor).bind ((skip_index layout.major).bind ?_)
  refine (reads_pool layout.count.toNat_lt layout.fills).bind ((reads_flags layout.flags).bind ?_)
  refine (reads_index layout.name).bind ((reads_classAt h.name).bind_look ?_)
  refine (reads_index layout.superclass).bind (reads_superclass h.superclass ?_)
  refine reads_counted (h.interfaces.imp fun _ _ => reads_class) ?_
  refine reads_counted ((h.members .field).imp fun _ _ => reads_member) ?_
  refine reads_counted ((h.members .method).imp fun _ _ => reads_member) ?_
  rw [← h.modifiers]
  exact (reads_attributes layout.attributes).bind_pure fun _ => unit

/-! ### Files that hold declarations -/

def HasText (pool : List Entry) (index : UInt16) (text : String) : Prop :=
  ∃ bytes, (slots pool)[index.toNat]? = some (some (.utf8 bytes)) ∧
    bytes.items = text.toUTF8.data.toList

/-- There is a class at the index, and its name is at the index that it refers to. -/
def HasClass (pool : List Entry) (index : UInt16) (name : String) : Prop :=
  ∃ reference, (slots pool)[index.toNat]? = some (some (.classRef reference)) ∧
    HasText pool reference name

theorem HasText.textAt {text : String} (h : HasText pool index text) : TextAt pool index text := by
  obtain ⟨bytes, hslot, hbytes⟩ := h
  exact ⟨bytes, hslot, by rw [hbytes, Text.utf8Lossy_toUTF8]⟩

theorem HasClass.classAt {name : String} (h : HasClass pool index name) :
    ClassAt pool index (.ofString name) := by
  obtain ⟨reference, hslot, hname⟩ := h
  exact ⟨reference, name, hslot, hname.textAt, rfl⟩

/-- A field or a method as a class file can hold it. -/
structure Declared (kind : MemberKind) where
  name : String
  descriptor : String
  flags : BitVec 16
  isName : MemberName name.toList
  isDescriptor : kind.Describes descriptor.toList

/-- The member that is declared: it has the owner and its own name, descriptor and flags. -/
structure Declared.Gives {kind : MemberKind} (d : Declared kind) (owner : ClassName)
    (m : Member kind) : Prop where
  owner_eq : m.owner = owner
  name_eq : m.name = d.name
  descriptor_eq : m.descriptor = d.descriptor
  flagged : Flagged d.flags m.modifiers

def Declared.member {kind : MemberKind} (m : Declared kind) (owner : ClassName) : Member kind :=
  ⟨owner, m.name, m.descriptor, .ofAccessFlags m.flags⟩

/-- What the file says of a member. -/
structure MemberInfo.Holds (pool : List Entry) {kind : MemberKind} (info : MemberInfo)
    (m : Declared kind) : Prop where
  flags : info.flags = m.flags
  name : HasText pool info.name m.name
  descriptor : HasText pool info.descriptor m.descriptor

theorem MemberInfo.Holds.gives {kind : MemberKind} {info : MemberInfo} {m : Declared kind}
    (h : info.Holds pool m) (owner : ClassName) : info.Gives pool owner (m.member owner) where
  owner_eq := rfl
  modifiers_eq := by rw [h.flags]; rfl
  readAs := ⟨m.name, m.descriptor, h.name.textAt, h.descriptor.textAt,
    .of_own ⟨m.isName.names kind, m.isDescriptor⟩⟩

/-- What a class file holds, apart from its access flags. -/
structure Contents where
  name : String
  superclass : Option String
  interfaces : List String
  fields : List (Declared .field)
  methods : List (Declared .method)

/-- The class with these contents and flags: its names are slashed, its members in order. -/
structure Contents.Gives (contents : Contents) (flags : BitVec 16) (c : ClassUnit) : Prop where
  name_eq : c.name = .ofString contents.name
  flagged : Flagged flags c.modifiers
  superclass_eq : c.superclass = contents.superclass.map ClassName.ofString
  interfaces_eq : c.interfaces = contents.interfaces.map ClassName.ofString
  fields : List.Forall₂ (fun d m => d.Gives (.ofString contents.name) m) contents.fields c.fields
  methods : List.Forall₂ (fun d m => d.Gives (.ofString contents.name) m) contents.methods c.methods

def Contents.classUnit (contents : Contents) (flags : BitVec 16) : ClassUnit where
  name := .ofString contents.name
  modifiers := .ofAccessFlags flags
  superclass := contents.superclass.map ClassName.ofString
  interfaces := contents.interfaces.map ClassName.ofString
  fields := contents.fields.map fun m => m.member (.ofString contents.name)
  methods := contents.methods.map fun m => m.member (.ofString contents.name)

/-- The indices in a file point to what it holds. -/
structure File.Holds (file : File) (contents : Contents) : Prop where
  name : HasClass file.pool file.name contents.name
  superclass : match contents.superclass with
    | none => file.superclass = 0
    | some name => HasClass file.pool file.superclass name
  interfaces : List.Forall₂ (HasClass file.pool) file.interfaces.items contents.interfaces
  fields : List.Forall₂ (MemberInfo.Holds file.pool) file.fields.items contents.fields
  methods : List.Forall₂ (MemberInfo.Holds file.pool) file.methods.items contents.methods

/-- A file's parts. Its count is that of its pool. -/
def File.layout (file : File) : Layout where
  minor := file.minor
  major := file.major
  count := .ofNat (slots file.pool).length
  pool := file.pool
  flags := file.flags
  name := file.name
  superclass := file.superclass
  interfaces := file.interfaces
  fields := file.fields
  methods := file.methods
  attributes := file.attributes
  fills := by
    rw [UInt16.toNat_ofNat_of_lt' file.pool_fits]
    exact fills_of_length_eq (Nat.add_comm _ _)

theorem File.encode_layout (file : File) : file.layout.encode = file.encode := by
  simp only [File.layout, Layout.encode, File.encode, encodePool, encodeIndex,
    UInt16.toNat_ofNat_of_lt' file.pool_fits]

theorem File.Holds.gives {file : File} {contents : Contents} (h : file.Holds contents) :
    file.layout.Gives (contents.classUnit file.flags) where
  name := h.name.classAt
  modifiers := rfl
  superclass := by
    have hsuper := h.superclass
    unfold Contents.classUnit
    cases hfound : contents.superclass with
    | none =>
      rw [hfound] at hsuper
      exact hsuper
    | some name =>
      rw [hfound] at hsuper
      exact HasClass.classAt hsuper
  interfaces := by
    refine List.forall₂_map_right_iff.2 (h.interfaces.imp ?_)
    exact fun index name hclass => hclass.classAt
  members kind := by
    cases kind with
    | field => exact List.forall₂_map_right_iff.2 (h.fields.imp fun info m hm => hm.gives _)
    | method => exact List.forall₂_map_right_iff.2 (h.methods.imp fun info m hm => hm.gives _)

theorem reads_classUnit {file : File} {contents : Contents} (h : file.Holds contents) :
    Reads classUnit file.encode (contents.classUnit file.flags) :=
  file.encode_layout ▸ h.gives.reads

theorem Declared.gives_member {kind : MemberKind} (d : Declared kind) (owner : ClassName) :
    d.Gives owner (d.member owner) := ⟨rfl, rfl, rfl, flagged_ofAccessFlags d.flags⟩

theorem Contents.gives_classUnit (contents : Contents) (flags : BitVec 16) :
    contents.Gives flags (contents.classUnit flags) where
  name_eq := rfl
  flagged := flagged_ofAccessFlags flags
  superclass_eq := rfl
  interfaces_eq := rfl
  fields := List.forall₂_map_right_iff.2 (List.forall₂_same.2 fun d _ => d.gives_member _)
  methods := List.forall₂_map_right_iff.2 (List.forall₂_same.2 fun d _ => d.gives_member _)

theorem Declared.Gives.eq_member {kind : MemberKind} {d : Declared kind} {owner : ClassName}
    {m : Member kind} (h : d.Gives owner m) : d.member owner = m := by
  obtain ⟨_, _, _, modifiers⟩ := m
  obtain ⟨rfl, rfl, rfl, hflagged⟩ := h
  obtain rfl := (flagged_ofAccessFlags d.flags).unique hflagged
  rfl

/-- There is one class with given contents and flags. -/
theorem Contents.Gives.eq_classUnit {contents : Contents} {flags : BitVec 16} {c : ClassUnit}
    (h : contents.Gives flags c) : contents.classUnit flags = c := by
  have hfields := List.forall₂_map_left_iff.2 (h.fields.imp fun _ _ hm => hm.eq_member)
  have hmethods := List.forall₂_map_left_iff.2 (h.methods.imp fun _ _ hm => hm.eq_member)
  rw [List.forall₂_eq_eq_eq] at hfields hmethods
  obtain ⟨⟨_, modifiers, _, _⟩, _, _⟩ := c
  obtain ⟨rfl, hflagged, rfl, rfl, -, -⟩ := h
  obtain rfl := (flagged_ofAccessFlags flags).unique hflagged
  obtain rfl := hfields
  obtain rfl := hmethods
  rfl

/-- A class file is read back as what it holds. -/
theorem parse_encode {file : File} {contents : Contents} (h : file.Holds contents) :
    ∃ c, parse file.encode = .ok c ∧ contents.Gives file.flags c := by
  refine ⟨contents.classUnit file.flags, ?_, contents.gives_classUnit file.flags⟩
  have hread := reads_classUnit h 0 []
  rw [List.append_nil] at hread
  unfold parse
  rw [hread]
  rfl

def textEntry (text : String) (fits : text.toUTF8.data.toList.length < limit 2) : Entry :=
  .utf8 ⟨text.toUTF8.data.toList, fits⟩

/-- A class file with a field and a method. Two entries of the pool are wide, and one that
nothing refers to is not UTF-8. -/
def sample : File where
  minor := 0
  major := 52
  pool := [.other .long #v[0, 0, 0, 0, 0, 0, 0, 1], textEntry "p/A" (by decide +kernel),
    .classRef 3, .utf8 ⟨[0xC0, 0xFF], by decide⟩, textEntry "java.lang.Object" (by decide +kernel),
    .classRef 6, .other .double #v[0, 0, 0, 0, 0, 0, 0, 0], textEntry "x" (by decide +kernel),
    textEntry "[I" (by decide +kernel), textEntry "m" (by decide +kernel),
    textEntry "(JLp/B;)V" (by decide +kernel)]
  flags := 0x8021
  name := 4
  superclass := 7
  interfaces := ⟨[7], by decide⟩
  fields := ⟨[⟨0x8002, 10, 11, ⟨[], by decide⟩⟩], by decide⟩
  methods := ⟨[⟨1, 12, 13, ⟨[⟨3, ⟨[1, 2, 3], by decide⟩⟩], by decide⟩⟩], by decide⟩
  attributes := ⟨[⟨3, ⟨[0], by decide⟩⟩], by decide⟩
  pool_fits := by decide

theorem methodType_sample :
    MethodType ['(', 'J', 'L', 'p', '/', 'B', ';', ')', 'V']
      [['J'], ['L', 'p', '/', 'B', ';']] := by
  have hname : ['p', '/', 'B'] ≠ [] := by decide
  have htypes : ∀ type ∈ [['J'], ['L', 'p', '/', 'B', ';']], FieldType type := by
    simpa using And.intro (FieldType.code rfl) (FieldType.object hname (by decide))
  exact .void htypes

def sampleContents : Contents where
  name := "p/A"
  superclass := some "java.lang.Object"
  interfaces := ["java.lang.Object"]
  fields := [{
    name := "x"
    descriptor := "[I"
    flags := 0x8002
    isName := ⟨by decide, List.forall_mem_singleton.2 rfl, List.forall_mem_singleton.2 (by decide)⟩
    isDescriptor := .array (.code rfl) }]
  methods := [{
    name := "m"
    descriptor := "(JLp/B;)V"
    flags := 1
    isName := ⟨by decide, List.forall_mem_singleton.2 rfl, List.forall_mem_singleton.2 (by decide)⟩
    isDescriptor := ⟨_, methodType_sample⟩ }]

/-- The class's flags are 0x8021, its field's 0x8002 and its method's 1. -/
theorem parse_encode_sample :
    sample.Holds sampleContents ∧
      parse sample.encode = .ok {
        name := .ofString "p/A"
        modifiers := (Modifiers.single .isPublic).union (.single .isSynchronized)
        superclass := some (.ofString "java/lang/Object")
        interfaces := [.ofString "java/lang/Object"]
        fields := [⟨.ofString "p/A", "x", "[I", .single .isPrivate⟩]
        methods := [⟨.ofString "p/A", "m", "(JLp/B;)V", .single .isPublic⟩] } := by
  have hobject : HasClass sample.pool 7 "java.lang.Object" := ⟨6, rfl, _, rfl, rfl⟩
  have hholds : sample.Holds sampleContents := {
    name := ⟨3, rfl, _, rfl, rfl⟩
    superclass := hobject
    interfaces := .cons hobject .nil
    fields := .cons ⟨rfl, ⟨_, rfl, rfl⟩, ⟨_, rfl, rfl⟩⟩ .nil
    methods := .cons ⟨rfl, ⟨_, rfl, rfl⟩, ⟨_, rfl, rfl⟩⟩ .nil }
  obtain ⟨c, hparse, hgives⟩ := parse_encode hholds
  refine ⟨hholds, hparse.trans (congrArg Except.ok ?_)⟩
  rw [← hgives.eq_classUnit]
  decide +kernel

end UnitLink.ClassFile
