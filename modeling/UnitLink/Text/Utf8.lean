/-! UTF-8 read byte by byte: the well-formed sequences of the Unicode standard
(table 3-7), lossy decoding, and the place of the first ill-formed sequence. -/
namespace UnitLink.Text

/-- The text's length in UTF-8 code units. -/
def utf8Length (cs : List Char) : Nat := cs.foldr (fun c n => c.utf8Size + n) 0

/-- A sequence that has begun and wants `more + 1` further bytes, the next of them
between `low` and `high`. -/
structure Utf8Prefix where
  value : Nat
  more : Nat
  low : Nat
  high : Nat
  deriving DecidableEq, Repr

inductive Utf8Lead where
  | whole (c : Char)
  | opens (begun : Utf8Prefix)
  | illFormed

/-- What a byte means at the start of a sequence. The narrower ranges of the second
byte keep out overlong forms, surrogates and values above U+10FFFF. -/
def utf8Lead (byte : UInt8) : Utf8Lead :=
  let n := byte.toNat
  if n < 0x80 then .whole (Char.ofNat n)
  else if n < 0xC2 then .illFormed
  else if n < 0xE0 then .opens ⟨n - 0xC0, 0, 0x80, 0xBF⟩
  else if n < 0xF0 then
    .opens ⟨n - 0xE0, 1, if n = 0xE0 then 0xA0 else 0x80, if n = 0xED then 0x9F else 0xBF⟩
  else if n < 0xF5 then
    .opens ⟨n - 0xF0, 2, if n = 0xF0 then 0x90 else 0x80, if n = 0xF4 then 0x8F else 0xBF⟩
  else .illFormed

/-- The items that one more byte completes, each a character or an ill-formed
sequence (`none`), and the sequence left open after it. -/
def utf8Feed (begun : Option Utf8Prefix) (byte : UInt8) :
    List (Option Char) × Option Utf8Prefix :=
  let fresh := match utf8Lead byte with
    | .whole c => ([some c], none)
    | .opens begun => ([], some begun)
    | .illFormed => ([none], none)
  match begun with
  | none => fresh
  | some p =>
    if p.low ≤ byte.toNat ∧ byte.toNat ≤ p.high then
      let value := 64 * p.value + (byte.toNat - 0x80)
      match p.more with
      | 0 => ([some (Char.ofNat value)], none)
      | more + 1 => ([], some ⟨value, more, 0x80, 0xBF⟩)
    else (none :: fresh.1, fresh.2)

def utf8Items (begun : Option Utf8Prefix) : List UInt8 → List (Option Char)
  | [] => if begun.isSome then [none] else []
  | byte :: bytes =>
    let (items, begun) := utf8Feed begun byte
    items ++ utf8Items begun bytes

/-- Decodes, putting U+FFFD for every maximal ill-formed sequence. -/
def utf8Lossy (bytes : List UInt8) : List Char :=
  (utf8Items none bytes).map fun item => item.getD '\uFFFD'

/-- Where the first ill-formed sequence starts, and how many bytes it has unless
the input ended within it. -/
structure Utf8Fault where
  start : Nat
  length : Option Nat
  deriving DecidableEq, Repr

def Utf8Fault.message (fault : Utf8Fault) : String :=
  match fault.length with
  | some n => s!"invalid utf-8 sequence of {n} bytes from index {fault.start}"
  | none => s!"incomplete utf-8 byte sequence from index {fault.start}"

/-- Scans from index `here`, the open sequence having started at `start`. -/
def utf8FaultFrom (begun : Option Utf8Prefix) (start here : Nat) : List UInt8 → Utf8Fault
  | [] => ⟨start, none⟩
  | byte :: bytes =>
    match utf8Feed begun byte with
    | (none :: _, _) => ⟨start, some (if begun.isSome then here - start else 1)⟩
    | (_, none) => utf8FaultFrom none (here + 1) (here + 1) bytes
    | (_, some p) => utf8FaultFrom (some p) start (here + 1) bytes

/-- The fault of bytes that are not well-formed UTF-8. -/
def utf8Fault (bytes : List UInt8) : Utf8Fault := utf8FaultFrom none 0 0 bytes

end UnitLink.Text
