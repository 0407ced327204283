/-! Sparse tables from line numbers to values. Lines are added in ascending order, so
entries lie in pages of fixed size and are found by binary search over the pages and then
within one. -/
namespace UnitLink

inductive LineTableFault where
  | notAscending (line last : Nat)
  | absent (line : Nat)
  deriving DecidableEq, Repr

def LineTableFault.message : LineTableFault → String
  | notAscending line last => s!"Line {line} added to line table after line {last}"
  | absent line => s!"Attempted to replace line {line}, which isn't in the line table"

abbrev LinePage (α : Type) := Array (Nat × α)

structure LineTable (α : Type) where
  pages : Array (LinePage α)
  /-- How many lines were added. -/
  size : Nat

namespace LineTable

variable {α : Type}

def pageSize : Nat := 64

def empty : LineTable α := ⟨#[], 0⟩

instance : Inhabited (LineTable α) := ⟨empty⟩

/-- The entries in ascending order of lines. -/
def toList (t : LineTable α) : List (Nat × α) := t.pages.toList.flatMap Array.toList

@[simp] theorem toList_empty : (empty : LineTable α).toList = [] := rfl

def isEmpty (t : LineTable α) : Bool := t.size == 0

def lastLine? (t : LineTable α) : Option Nat :=
  t.pages.back?.bind fun page => page.back?.map Prod.fst

/-- The last page while it has room, else a new one, takes the entry. -/
def push (t : LineTable α) (entry : Nat × α) : LineTable α :=
  match t.pages.back? with
  | some page =>
    if page.size < pageSize then ⟨t.pages.pop.push (page.push entry), t.size + 1⟩
    else ⟨t.pages.push #[entry], t.size + 1⟩
  | none => ⟨t.pages.push #[entry], t.size + 1⟩

/-- An entry that is pushed is the last one. -/
@[simp] theorem toList_push (t : LineTable α) (entry : Nat × α) :
    (t.push entry).toList = t.toList ++ [entry] := by
  unfold push
  split
  · rename_i page h
    obtain ⟨full, hpages⟩ := List.getLast?_eq_some_iff.1 (t.pages.getLast?_toList.trans h)
    split <;> simp [toList, hpages]
  · simp [toList]

@[simp] theorem size_push (t : LineTable α) (entry : Nat × α) :
    (t.push entry).size = t.size + 1 := by
  unfold push
  split
  · split <;> rfl
  · rfl

/-- Why a line cannot be added, if it cannot. -/
def refusal? (t : LineTable α) (line : Nat) : Option LineTableFault :=
  match t.lastLine? with
  | some last => if line ≤ last then some (.notAscending line last) else none
  | none => none

def add (t : LineTable α) (line : Nat) (value : α) : Except LineTableFault (LineTable α) :=
  match t.refusal? line with
  | some fault => .error fault
  | none => .ok (t.push (line, value))

/-- A line that is added stands after all others. -/
theorem toList_add {t after : LineTable α} {line : Nat} {value : α}
    (h : t.add line value = .ok after) : after.toList = t.toList ++ [(line, value)] := by
  unfold add at h
  split at h
  · cases h
  · obtain rfl := Except.ok.inj h
    exact toList_push t (line, value)

/-- Adds entries in order, up to the first that is refused. -/
def addEach (t : LineTable α) : List (Nat × α) → Option LineTableFault × LineTable α
  | [] => (none, t)
  | (line, value) :: entries =>
    match t.refusal? line with
    | some fault => (some fault, t)
    | none => (t.push (line, value)).addEach entries

/-- The least index from `lo` to `hi` at which the monotone test no longer holds. -/
def partitionPoint (holds : Nat → Bool) (lo hi : Nat) : Nat :=
  if lo < hi then
    let mid := (lo + hi) / 2
    if holds mid then partitionPoint holds (mid + 1) hi else partitionPoint holds lo mid
  else lo
termination_by hi - lo
decreasing_by all_goals omega

/-- The index of the entry of a line within a page. -/
def entryIndex? (page : LinePage α) (line : Nat) : Option Nat :=
  let i := partitionPoint (fun i => page[i]?.any fun entry => entry.1 < line) 0 page.size
  match page[i]? with
  | some (found, _) => if found = line then some i else none
  | none => none

/-- The page and the index within it at which a line stands. -/
def position? (t : LineTable α) (line : Nat) : Option (Nat × Nat) :=
  match partitionPoint
      (fun i => t.pages[i]?.any fun page => page[0]?.any fun entry => entry.1 ≤ line)
      0 t.pages.size with
  | 0 => none
  | page + 1 => do
    let entries ← t.pages[page]?
    let entry ← entryIndex? entries line
    return (page, entry)

def value? (t : LineTable α) (page entry : Nat) : Option α := do
  let entries ← t.pages[page]?
  let (_, value) ← entries[entry]?
  return value

def get? (t : LineTable α) (line : Nat) : Option α := do
  let (page, entry) ← t.position? line
  t.value? page entry

/-- Gives a line that is present another value; the old value comes first. -/
def replace (t : LineTable α) (line : Nat) (value : α) :
    Except LineTableFault (α × LineTable α) :=
  match t.position? line with
  | none => .error (.absent line)
  | some (page, entry) =>
    match t.value? page entry with
    | none => .error (.absent line)
    | some old =>
      .ok (old,
        { t with pages :=
          t.pages.modify page fun entries => entries.modify entry fun _ => (line, value) })

end LineTable

/-- A place in a table from which later lines are looked for. -/
structure LineCursor where
  page : Nat
  entry : Nat
  lastRequested : Option Nat
  deriving DecidableEq, Repr

namespace LineCursor

variable {α : Type}

def start : LineCursor := ⟨0, 0, none⟩

/-- Goes forward to the line or to the first one after it. -/
def scan (t : LineTable α) (line page entry : Nat) : Option α × Nat × Nat :=
  if h : page < t.pages.size then
    if hentry : entry < t.pages[page].size then
      let (current, value) := t.pages[page][entry]
      if current = line then (some value, page, entry)
      else if line < current then (none, page, entry)
      else scan t line page (entry + 1)
    else scan t line (page + 1) 0
  else (none, page, entry)
termination_by (t.pages.size - page, (t.pages[page]?.map Array.size).getD 0 - entry)
decreasing_by
  · simp only [Prod.lex_def]
    right
    simp [Array.getElem?_eq_getElem h]
    omega
  · simp only [Prod.lex_def]
    left
    omega

/-- Answers for one line. Lines are best asked for in ascending order; for a line before
the one asked for last there is a search of the whole table. -/
def get? (t : LineTable α) (cursor : LineCursor) (line : Nat) : Option α × LineCursor :=
  if cursor.lastRequested.any fun last => line < last then
    match t.position? line with
    | some (page, entry) => (t.value? page entry, ⟨page, entry, some line⟩)
    | none => (none, { cursor with lastRequested := some line })
  else
    let (value, page, entry) := scan t line cursor.page cursor.entry
    (value, ⟨page, entry, some line⟩)

end LineCursor
end UnitLink
