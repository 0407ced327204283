import Mathlib.Data.List.Chain
import UnitLink.Proofs.LineTable
/-! Cursors that are asked for lines in any order. The tables are those that additions and
replacements lead to. What a cursor overlooks is told by the requests before: after one that went
back and found nothing, the lines up to the furthest one asked for are passed over, until the
requests go back to a line of the table or get past that one. -/
namespace UnitLink

inductive LineChange (α : Type) where
  | add (line : Nat) (value : α)
  | replace (line : Nat) (value : α)
  deriving DecidableEq, Repr

namespace LineTable

variable {α : Type} {t : LineTable α}

/-- A change that is refused leaves the table as it is. -/
def change (t : LineTable α) : LineChange α → LineTable α
  | .add line value =>
    match t.add line value with
    | .ok after => after
    | .error _ => t
  | .replace line value =>
    match t.replace line value with
    | .ok (_, after) => after
    | .error _ => t

def ofChanges (changes : List (LineChange α)) : LineTable α := changes.foldl change empty

theorem Ordered.refusal?_eq_none_iff (h : t.Ordered) {line : Nat} :
    t.refusal? line = none ↔ ∀ entry ∈ t.toList, entry.1 < line := by
  unfold refusal?
  rw [h.lastLine?]
  cases hlast : t.toList.getLast? with
  | none => simp [List.getLast?_eq_none_iff.1 hlast]
  | some last =>
    obtain ⟨before, hbefore⟩ := List.getLast?_eq_some_iff.1 hlast
    have hascending := h.ascending
    rw [hbefore, List.pairwise_append] at hascending
    simp only [Option.map_some, ite_eq_right_iff, reduceCtorEq, imp_false, Nat.not_le, hbefore]
    constructor
    · intro hlt entry hentry
      rcases List.mem_append.1 hentry with hentry | hentry
      · exact (hascending.2.2 entry hentry last (by simp)).trans hlt
      · simpa [List.mem_singleton.1 hentry] using hlt
    · intro hall
      exact hall last (by simp)

theorem Ordered.change (h : t.Ordered) (c : LineChange α) : (t.change c).Ordered := by
  cases c with
  | add line value =>
    simp only [LineTable.change]
    cases hfree : t.refusal? line with
    | some fault => simpa [LineTable.add, hfree] using h
    | none =>
      obtain ⟨after, hafter, -, hordered⟩ := h.add value (h.refusal?_eq_none_iff.1 hfree)
      simpa [hafter] using hordered
  | replace line value =>
    simp only [LineTable.change]
    cases hpos : t.position? line with
    | none => simpa [LineTable.replace, hpos] using h
    | some place =>
      obtain ⟨page, old, hp, hi⟩ := getElem?_of_position? hpos
      obtain ⟨before, after, hsplit, -⟩ := toList_modify hp hi (line, old)
      obtain ⟨changed, hchanged, -, hordered⟩ := h.replace hsplit value
      simpa [hchanged] using hordered

theorem Ordered.foldl_change (h : t.Ordered) (changes : List (LineChange α)) :
    (changes.foldl LineTable.change t).Ordered := by
  induction changes generalizing t with
  | nil => exact h
  | cons c changes ih => exact ih (h.change c)

theorem ordered_ofChanges (changes : List (LineChange α)) : (ofChanges changes).Ordered :=
  ordered_empty.foldl_change changes

/-! ### Places -/

/-- The smaller lines are before the place, and all others from it on. -/
structure Separates (t : LineTable α) (page entry line : Nat) : Prop where
  before : ∃ passed, t.toList = passed ++ t.rest page entry ∧ ∀ e ∈ passed, e.1 < line
  after : ∀ e ∈ t.rest page entry, line ≤ e.1

theorem separates_start (t : LineTable α) : t.Separates 0 0 0 where
  before := ⟨[], by simp [rest_start], by simp⟩
  after := by simp

theorem exists_passed (t : LineTable α) (page entry : Nat) :
    ∃ passed, t.toList = passed ++ t.rest page entry := by
  refine ⟨(t.pages.toList.take page).flatMap Array.toList ++
    ((t.pages[page]?.map Array.toList).getD []).take entry, ?_⟩
  simp only [rest, toList, List.append_assoc, ← List.append_assoc (List.take entry _),
    List.take_append_drop]
  conv_lhs => rw [← List.take_append_drop page t.pages.toList, List.flatMap_append]
  congr 1
  rcases Nat.lt_or_ge page t.pages.size with h | h
  · rw [List.drop_eq_getElem_cons (by simpa using h)]
    simp [Array.getElem?_eq_getElem h]
  · simp [List.drop_eq_nil_of_le, h, Nat.le_succ_of_le h]

/-- A line that the last part of a table starts from is before all of that part. -/
theorem Ordered.le_of_head (h : t.Ordered) {before after : List (Nat × α)} {line : Nat}
    (ht : t.toList = before ++ after) (hfirst : ∀ e ∈ after.head?, line ≤ e.1) :
    ∀ e ∈ after, line ≤ e.1 := by
  have hascending := h.ascending
  rw [ht, List.pairwise_append] at hascending
  cases after with
  | nil => simp
  | cons first later =>
    have hle : line ≤ first.1 := hfirst first rfl
    intro e he
    rcases List.mem_cons.1 he with rfl | he
    · exact hle
    · exact hle.trans ((List.pairwise_cons.1 hascending.2.1).1 e he).le

theorem Ordered.separates (h : t.Ordered) {p i line : Nat} {page : LinePage α} {value : α}
    (hp : t.pages[p]? = some page) (hi : page[i]? = some (line, value)) :
    t.Separates p i line := by
  obtain ⟨hpage, rfl⟩ := Array.getElem?_eq_some_iff.1 hp
  obtain ⟨hentry, hfound⟩ := Array.getElem?_eq_some_iff.1 hi
  obtain ⟨passed, hpassed⟩ := t.exists_passed p i
  have hrest := rest_eq_cons hpage hentry
  have hascending := h.ascending
  rw [hpassed, hrest, hfound, List.pairwise_append, List.pairwise_cons] at hascending
  constructor
  · exact ⟨passed, hpassed, fun e he => hascending.2.2 e he (line, value) (by simp)⟩
  · intro e he
    rw [hrest, hfound] at he
    rcases List.mem_cons.1 he with rfl | he
    · simp
    · exact (hascending.2.1.1 e he).le

end LineTable

namespace LineCursor

open LineTable (Separates)

variable {α : Type} {t : LineTable α}

/-- From a place on, a scan goes to the first line that is not before `line`. It finds no line that
is before the place. -/
theorem separates_scan (h : t.Ordered) {page entry first : Nat}
    (hplace : t.Separates page entry first) (line : Nat) :
    t.Separates (scan t line page entry).2.1 (scan t line page entry).2.2 (max first line) ∧
      (scan t line page entry).1 = if line < first then none else t.get? line := by
  obtain ⟨passed, hsplit, hpassed⟩ := hplace.before
  obtain ⟨scanned, hwhole, hscanned, hstop, hvalue⟩ := exists_scanned hsplit line
  have hleft : t.rest page entry = scanned ++
      t.rest (scan t line page entry).2.1 (scan t line page entry).2.2 := by
    simpa using hsplit.symm.trans (hwhole.trans (List.append_assoc _ _ _))
  have hfirst : ∀ e ∈ t.rest (scan t line page entry).2.1 (scan t line page entry).2.2,
      first ≤ e.1 := by
    intro e he
    apply hplace.after
    simp [hleft, he]
  have hbefore : ∀ e ∈ passed ++ scanned, e.1 < max first line := by
    intro e he
    rcases List.mem_append.1 he with he | he
    · have := hpassed e he
      omega
    · have := hscanned e he
      omega
  constructor
  · refine ⟨⟨_, hwhole, hbefore⟩, fun e he => ?_⟩
    have := h.le_of_head hwhole hstop e he
    have := hfirst e he
    omega
  · rw [hvalue]
    split
    · rename_i hlt
      cases hleft : t.rest (scan t line page entry).2.1 (scan t line page entry).2.2 with
      | nil => rfl
      | cons stop later =>
        have := hfirst stop (by simp [hleft])
        have hne : stop.1 ≠ line := by omega
        simp [hne]
    · rename_i hge
      refine (h.get?_of_split hwhole (fun e he => ?_) hstop).symm
      have := hbefore e he
      omega

/-! ### Requests -/

/-- The answers to requests that are made one after the other. -/
def answers (t : LineTable α) (cursor : LineCursor) : List Nat → List (Option α)
  | [] => []
  | line :: lines => (cursor.get? t line).1 :: answers t (cursor.get? t line).2 lines

/-- What the requests so far tell of a cursor: the line asked for last, and the furthest one since
the cursor last went back to a line of the table. -/
structure Requests where
  last : Option Nat
  furthest : Nat
  deriving DecidableEq, Repr

namespace Requests

def none : Requests := ⟨.none, 0⟩

def goesBack (r : Requests) (line : Nat) : Bool := r.last.any fun last => line < last

def next (t : LineTable α) (r : Requests) (line : Nat) : Requests :=
  ⟨some line, if r.goesBack line ∧ (t.get? line).isSome then line else max r.furthest line⟩

theorem le_furthest_next (t : LineTable α) (r : Requests) (line : Nat) :
    line ≤ (r.next t line).furthest := by
  unfold next
  split
  · exact le_rfl
  · exact le_max_right _ _

/-- The cursor has passed the line and does not go back for it. -/
def Overlooks (r : Requests) (line : Nat) : Prop := r.goesBack line = false ∧ line < r.furthest

instance (r : Requests) (line : Nat) : Decidable (r.Overlooks line) :=
  inferInstanceAs (Decidable (_ ∧ _))

/-- What is found for each request, told without a place in the table. -/
def account (t : LineTable α) (r : Requests) : List Nat → List (Option α)
  | [] => []
  | line :: lines =>
    (if r.Overlooks line then .none else t.get? line) :: account t (r.next t line) lines

end Requests

/-- The cursor stands where the requests have left it. -/
structure Follows (t : LineTable α) (cursor : LineCursor) (r : Requests) : Prop where
  last : cursor.lastRequested = r.last
  place : t.Separates cursor.page cursor.entry r.furthest
  last_le : ∀ last, r.last = some last → last ≤ r.furthest

theorem follows_start (t : LineTable α) : start.Follows t .none where
  last := rfl
  place := t.separates_start
  last_le := by simp [Requests.none]

theorem Follows.get? (h : t.Ordered) {cursor : LineCursor} {r : Requests}
    (hr : cursor.Follows t r) (line : Nat) :
    (cursor.get? t line).1 = (if r.Overlooks line then none else t.get? line) ∧
      (cursor.get? t line).2.Follows t (r.next t line) := by
  have hlast : ∀ last, (r.next t line).last = some last → last ≤ (r.next t line).furthest := by
    rintro _ ⟨⟩
    exact Requests.le_furthest_next t r line
  have hback : (cursor.lastRequested.any fun last => line < last) = r.goesBack line := by
    rw [hr.last, Requests.goesBack]
  cases hgoes : r.goesBack line with
  | false =>
    obtain ⟨hplace, hvalue⟩ := separates_scan h hr.place line
    have hget : cursor.get? t line = ((scan t line cursor.page cursor.entry).1,
        ⟨(scan t line cursor.page cursor.entry).2.1, (scan t line cursor.page cursor.entry).2.2,
          some line⟩) := by
      simp [LineCursor.get?, hback, hgoes]
    rw [hget, hvalue]
    refine ⟨by simp [Requests.Overlooks, hgoes], rfl, ?_, hlast⟩
    simpa [Requests.next, hgoes] using hplace
  | true =>
    obtain ⟨last, hrequested, hlt⟩ := (Option.any_eq_true _ _).1 hgoes
    have hle := hr.last_le last hrequested
    have hlt : line < last := by simpa using hlt
    cases hpos : t.position? line with
    | none =>
      have hnone : t.get? line = none := by simp [LineTable.get?, hpos]
      have hget : cursor.get? t line = (none, { cursor with lastRequested := some line }) := by
        simp [LineCursor.get?, hback, hgoes, hpos]
      have hmax : max r.furthest line = r.furthest := by omega
      rw [hget, hnone]
      refine ⟨by simp, rfl, ?_, hlast⟩
      simpa [Requests.next, hnone, hmax] using hr.place
    | some place =>
      obtain ⟨p, i⟩ := place
      obtain ⟨page, value, hp, hi⟩ := LineTable.getElem?_of_position? hpos
      have hfound : t.value? p i = some value := LineTable.value?_eq hp hi
      have hsome : t.get? line = some value := by simp [LineTable.get?, hpos, hfound]
      have hget : cursor.get? t line = (some value, ⟨p, i, some line⟩) := by
        simp [LineCursor.get?, hback, hgoes, hpos, hfound]
      rw [hget, hsome]
      refine ⟨by simp [Requests.Overlooks, hgoes], rfl, ?_, hlast⟩
      simpa [Requests.next, hgoes, hsome] using h.separates hp hi

theorem Follows.answers_eq (h : t.Ordered) {cursor : LineCursor} {r : Requests}
    (hr : cursor.Follows t r) (lines : List Nat) : answers t cursor lines = r.account t lines := by
  induction lines generalizing cursor r with
  | nil => rfl
  | cons line lines ih =>
    obtain ⟨hvalue, hnext⟩ := hr.get? h line
    rw [answers, Requests.account, hvalue, ih hnext]

/-- A request goes back only to lines of the table. -/
def BackToLines (t : LineTable α) (last line : Nat) : Prop := line < last → (t.get? line).isSome

/-- Where requests go back only to lines of the table, none is overlooked. -/
theorem Requests.account_of_isChain {last : Nat} {lines : List Nat}
    (h : List.IsChain (BackToLines t) (last :: lines)) :
    Requests.account t ⟨some last, last⟩ lines = lines.map t.get? := by
  induction lines generalizing last with
  | nil => rfl
  | cons line lines ih =>
    obtain ⟨hline, hlines⟩ := List.isChain_cons_cons.1 h
    have hnext : Requests.next t ⟨some last, last⟩ line = ⟨some line, line⟩ := by
      by_cases hlt : line < last
      · simp [Requests.next, Requests.goesBack, hlt, hline hlt]
      · simp [Requests.next, Requests.goesBack, hlt]
        omega
    have hsees : ¬ Requests.Overlooks ⟨some last, last⟩ line := by
      simp [Requests.Overlooks, Requests.goesBack]
    rw [Requests.account, hnext, if_neg hsees, ih hlines, List.map_cons]

/-- What a cursor answers to any requests on any table. A line that is not before the one asked
for last, but before one that was asked for since the cursor last went back to a line of the table,
is overlooked; every other answer is the table's. So all of them are, if the requests go back to
lines of the table only. -/
theorem answers_ofChanges (changes : List (LineChange α)) (lines : List Nat) :
    answers (.ofChanges changes) start lines =
        Requests.none.account (.ofChanges changes) lines ∧
      (lines.IsChain (BackToLines (.ofChanges changes)) →
        answers (.ofChanges changes) start lines =
          lines.map (LineTable.ofChanges changes).get?) := by
  have haccount := (follows_start _).answers_eq (LineTable.ordered_ofChanges changes) lines
  refine ⟨haccount, fun hchain => ?_⟩
  rw [haccount]
  cases lines with
  | nil => rfl
  | cons line lines =>
    have hnext : Requests.next (.ofChanges changes) .none line = ⟨some line, line⟩ := by
      simp [Requests.next, Requests.none, Requests.goesBack]
    have hsees : ¬ Requests.none.Overlooks line := by
      simp [Requests.Overlooks, Requests.none]
    rw [Requests.account, hnext, if_neg hsees, Requests.account_of_isChain hchain, List.map_cons]

theorem answers_ofChanges_backToLines :
    let changes := (List.range 70).map (fun i => LineChange.add (10 * i) i) ++ [.replace 640 0]
    [650, 630, 635, 640].IsChain (BackToLines (.ofChanges changes)) ∧
      answers (.ofChanges changes) start [650, 630, 635, 640] =
        [some 65, some 63, none, some 0] := by
  intro changes
  have hchain : [650, 630, 635, 640].IsChain (BackToLines (.ofChanges changes)) := by
    simp [BackToLines]
    decide +kernel
  refine ⟨hchain, ((answers_ofChanges changes _).2 hchain).trans ?_⟩
  decide +kernel

/-- After a request that went back and found nothing, a cursor overlooks a line of the table. -/
theorem answers_after_missed_request :
    let t := LineTable.ofChanges [.add 10 "ten", .add 20 "twenty"]
    answers t start [20, 5, 10] = [some "twenty", none, none] ∧
      [20, 5, 10].map t.get? = [some "twenty", none, some "ten"] := by
  intro t
  constructor
  · rw [(follows_start t).answers_eq (LineTable.ordered_ofChanges _)]
    decide +kernel
  · decide +kernel

end LineCursor
end UnitLink
