import UnitLink.Proofs.CursorRequests
/-! Line tables as plain lists. Whatever changes a table goes through, it answers them as a list of
lines and values does, and what it shows afterwards is that list. A change that is refused is as if
it had not been tried. The pages are filled one after the other, and lines ascend through them. -/
namespace UnitLink

variable {α : Type}

namespace LineChange

/-- The answer of a list of lines and values to a change, and the list after it. An addition goes
to the end; a replacement is answered with the value that the line had. -/
def onList (entries : List (Nat × α)) :
    LineChange α → Except LineTableFault (Option α) × List (Nat × α)
  | add line value =>
    match entries.getLast? with
    | none => (.ok none, [(line, value)])
    | some (last, _) =>
      if last < line then (.ok none, entries ++ [(line, value)])
      else (.error (.notAscending line last), entries)
  | replace line value =>
    match entries.lookup line with
    | none => (.error (.absent line), entries)
    | some old =>
      (.ok (some old), entries.map fun entry => if entry.1 = line then (line, value) else entry)

def listOf (changes : List (LineChange α)) : List (Nat × α) :=
  changes.foldl (fun entries c => (c.onList entries).2) []

end LineChange

namespace LineTable

variable {t : LineTable α}

def answer (t : LineTable α) : LineChange α → Except LineTableFault (Option α)
  | .add line value => (t.add line value).map fun _ => none
  | .replace line value => (t.replace line value).map fun (old, _) => some old

def put (t : LineTable α) (page entry : Nat) (new : Nat × α) : LineTable α :=
  { t with pages := t.pages.modify page fun entries => entries.modify entry fun _ => new }

theorem change_cases (t : LineTable α) (c : LineChange α) :
    t.change c = t ∨ (∃ entry, t.change c = t.push entry) ∨
      ∃ page entry new, t.change c = t.put page entry new := by
  cases c with
  | add line value =>
    simp only [change, add]
    cases t.refusal? line with
    | some fault => exact .inl rfl
    | none => exact .inr (.inl ⟨_, rfl⟩)
  | replace line value =>
    simp only [change, replace]
    cases t.position? line with
    | none => exact .inl rfl
    | some place =>
      obtain ⟨page, entry⟩ := place
      cases hvalue : t.value? page entry with
      | none => exact .inl (by simp only [hvalue])
      | some old => exact .inr (.inr ⟨page, entry, (line, value), by simp only [hvalue]; rfl⟩)

theorem change_of_refused {c : LineChange α} {fault : LineTableFault}
    (h : t.answer c = .error fault) : t.change c = t := by
  cases c with
  | add line value =>
    cases hadd : t.add line value with
    | error => simp only [change, hadd]
    | ok after =>
      rw [answer, hadd] at h
      cases h
  | replace line value =>
    cases hreplace : t.replace line value with
    | error => simp only [change, hreplace]
    | ok after =>
      rw [answer, hreplace] at h
      cases h

/-! ### Pages -/

/-- A page is full before the next one is begun, and the size is the number of entries. -/
structure Filled (t : LineTable α) : Prop where
  full : ∀ page ∈ t.pages.toList.dropLast, page.size = pageSize
  size_le : ∀ page ∈ t.pages.toList, page.size ≤ pageSize
  counted : t.size = t.toList.length

theorem filled_empty : (empty : LineTable α).Filled where
  full := by simp [empty]
  size_le := by simp [empty]
  counted := rfl

theorem Filled.push (h : t.Filled) (entry : Nat × α) : (t.push entry).Filled := by
  have hcounted : (t.push entry).size = (t.push entry).toList.length := by simp [h.counted]
  rcases t.push_cases entry with ⟨before, last, hpages, hroom, hpush⟩ | ⟨hlast, hpush⟩
  · have hfull := h.full
    have hle := h.size_le
    rw [hpages, List.dropLast_concat] at hfull
    rw [hpages, List.forall_mem_append] at hle
    refine ⟨by rwa [hpush, List.dropLast_concat], ?_, hcounted⟩
    rw [hpush, List.forall_mem_append, List.forall_mem_singleton, Array.size_push]
    exact ⟨hle.1, hroom⟩
  · refine ⟨?_, ?_, hcounted⟩
    · rw [hpush, List.dropLast_concat]
      intro page hpage
      rcases List.eq_nil_or_concat t.pages.toList with hnil | ⟨before, last, hpages⟩
      · simp [hnil] at hpage
      · rw [List.concat_eq_append] at hpages
        have hfull := h.full
        rw [hpages, List.dropLast_concat] at hfull
        rw [hpages, List.mem_append, List.mem_singleton] at hpage
        rcases hpage with hpage | rfl
        · exact hfull page hpage
        · exact le_antisymm (h.size_le page (by simp [hpages])) (hlast page (by simp [hpages]))
    · rw [hpush, List.forall_mem_append, List.forall_mem_singleton]
      exact ⟨h.size_le, by simp [pageSize]⟩

theorem sizes_put (t : LineTable α) (page entry : Nat) (new : Nat × α) :
    (t.put page entry new).pages.toList.map Array.size = t.pages.toList.map Array.size := by
  rw [put, Array.toList_modify]
  refine List.ext_getElem (by simp) fun i _ _ => ?_
  simp only [List.getElem_map, List.getElem_modify]
  split <;> simp

theorem Filled.put (h : t.Filled) (page entry : Nat) (new : Nat × α) :
    (t.put page entry new).Filled := by
  have hsizes := t.sizes_put page entry new
  refine ⟨?_, ?_, ?_⟩
  · have hfull : ∀ size ∈ (t.pages.toList.map Array.size).dropLast, size = pageSize := by
      simpa [← List.map_dropLast] using h.full
    rw [← hsizes] at hfull
    simpa [← List.map_dropLast] using hfull
  · have hle : ∀ size ∈ t.pages.toList.map Array.size, size ≤ pageSize := by
      simpa using h.size_le
    rw [← hsizes] at hle
    simpa using hle
  · have hlength : (t.put page entry new).toList.length = t.toList.length := by
      simp only [toList, List.length_flatMap, Array.length_toList, hsizes]
    rw [hlength, ← h.counted]
    rfl

theorem Filled.change (h : t.Filled) (c : LineChange α) : (t.change c).Filled := by
  rcases t.change_cases c with heq | ⟨entry, heq⟩ | ⟨page, entry, new, heq⟩
  · rwa [heq]
  · rw [heq]
    exact h.push entry
  · rw [heq]
    exact h.put page entry new

theorem filled_ofChanges (changes : List (LineChange α)) : (ofChanges changes).Filled := by
  unfold ofChanges
  generalize (empty : LineTable α) = t, filled_empty (α := α) = h
  induction changes generalizing t with
  | nil => exact h
  | cons c changes ih => exact ih _ (h.change c)

/-- Pages as they are to be: none is empty, all but the last have 64 entries, and lines ascend
within each and from one to the next. -/
structure Paged (t : LineTable α) : Prop where
  nonempty : ∀ page ∈ t.pages.toList, 0 < page.size
  full : ∀ page ∈ t.pages.toList.dropLast, page.size = 64
  within : ∀ page ∈ t.pages.toList, page.toList.Pairwise fun a b => a.1 < b.1
  across : t.pages.toList.Pairwise fun page later =>
    ∀ a ∈ page.toList, ∀ b ∈ later.toList, a.1 < b.1

theorem Ordered.paged (h : t.Ordered) (hfilled : t.Filled) : t.Paged where
  nonempty := h.nonempty
  full := hfilled.full
  within := (List.pairwise_flatMap.1 h.ascending).1
  across := (List.pairwise_flatMap.1 h.ascending).2

/-! ### What a table shows -/

/-- Whatever the table is asked for, the list tells. -/
structure Shows (t : LineTable α) (entries : List (Nat × α)) : Prop where
  toList_eq : t.toList = entries
  get?_eq : ∀ line, t.get? line = entries.lookup line
  size_eq : t.size = entries.length
  isEmpty_eq : t.isEmpty = entries.isEmpty
  lastLine?_eq : t.lastLine? = entries.getLast?.map Prod.fst

theorem lookup_eq_some_iff_of_ascending {entries : List (Nat × α)}
    (h : entries.Pairwise fun a b => a.1 < b.1) {line : Nat} {value : α} :
    entries.lookup line = some value ↔ (line, value) ∈ entries := by
  rw [List.lookup_eq_some_iff]
  constructor
  · rintro ⟨before, after, rfl, -⟩
    exact List.mem_append_right _ List.mem_cons_self
  · intro hmem
    obtain ⟨before, after, rfl⟩ := List.append_of_mem hmem
    refine ⟨before, after, rfl, fun entry hentry => ?_⟩
    have hlt := (List.pairwise_append.1 h).2.2 entry hentry (line, value) List.mem_cons_self
    exact bne_iff_ne.2 hlt.ne'

theorem Ordered.get?_eq_lookup (h : t.Ordered) (line : Nat) :
    t.get? line = t.toList.lookup line := by
  refine Option.ext fun value => ?_
  rw [h.get?_eq_some_iff, lookup_eq_some_iff_of_ascending h.ascending]

theorem Ordered.shows (h : t.Ordered) (hfilled : t.Filled) : t.Shows t.toList where
  toList_eq := rfl
  get?_eq := h.get?_eq_lookup
  size_eq := hfilled.counted
  isEmpty_eq := by
    rw [isEmpty, hfilled.counted]
    cases t.toList <;> rfl
  lastLine?_eq := h.lastLine?

theorem Ordered.answer_add (h : t.Ordered) (line : Nat) (value : α) :
    t.answer (.add line value) = ((LineChange.add line value).onList t.toList).1 ∧
      (t.change (.add line value)).toList = ((LineChange.add line value).onList t.toList).2 := by
  simp only [answer, LineTable.change, LineTable.add, refusal?, h.lastLine?, LineChange.onList]
  cases hlast : t.toList.getLast? with
  | none =>
    have hempty : t.toList = [] := List.getLast?_eq_none_iff.1 hlast
    simp [hempty, Except.map]
  | some last =>
    rcases Nat.lt_or_ge last.1 line with hlt | hge
    · simp [hlt, Except.map, Nat.not_le.2 hlt]
    · simp [hge, Except.map, Nat.not_lt.2 hge]

theorem map_replaced {before after : List (Nat × α)} {line : Nat} {old : α}
    (h : (before ++ (line, old) :: after).Pairwise fun a b => a.1 < b.1) (value : α) :
    (before ++ (line, old) :: after).map
        (fun entry => if entry.1 = line then (line, value) else entry) =
      before ++ (line, value) :: after := by
  rw [List.pairwise_append, List.pairwise_cons] at h
  have hbefore : ∀ entry ∈ before, entry.1 ≠ line := fun entry hentry =>
    (h.2.2 entry hentry (line, old) List.mem_cons_self).ne
  have hafter : ∀ entry ∈ after, entry.1 ≠ line := fun entry hentry => (h.2.1.1 entry hentry).ne'
  have hkept (others : List (Nat × α)) (hothers : ∀ entry ∈ others, entry.1 ≠ line) :
      others.map (fun entry => if entry.1 = line then (line, value) else entry) = others := by
    refine (List.map_congr_left fun entry hentry => ?_).trans (List.map_id others)
    rw [if_neg (hothers entry hentry), id]
  rw [List.map_append, List.map_cons, if_pos rfl, hkept before hbefore, hkept after hafter]

theorem Ordered.answer_replace (h : t.Ordered) (line : Nat) (value : α) :
    t.answer (.replace line value) = ((LineChange.replace line value).onList t.toList).1 ∧
      (t.change (.replace line value)).toList =
        ((LineChange.replace line value).onList t.toList).2 := by
  cases hlookup : t.toList.lookup line with
  | none =>
    have habsent : t.position? line = none := by
      cases hpos : t.position? line with
      | none => rfl
      | some place =>
        obtain ⟨page, found, hp, hi⟩ := getElem?_of_position? hpos
        rw [← h.get?_eq_lookup] at hlookup
        simp [get?, hpos, value?_eq hp hi] at hlookup
    simp [answer, LineTable.change, LineTable.replace, habsent, LineChange.onList, hlookup,
      Except.map]
  | some old =>
    obtain ⟨before, after, hsplit, -⟩ := List.lookup_eq_some_iff.1 hlookup
    obtain ⟨changed, hchanged, hentries, -⟩ := h.replace hsplit value
    have hmap := map_replaced (hsplit ▸ h.ascending) value
    simp only [answer, LineTable.change, hchanged, LineChange.onList, hlookup]
    rw [hentries, hsplit, hmap]
    exact ⟨rfl, rfl⟩

/-- One change is answered as the list answers it, and leaves what it leaves of the list. -/
theorem Ordered.answer_eq (h : t.Ordered) (c : LineChange α) :
    t.answer c = (c.onList t.toList).1 ∧ (t.change c).toList = (c.onList t.toList).2 := by
  cases c with
  | add line value => exact h.answer_add line value
  | replace line value => exact h.answer_replace line value

theorem toList_ofChanges (changes : List (LineChange α)) :
    (ofChanges changes).toList = LineChange.listOf changes := by
  unfold ofChanges LineChange.listOf
  rw [← toList_empty (α := α)]
  generalize (empty : LineTable α) = t, ordered_empty (α := α) = h
  induction changes generalizing t with
  | nil => rfl
  | cons c changes ih => rw [List.foldl_cons, List.foldl_cons, ih _ (h.change c), (h.answer_eq c).2]

/-- After any changes a table shows the list that these make, it answers the next change as the
list does, and a change that it refuses makes no difference to any later state. Its pages are as
they are to be. -/
theorem ofChanges_shows_list (changes : List (LineChange α)) :
    (ofChanges changes).Shows (LineChange.listOf changes) ∧
      (∀ c, (ofChanges changes).answer c = (c.onList (LineChange.listOf changes)).1) ∧
      (∀ c fault, (ofChanges changes).answer c = .error fault →
        ∀ later, ofChanges (changes ++ c :: later) = ofChanges (changes ++ later)) ∧
      (ofChanges changes).Paged := by
  have hordered := ordered_ofChanges changes
  have hfilled := filled_ofChanges changes
  refine ⟨?_, fun c => ?_, fun c fault hrefused later => ?_, hordered.paged hfilled⟩
  · rw [← toList_ofChanges]
    exact hordered.shows hfilled
  · rw [← toList_ofChanges]
    exact (hordered.answer_eq c).1
  · have hsame := change_of_refused hrefused
    unfold ofChanges at hsame ⊢
    rw [List.foldl_append, List.foldl_cons, hsame, ← List.foldl_append]

end LineTable
end UnitLink
