import Mathlib.Order.Nat
import UnitLink.LineTable
/-! Line tables as sorted lists. A table that grew by `add` holds its lines in ascending
order and has no empty page. On such a table the binary searches find what is there, a
replacement changes one entry in place, and a cursor that is asked for lines in ascending
order answers as a search of the whole table would. -/
namespace UnitLink
namespace LineTable

variable {α : Type}

/-- A test that holds up to some index holds up to the partition point and not after it. -/
theorem partitionPoint_spec {holds : Nat → Bool} {lo hi : Nat} (hle : lo ≤ hi)
    (hmono : ∀ i j, lo ≤ i → i ≤ j → j < hi → holds j = true → holds i = true) :
    lo ≤ partitionPoint holds lo hi ∧ partitionPoint holds lo hi ≤ hi ∧
      (∀ i, lo ≤ i → i < partitionPoint holds lo hi → holds i = true) ∧
      (∀ i, partitionPoint holds lo hi ≤ i → i < hi → holds i = false) := by
  fun_induction partitionPoint holds lo hi with
  | case1 lo hi hlt mid hmid ih =>
    obtain ⟨h₁, h₂, h₃, h₄⟩ := ih (by omega) fun i j hi hij hj => hmono i j (by omega) hij hj
    refine ⟨by omega, h₂, fun i hlo hi => ?_, h₄⟩
    rcases Nat.lt_or_ge mid i with h | h
    · exact h₃ i (by omega) hi
    · exact hmono i mid hlo h (by omega) hmid
  | case2 lo hi hlt mid hmid ih =>
    obtain ⟨h₁, h₂, h₃, h₄⟩ := ih (by omega) fun i j hi hij hj => hmono i j hi hij (by omega)
    refine ⟨h₁, by omega, h₃, fun i hlo hi => ?_⟩
    rcases Nat.lt_or_ge i mid with h | h
    · exact h₄ i hlo h
    · have hnot := mt (hmono mid i (by omega) h hi) hmid
      simpa using hnot
  | case3 lo hi hge =>
    exact ⟨Nat.le_refl _, hle, fun i _ _ => by omega, fun i _ _ => by omega⟩

theorem partitionPoint_eq {holds : Nat → Bool} {lo hi p : Nat} (hlo : lo ≤ p) (hhi : p ≤ hi)
    (hmono : ∀ i j, lo ≤ i → i ≤ j → j < hi → holds j = true → holds i = true)
    (hbelow : ∀ i, lo ≤ i → i < p → holds i = true) (habove : p < hi → holds p = false) :
    partitionPoint holds lo hi = p := by
  obtain ⟨h₁, h₂, h₃, h₄⟩ := partitionPoint_spec (hlo.trans hhi) hmono
  rcases Nat.lt_trichotomy (partitionPoint holds lo hi) p with h | h | h
  · have := h₄ _ (Nat.le_refl _) (by omega)
    simp [hbelow _ h₁ h] at this
  · exact h
  · have := h₃ p hlo h
    simp [habove (by omega)] at this

/-- What `add` keeps: lines ascend, and a page is there for its entries only. -/
structure Ordered (t : LineTable α) : Prop where
  nonempty : ∀ page ∈ t.pages.toList, 0 < page.size
  ascending : t.toList.Pairwise fun a b => a.1 < b.1

theorem ordered_empty : (empty : LineTable α).Ordered where
  nonempty := by simp [empty]
  ascending := by simp

namespace Ordered

variable {t : LineTable α}

theorem within_page (h : t.Ordered) {p : Nat} {page : LinePage α} (hp : t.pages[p]? = some page) :
    page.toList.Pairwise fun a b => a.1 < b.1 := by
  have hmem : page ∈ t.pages.toList := Array.mem_toList_iff.2 (Array.mem_of_getElem? hp)
  exact (List.pairwise_flatMap.1 h.ascending).1 page hmem

theorem across_pages (h : t.Ordered) {p q : Nat} {page later : LinePage α}
    (hp : t.pages[p]? = some page) (hq : t.pages[q]? = some later) (hpq : p < q)
    {a b : Nat × α} (ha : a ∈ page) (hb : b ∈ later) : a.1 < b.1 := by
  obtain ⟨hp', rfl⟩ := Array.getElem?_eq_some_iff.1 hp
  obtain ⟨hq', rfl⟩ := Array.getElem?_eq_some_iff.1 hq
  have hpairs := List.pairwise_iff_getElem.1 (List.pairwise_flatMap.1 h.ascending).2
  exact hpairs p q (by simpa using hp') (by simpa using hq') hpq a (by simpa using ha) b
    (by simpa using hb)

theorem entries_lt (h : t.Ordered) {p i j : Nat} {page : LinePage α} {a b : Nat × α}
    (hp : t.pages[p]? = some page) (hi : page[i]? = some a) (hj : page[j]? = some b)
    (hij : i < j) : a.1 < b.1 := by
  obtain ⟨hi', rfl⟩ := Array.getElem?_eq_some_iff.1 hi
  obtain ⟨hj', rfl⟩ := Array.getElem?_eq_some_iff.1 hj
  exact List.pairwise_iff_getElem.1 (h.within_page hp) i j (by simpa using hi')
    (by simpa using hj') hij

end Ordered

theorem mem_toList {t : LineTable α} {entry : Nat × α} :
    entry ∈ t.toList ↔
      ∃ (p i : Nat) (page : LinePage α), t.pages[p]? = some page ∧ page[i]? = some entry := by
  unfold toList
  rw [List.mem_flatMap]
  constructor
  · rintro ⟨page, hpage, hentry⟩
    obtain ⟨p, hp⟩ := List.mem_iff_getElem?.1 hpage
    obtain ⟨i, hi⟩ := List.mem_iff_getElem?.1 hentry
    exact ⟨p, i, page, by simpa using hp, by simpa using hi⟩
  · rintro ⟨p, i, page, hp, hi⟩
    exact ⟨page, Array.mem_toList_iff.2 (Array.mem_of_getElem? hp),
      Array.mem_toList_iff.2 (Array.mem_of_getElem? hi)⟩

/-! ### Searches -/

theorem getElem?_of_entryIndex? {page : LinePage α} {line i : Nat}
    (h : entryIndex? page line = some i) : ∃ value, page[i]? = some (line, value) := by
  unfold entryIndex? at h
  simp only at h
  split at h
  · rename_i found value hfound
    split at h
    · rename_i heq
      obtain rfl := Option.some.inj h
      exact ⟨value, by rw [hfound, heq]⟩
    · cases h
  · cases h

theorem Ordered.entryIndex? {t : LineTable α} (h : t.Ordered) {p i line : Nat}
    {page : LinePage α} {value : α} (hp : t.pages[p]? = some page)
    (hi : page[i]? = some (line, value)) : LineTable.entryIndex? page line = some i := by
  obtain ⟨hsize, hentry⟩ := Array.getElem?_eq_some_iff.1 hi
  -- the entries before the one at `i` are exactly those with smaller lines
  have hpoint : partitionPoint (fun i => page[i]?.any fun entry => entry.1 < line) 0 page.size
      = i := by
    apply partitionPoint_eq (Nat.zero_le i) hsize.le
    · intro a b _ hab hb
      rcases Nat.lt_or_eq_of_le hab with hlt | rfl
      · have ha : a < page.size := by omega
        have := h.entries_lt hp (Array.getElem?_eq_getElem ha) (Array.getElem?_eq_getElem hb) hlt
        simp only [Array.getElem?_eq_getElem ha, Array.getElem?_eq_getElem hb, Option.any_some,
          decide_eq_true_eq]
        omega
      · exact id
    · intro a _ hai
      have ha : a < page.size := by omega
      have := h.entries_lt hp (Array.getElem?_eq_getElem ha) hi hai
      simpa [Array.getElem?_eq_getElem ha] using this
    · intro _
      simp [hi]
  simp [LineTable.entryIndex?, hpoint, hi]

theorem getElem?_of_position? {t : LineTable α} {line p i : Nat}
    (h : t.position? line = some (p, i)) :
    ∃ page value, t.pages[p]? = some page ∧ page[i]? = some (line, value) := by
  unfold position? at h
  split at h
  · cases h
  · rename_i q _
    obtain ⟨page, hpage, h⟩ := Option.bind_eq_some_iff.1 h
    obtain ⟨entry, hentry, h⟩ := Option.bind_eq_some_iff.1 h
    obtain ⟨rfl, rfl⟩ := Prod.mk.inj (Option.some.inj h)
    obtain ⟨value, hvalue⟩ := getElem?_of_entryIndex? hentry
    exact ⟨page, value, hpage, hvalue⟩

theorem Ordered.position? {t : LineTable α} (h : t.Ordered) {p i line : Nat}
    {page : LinePage α} {value : α} (hp : t.pages[p]? = some page)
    (hi : page[i]? = some (line, value)) : t.position? line = some (p, i) := by
  obtain ⟨hsize, -⟩ := Array.getElem?_eq_some_iff.1 hp
  -- every page starts with an entry
  have hfirst : ∀ q (hq : q < t.pages.size), ∃ entry, t.pages[q][0]? = some entry := by
    intro q hq
    have := h.nonempty t.pages[q] (by simp)
    exact ⟨_, Array.getElem?_eq_getElem this⟩
  have hpoint : partitionPoint
      (fun i => t.pages[i]?.any fun page => page[0]?.any fun entry => entry.1 ≤ line)
      0 t.pages.size = p + 1 := by
    apply partitionPoint_eq (Nat.zero_le _) hsize
    · intro a b _ hab hb
      rcases Nat.lt_or_eq_of_le hab with hlt | rfl
      · have ha : a < t.pages.size := by omega
        obtain ⟨x, hx⟩ := hfirst a ha
        obtain ⟨y, hy⟩ := hfirst b hb
        have := h.across_pages (Array.getElem?_eq_getElem ha) (Array.getElem?_eq_getElem hb) hlt
          (Array.mem_of_getElem? hx) (Array.mem_of_getElem? hy)
        simp only [Array.getElem?_eq_getElem ha, Array.getElem?_eq_getElem hb, hx, hy,
          Option.any_some, decide_eq_true_eq]
        omega
      · exact id
    · intro a _ hap
      have ha : a < t.pages.size := by omega
      obtain ⟨x, hx⟩ := hfirst a ha
      simp only [Array.getElem?_eq_getElem ha, hx, Option.any_some, decide_eq_true_eq]
      rcases Nat.lt_or_eq_of_le (Nat.le_of_lt_succ hap) with hlt | rfl
      · exact (h.across_pages (Array.getElem?_eq_getElem ha) hp hlt
          (Array.mem_of_getElem? hx) (Array.mem_of_getElem? hi)).le
      · obtain rfl : t.pages[a] = page :=
          Option.some.inj ((Array.getElem?_eq_getElem ha).symm.trans hp)
        rcases Nat.eq_zero_or_pos i with rfl | hpos
        · rw [hi] at hx
          exact (congrArg Prod.fst (Option.some.inj hx)).ge
        · exact (h.entries_lt hp hx hi hpos).le
    · intro hnext
      obtain ⟨x, hx⟩ := hfirst (p + 1) hnext
      have := h.across_pages hp (Array.getElem?_eq_getElem hnext) (Nat.lt_succ_self p)
        (Array.mem_of_getElem? hi) (Array.mem_of_getElem? hx)
      simp only [Array.getElem?_eq_getElem hnext, hx, Option.any_some, decide_eq_false_iff_not]
      omega
  simp [LineTable.position?, hpoint, hp, h.entryIndex? hp hi]

theorem value?_eq {t : LineTable α} {p i : Nat} {page : LinePage α} {entry : Nat × α}
    (hp : t.pages[p]? = some page) (hi : page[i]? = some entry) :
    t.value? p i = some entry.2 := by
  simp [value?, hp, hi]

theorem Ordered.get?_eq_some_iff {t : LineTable α} (h : t.Ordered) {line : Nat} {value : α} :
    t.get? line = some value ↔ (line, value) ∈ t.toList := by
  rw [mem_toList]
  constructor
  · intro hget
    obtain ⟨⟨p, i⟩, hpos, hvalue⟩ := Option.bind_eq_some_iff.1 hget
    obtain ⟨page, found, hp, hi⟩ := getElem?_of_position? hpos
    obtain rfl : found = value := by simpa [value?_eq hp hi] using hvalue
    exact ⟨p, i, page, hp, hi⟩
  · rintro ⟨p, i, page, hp, hi⟩
    simp [get?, h.position? hp hi, value?_eq hp hi]

theorem Ordered.get?_eq_none_iff {t : LineTable α} (h : t.Ordered) {line : Nat} :
    t.get? line = none ↔ ∀ entry ∈ t.toList, entry.1 ≠ line := by
  constructor
  · rintro hnone ⟨found, value⟩ hmem rfl
    have := h.get?_eq_some_iff.2 hmem
    simp [hnone] at this
  · intro habsent
    cases hget : t.get? line with
    | none => rfl
    | some value => exact absurd rfl (habsent _ (h.get?_eq_some_iff.1 hget))

/-- Where the entries of smaller lines end is where a line is, or would be. -/
theorem Ordered.get?_of_split {t : LineTable α} (h : t.Ordered) {line : Nat}
    {before after : List (Nat × α)} (ht : t.toList = before ++ after)
    (hbefore : ∀ e ∈ before, e.1 < line) (hafter : ∀ e ∈ after.head?, line ≤ e.1) :
    t.get? line = after.head?.bind fun e => if e.1 = line then some e.2 else none := by
  have hascending := h.ascending
  rw [ht, List.pairwise_append] at hascending
  cases after with
  | nil =>
    rw [List.head?_nil, Option.bind_none, h.get?_eq_none_iff, ht, List.append_nil]
    intro e he
    exact (hbefore e he).ne
  | cons first later =>
    rw [List.head?_cons, Option.bind_some]
    split
    · rename_i heq
      rw [h.get?_eq_some_iff, ht, ← heq]
      exact List.mem_append_right _ List.mem_cons_self
    · rename_i hne
      rw [h.get?_eq_none_iff, ht]
      intro e he
      have hfirst : line ≤ first.1 := hafter first rfl
      rcases List.mem_append.1 he with he | he
      · exact (hbefore e he).ne
      · rcases List.mem_cons.1 he with rfl | he
        · exact hne
        · have := (List.pairwise_cons.1 hascending.2.1).1 e he
          omega

/-! ### Changes -/

theorem Ordered.lastLine? {t : LineTable α} (h : t.Ordered) :
    t.lastLine? = t.toList.getLast?.map Prod.fst := by
  unfold LineTable.lastLine?
  cases hback : t.pages.back? with
  | none =>
    have : t.pages = #[] := by simpa using hback
    simp [toList, this]
  | some page =>
    obtain ⟨full, hpages⟩ := List.getLast?_eq_some_iff.1 (t.pages.getLast?_toList.trans hback)
    have hne : page.toList ≠ [] := by
      have := h.nonempty page (by simp [hpages])
      exact List.ne_nil_of_length_pos this
    have htoList : t.toList = full.flatMap Array.toList ++ page.toList := by
      simp [toList, hpages]
    rw [htoList, List.getLast?_append, Option.bind_some, ← Array.getLast?_toList]
    cases hlast : page.toList.getLast? with
    | none => exact absurd (List.getLast?_eq_none_iff.1 hlast) hne
    | some entry => rfl

theorem push_cases (t : LineTable α) (entry : Nat × α) :
    (∃ before last, t.pages.toList = before ++ [last] ∧ last.size < pageSize ∧
        (t.push entry).pages.toList = before ++ [last.push entry]) ∨
      (∀ last ∈ t.pages.toList.getLast?, pageSize ≤ last.size) ∧
        (t.push entry).pages.toList = t.pages.toList ++ [#[entry]] := by
  unfold LineTable.push
  rw [Array.getLast?_toList]
  split
  · rename_i last hlast
    obtain ⟨before, hpages⟩ := List.getLast?_eq_some_iff.1 (t.pages.getLast?_toList.trans hlast)
    split
    · rename_i hroom
      exact .inl ⟨before, last, hpages, hroom, by simp [hpages]⟩
    · rename_i hfull
      refine .inr ⟨fun page hpage => ?_, Array.toList_push⟩
      obtain rfl : last = page := Option.some.inj (hlast.symm.trans hpage)
      exact Nat.le_of_not_lt hfull
  · rename_i hnone
    exact .inr ⟨by simp [hnone], Array.toList_push⟩

theorem Ordered.push {t : LineTable α} (h : t.Ordered) {line : Nat} {value : α}
    (hline : ∀ entry ∈ t.toList, entry.1 < line) : (t.push (line, value)).Ordered where
  nonempty := by
    rcases t.push_cases (line, value) with ⟨before, last, hpages, -, hpush⟩ | ⟨-, hpush⟩
    · have hnonempty := h.nonempty
      simp only [hpages, List.forall_mem_append, List.forall_mem_singleton] at hnonempty
      simp only [hpush, List.forall_mem_append, List.forall_mem_singleton, Array.size_push]
      exact ⟨hnonempty.1, Nat.succ_pos _⟩
    · simp only [hpush, List.forall_mem_append, List.forall_mem_singleton]
      exact ⟨h.nonempty, Nat.one_pos⟩
  ascending := by
    rw [toList_push, List.pairwise_append]
    exact ⟨h.ascending, List.pairwise_singleton _ _, by simpa using hline⟩

theorem Ordered.add {t : LineTable α} (h : t.Ordered) {line : Nat} (value : α)
    (hline : ∀ entry ∈ t.toList, entry.1 < line) :
    ∃ after, t.add line value = .ok after ∧ after.toList = t.toList ++ [(line, value)] ∧
      after.Ordered := by
  refine ⟨t.push (line, value), ?_, toList_push t _, h.push hline⟩
  have hfree : t.refusal? line = none := by
    unfold refusal?
    split
    · rename_i last hlast
      rw [h.lastLine?, Option.map_eq_some_iff] at hlast
      obtain ⟨entry, hentry, rfl⟩ := hlast
      have := hline entry (List.mem_of_getLast? hentry)
      rw [if_neg (by omega)]
    · rfl
  rw [LineTable.add, hfree]

theorem eq_takeWhile_of_ascending {before after : List (Nat × α)} {line : Nat} {value : α}
    (h : (before ++ (line, value) :: after).Pairwise fun a b => a.1 < b.1) :
    (before ++ (line, value) :: after).takeWhile (fun entry => entry.1 < line) = before := by
  rw [List.takeWhile_append_of_pos]
  · simp
  · intro entry hentry
    simpa using (List.pairwise_append.1 h).2.2 entry hentry (line, value) (by simp)

theorem exists_split {β : Type} {l : List β} {i : Nat} {a : β} (h : l[i]? = some a) :
    ∃ before after, l = before ++ a :: after ∧ ∀ f, l.modify i f = before ++ f a :: after := by
  obtain ⟨hi, rfl⟩ := List.getElem?_eq_some_iff.1 h
  refine ⟨l.take i, l.drop (i + 1), ?_, fun f => List.modify_eq_take_cons_drop hi⟩
  rw [← List.drop_eq_getElem_cons hi, List.take_append_drop]

theorem toList_modify {t : LineTable α} {p i : Nat} {page : LinePage α} {old : Nat × α}
    (hp : t.pages[p]? = some page) (hi : page[i]? = some old) (new : Nat × α) :
    ∃ before after, t.toList = before ++ old :: after ∧
      { t with pages := t.pages.modify p fun entries => entries.modify i fun _ => new }.toList =
        before ++ new :: after := by
  obtain ⟨pages, later, hpages, hmodify⟩ := exists_split (l := t.pages.toList) (by simpa using hp)
  obtain ⟨before, after, hpage, hmodify'⟩ := exists_split (l := page.toList) (by simpa using hi)
  refine ⟨pages.flatMap Array.toList ++ before, after ++ later.flatMap Array.toList, ?_, ?_⟩
  · simp [toList, hpages, hpage]
  · simp [toList, hmodify, hmodify']

theorem Ordered.replace {t : LineTable α} (h : t.Ordered) {before after : List (Nat × α)}
    {line : Nat} {old : α} (ht : t.toList = before ++ (line, old) :: after) (value : α) :
    ∃ changed, t.replace line value = .ok (old, changed) ∧
      changed.toList = before ++ (line, value) :: after ∧ changed.Ordered := by
  have hmem : (line, old) ∈ t.toList := by simp [ht]
  obtain ⟨p, i, page, hp, hi⟩ := mem_toList.1 hmem
  obtain ⟨before', after', hold, hnew⟩ := toList_modify hp hi (line, value)
  have hascending := h.ascending
  -- a line stands in an ascending list once, so both ways to split it there are one
  have hbefore : before' = before := by
    have h₁ := eq_takeWhile_of_ascending (hold ▸ hascending)
    have h₂ := eq_takeWhile_of_ascending (ht ▸ hascending)
    rw [← h₁, ← hold, ht, h₂]
  subst hbefore
  obtain rfl : after' = after := by simpa using hold.symm.trans ht
  refine ⟨_, ?_, hnew, ?_, ?_⟩
  · simp [LineTable.replace, h.position? hp hi, value?_eq hp hi]
  · intro changed hchanged
    obtain ⟨q, hq⟩ := List.mem_iff_getElem?.1 hchanged
    rw [Array.toList_modify, List.getElem?_modify] at hq
    obtain ⟨original, horiginal, rfl⟩ := Option.map_eq_some_iff.1 hq
    have := h.nonempty original (List.mem_of_getElem? horiginal)
    split <;> simpa using this
  · rw [hnew]
    rw [ht] at hascending
    simpa [List.pairwise_append, List.pairwise_cons] using hascending

/-! ### Cursors -/

/-- The entries from a place of a page on. -/
def rest (t : LineTable α) (page entry : Nat) : List (Nat × α) :=
  ((t.pages[page]?.map Array.toList).getD []).drop entry ++
    (t.pages.toList.drop (page + 1)).flatMap Array.toList

theorem rest_start (t : LineTable α) : t.rest 0 0 = t.toList := by
  obtain ⟨⟨pages⟩⟩ := t
  cases pages <;> simp [rest, toList]

theorem rest_of_size_le {t : LineTable α} {page : Nat} (h : t.pages.size ≤ page) (entry : Nat) :
    t.rest page entry = [] := by
  have hdrop : t.pages.toList.drop (page + 1) = [] :=
    List.drop_eq_nil_of_le (by simpa using Nat.le_succ_of_le h)
  simp [rest, Array.getElem?_eq_none h, hdrop]

theorem rest_next_page {t : LineTable α} {page entry : Nat} (h : page < t.pages.size)
    (hentry : t.pages[page].size ≤ entry) : t.rest page entry = t.rest (page + 1) 0 := by
  have hdrop : t.pages[page].toList.drop entry = [] :=
    List.drop_eq_nil_of_le (by simpa using hentry)
  rcases Nat.lt_or_ge (page + 1) t.pages.size with hnext | hnext
  · have hpages := List.drop_eq_getElem_cons (l := t.pages.toList) (i := page + 1)
      (by simpa using hnext)
    simp only [rest, Array.getElem?_eq_getElem h, Array.getElem?_eq_getElem hnext,
      Option.map_some, Option.getD_some, hdrop, hpages, List.drop_zero, List.nil_append,
      List.flatMap_cons, Array.getElem_toList]
  · have hpages : t.pages.toList.drop (page + 1) = [] :=
      List.drop_eq_nil_of_le (by simpa using hnext)
    rw [rest_of_size_le hnext]
    simp [rest, Array.getElem?_eq_getElem h, hdrop, hpages]

theorem rest_eq_cons {t : LineTable α} {page entry : Nat} (h : page < t.pages.size)
    (hentry : entry < t.pages[page].size) :
    t.rest page entry = t.pages[page][entry] :: t.rest page (entry + 1) := by
  have hdrop := List.drop_eq_getElem_cons (l := t.pages[page].toList) (i := entry)
    (by simpa using hentry)
  simp [rest, Array.getElem?_eq_getElem h, hdrop]

end LineTable

namespace LineCursor

variable {α : Type}

/-- A scan passes over the entries of smaller lines and answers with the next one's value
if that is the line's. -/
theorem scan_spec (t : LineTable α) (line page entry : Nat) :
    t.rest (scan t line page entry).2.1 (scan t line page entry).2.2 =
        (t.rest page entry).dropWhile (fun e => e.1 < line) ∧
      (scan t line page entry).1 =
        ((t.rest page entry).dropWhile (fun e => e.1 < line)).head?.bind
          fun e => if e.1 = line then some e.2 else none := by
  fun_induction scan t line page entry with
  | case1 page entry h hentry value hcurrent =>
    rw [LineTable.rest_eq_cons h hentry, hcurrent]
    simp
  | case2 page entry h hentry current value hcurrent hne hlt =>
    rw [LineTable.rest_eq_cons h hentry, hcurrent]
    have : ¬current < line := by omega
    simp [this, hne]
  | case3 page entry h hentry current value hcurrent hne hge ih =>
    have hlt : current < line := by omega
    rw [LineTable.rest_eq_cons h hentry, hcurrent, List.dropWhile_cons_of_pos (by simpa using hlt)]
    exact ih
  | case4 page entry h hentry ih =>
    rw [LineTable.rest_next_page h (by omega)]
    exact ih
  | case5 page entry h =>
    rw [LineTable.rest_of_size_le (Nat.le_of_not_lt h)]
    simp

theorem exists_scanned {t : LineTable α} {passed : List (Nat × α)} {page entry : Nat}
    (h : t.toList = passed ++ t.rest page entry) (line : Nat) :
    ∃ scanned,
      t.toList = (passed ++ scanned) ++
        t.rest (scan t line page entry).2.1 (scan t line page entry).2.2 ∧
      (∀ e ∈ scanned, e.1 < line) ∧
      (∀ e ∈ (t.rest (scan t line page entry).2.1 (scan t line page entry).2.2).head?,
        line ≤ e.1) ∧
      (scan t line page entry).1 =
        (t.rest (scan t line page entry).2.1 (scan t line page entry).2.2).head?.bind
          fun e => if e.1 = line then some e.2 else none := by
  obtain ⟨hrest, hvalue⟩ := scan_spec t line page entry
  refine ⟨(t.rest page entry).takeWhile (fun e => e.1 < line), ?_, ?_, ?_, ?_⟩
  · rw [hrest, List.append_assoc, List.takeWhile_append_dropWhile, h]
  · intro e he
    simpa using List.all_eq_true.1 List.all_takeWhile e he
  · intro e he
    have := List.head?_dropWhile_not (fun e : Nat × α => decide (e.1 < line)) (t.rest page entry)
    rw [← hrest, Option.mem_def.1 he] at this
    simpa using this
  · rw [hrest, hvalue]

/-- A cursor that has passed over lines before `line` only, and was asked for none after
it. -/
structure Behind (t : LineTable α) (cursor : LineCursor) (line : Nat) : Prop where
  passed : ∃ earlier, t.toList = earlier ++ t.rest cursor.page cursor.entry ∧
    ∀ e ∈ earlier, e.1 < line
  requested : ∀ last, cursor.lastRequested = some last → last ≤ line

theorem behind_start (t : LineTable α) (line : Nat) : start.Behind t line where
  passed := ⟨[], by simp [start, LineTable.rest_start], by simp⟩
  requested := by simp [start]

theorem Behind.mono {t : LineTable α} {cursor : LineCursor} {line later : Nat}
    (h : cursor.Behind t line) (hle : line ≤ later) : cursor.Behind t later where
  passed := by
    obtain ⟨earlier, ht, hearlier⟩ := h.passed
    exact ⟨earlier, ht, fun e he => (hearlier e he).trans_le hle⟩
  requested last hlast := (h.requested last hlast).trans hle

/-- A cursor behind a line answers for it as the table does, and stays behind it. -/
theorem Behind.get? {t : LineTable α} (ht : t.Ordered) {cursor : LineCursor} {line : Nat}
    (h : cursor.Behind t line) :
    (cursor.get? t line).1 = t.get? line ∧ (cursor.get? t line).2.Behind t line := by
  obtain ⟨earlier, hsplit, hearlier⟩ := h.passed
  obtain ⟨scanned, hwhole, hscanned, hfirst, hvalue⟩ := exists_scanned hsplit line
  have hforward : ¬cursor.lastRequested.any fun last => line < last := by
    intro hany
    obtain ⟨last, hlast, hlt⟩ := (Option.any_eq_true _ _).1 hany
    have := h.requested last hlast
    simp only [decide_eq_true_eq] at hlt
    omega
  have hget : cursor.get? t line =
      ((scan t line cursor.page cursor.entry).1,
        ⟨(scan t line cursor.page cursor.entry).2.1, (scan t line cursor.page cursor.entry).2.2,
          some line⟩) := by
    simp [LineCursor.get?, hforward]
  rw [hget]
  have hpassed : ∀ e ∈ earlier ++ scanned, e.1 < line := by
    intro e he
    rcases List.mem_append.1 he with he | he
    · exact hearlier e he
    · exact hscanned e he
  constructor
  · rw [hvalue, ht.get?_of_split hwhole hpassed hfirst]
  · exact ⟨⟨_, hwhole, hpassed⟩, fun last hlast => (Option.some.inj hlast).ge⟩

end LineCursor
end UnitLink
