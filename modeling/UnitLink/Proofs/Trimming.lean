import Mathlib.Data.List.DropRight
import Mathlib.Data.List.TakeWhile
import UnitLink.Text.Blank
/-! Trimming. A text is what is left of it by trimming, between blanks; and it is the same whether
the blanks at its start or those at its end are taken off first. -/
namespace UnitLink.Text

variable {cs before after : List Char}

theorem trimStart_eq_self_iff : trimStart cs = cs ↔ ∀ c ∈ cs.head?, isBlank c = false := by
  cases cs with
  | nil => simp [trimStart]
  | cons c cs =>
    cases hc : isBlank c with
    | false => simp [trimStart, hc]
    | true =>
      have hne : trimStart (c :: cs) ≠ c :: cs := by
        intro heq
        have hlength := congrArg List.length heq
        have hshort := (List.dropWhile_suffix isBlank (l := cs)).length_le
        rw [trimStart, List.dropWhile_cons_of_pos hc, List.length_cons] at hlength
        omega
      simp [hne, hc]

theorem not_blank_head_trimStart {c : Char} (hc : c ∈ (trimStart cs).head?) :
    isBlank c = false := by
  have hhead := List.head?_dropWhile_not isBlank cs
  rw [trimStart] at hc
  simpa [Option.mem_def.1 hc] using hhead

theorem trimEnd_subset (cs : List Char) : trimEnd cs ⊆ cs := fun _ h =>
  List.mem_reverse.1 ((List.dropWhile_suffix _).subset (List.mem_reverse.1 h))

theorem trim_subset (cs : List Char) : trim cs ⊆ cs := fun _ h =>
  (List.dropWhile_suffix _).subset (trimEnd_subset _ h)

theorem trimEnd_append_cons (before after : List Char) {c : Char} (hc : isBlank c = false) :
    trimEnd (before ++ c :: after) = before ++ c :: trimEnd after := by
  unfold trimEnd
  rw [List.reverse_append, List.reverse_cons, List.append_assoc, List.dropWhile_append]
  split
  · rename_i hempty
    rw [List.isEmpty_iff.1 hempty, List.singleton_append,
      List.dropWhile_cons_of_neg (by simp [hc])]
    simp
  · simp

theorem trimEnd_append_of_blank (hafter : ∀ c ∈ after, isBlank c) :
    trimEnd (cs ++ after) = trimEnd cs := by
  rw [trimEnd, List.reverse_append, List.dropWhile_append_of_pos (by simpa using hafter), trimEnd]

theorem trimEnd_eq_self (hlast : ∀ c ∈ cs.getLast?, isBlank c = false) : trimEnd cs = cs := by
  rcases List.eq_nil_or_concat cs with rfl | ⟨others, last, rfl⟩
  · rfl
  · rw [List.concat_eq_append, trimEnd_append_cons _ _ (hlast last (by simp))]
    rfl

theorem trim_append {core : List Char} (hbefore : ∀ c ∈ before, isBlank c)
    (hafter : ∀ c ∈ after, isBlank c) (hfirst : ∀ c ∈ core.head?, isBlank c = false)
    (hlast : ∀ c ∈ core.getLast?, isBlank c = false) : trim (before ++ core ++ after) = core := by
  rw [trim, trimStart, List.append_assoc, List.dropWhile_append_of_pos hbefore]
  cases core with
  | nil =>
    have hnone : after.dropWhile isBlank = [] := by simpa using hafter
    rw [List.nil_append, hnone]
    rfl
  | cons first others =>
    have hkept : isBlank first = false := hfirst first rfl
    rw [List.cons_append, List.dropWhile_cons_of_neg (by simp [hkept]), ← List.cons_append,
      trimEnd_append_of_blank hafter, trimEnd_eq_self hlast]

theorem exists_trim (cs : List Char) :
    ∃ before after, cs = before ++ trim cs ++ after ∧ (∀ c ∈ before, isBlank c) ∧
      (∀ c ∈ after, isBlank c) ∧ (∀ c ∈ (trim cs).head?, isBlank c = false) ∧
      ∀ c ∈ (trim cs).getLast?, isBlank c = false := by
  have hsplit : trimStart cs = trim cs ++ ((trimStart cs).reverse.takeWhile isBlank).reverse := by
    rw [trim, trimEnd, ← List.reverse_append, List.takeWhile_append_dropWhile, List.reverse_reverse]
  refine ⟨cs.takeWhile isBlank, ((trimStart cs).reverse.takeWhile isBlank).reverse,
    ?_, fun c hc => List.mem_takeWhile_imp hc, ?_, ?_, ?_⟩
  · rw [List.append_assoc, ← hsplit, trimStart, List.takeWhile_append_dropWhile]
  · intro c hc
    exact List.mem_takeWhile_imp (List.mem_reverse.1 hc)
  · intro c hc
    have hhead : (trimStart cs).head? = some c := by
      rw [hsplit, List.head?_append, Option.mem_def.1 hc, Option.some_or]
    exact not_blank_head_trimStart hhead
  · intro c hc
    rw [trim, trimEnd, List.getLast?_reverse] at hc
    exact not_blank_head_trimStart hc

/-- If the end is trimmed first, the same text is left behind the same blanks. -/
theorem trimEnd_parts (cs : List Char) :
    (trimEnd cs).dropWhile isBlank = trim cs ∧
      (trim cs ≠ [] → (trimEnd cs).takeWhile isBlank = cs.takeWhile isBlank) := by
  obtain ⟨before, after, hcs, hbefore, hafter, hfirst, hlast⟩ := exists_trim cs
  generalize trim cs = core at hcs hfirst hlast ⊢
  subst hcs
  rw [trimEnd_append_of_blank hafter]
  cases core with
  | nil =>
    have hnone : trimEnd (before ++ []) = [] := by
      rw [List.append_nil, ← List.nil_append before, trimEnd_append_of_blank hbefore]
      rfl
    exact ⟨by rw [hnone, List.dropWhile_nil], fun h => absurd rfl h⟩
  | cons first others =>
    have hstop : isBlank first = false := hfirst first rfl
    have hend : trimEnd (before ++ first :: others) = before ++ first :: others := by
      refine trimEnd_eq_self fun c hc => hlast c ?_
      rwa [List.getLast?_append_of_ne_nil _ (List.cons_ne_nil _ _)] at hc
    rw [hend, List.append_assoc, List.dropWhile_append_of_pos hbefore,
      List.takeWhile_append_of_pos hbefore, List.takeWhile_append_of_pos hbefore]
    simp [hstop]

theorem trim_trimEnd (cs : List Char) : trim (trimEnd cs) = trim cs := by
  rw [← (trimEnd_parts cs).1, ← (trimEnd_parts (trimEnd cs)).1]
  simp only [trimEnd, List.reverse_reverse, List.dropWhile_idempotent]

end UnitLink.Text
