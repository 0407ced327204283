/-! White space of assembly text: the characters with the Unicode property
White_Space, trimming, and the split into words. -/
namespace UnitLink.Text

/-- The characters with the Unicode property White_Space. -/
def isBlank (c : Char) : Bool :=
  let n := c.toNat
  (0x09 ≤ n && n ≤ 0x0D) || n == 0x20 || n == 0x85 || n == 0xA0 || n == 0x1680 ||
    (0x2000 ≤ n && n ≤ 0x200A) || n == 0x2028 || n == 0x2029 || n == 0x202F ||
    n == 0x205F || n == 0x3000

def trimStart (cs : List Char) : List Char := cs.dropWhile isBlank

def trimEnd (cs : List Char) : List Char := (cs.reverse.dropWhile isBlank).reverse

def trim (cs : List Char) : List Char := trimEnd (trimStart cs)

/-- Cuts at every item in the class; `n` cuts give `n + 1` pieces. -/
def pieces {α : Type} (cut : α → Bool) : List α → List (List α)
  | [] => [[]]
  | c :: cs =>
    if cut c then [] :: pieces cut cs
    else match pieces cut cs with
      | [] => [[c]]
      | piece :: rest => (c :: piece) :: rest

/-- The non-empty runs between white space. -/
def words (cs : List Char) : List (List Char) :=
  (pieces isBlank cs).filter fun word => !word.isEmpty

/-- The text before the first character of the class and the text after it. -/
def cutFirst (cut : Char → Bool) (cs : List Char) : Option (List Char × List Char) :=
  match cs.dropWhile fun c => !cut c with
  | [] => none
  | _ :: after => some (cs.takeWhile (fun c => !cut c), after)

/-- The text before the last character of the class and the text after it. -/
def cutLast (cut : Char → Bool) (cs : List Char) : Option (List Char × List Char) :=
  (cutFirst cut cs.reverse).map fun (after, before) => (before.reverse, after.reverse)

/-- What follows a given beginning, if the text has it. -/
def dropBeginning? (beginning cs : List Char) : Option (List Char) :=
  if beginning.isPrefixOf cs then some (cs.drop beginning.length) else none

@[simp] theorem pieces_ne_nil {α : Type} (cut : α → Bool) (cs : List α) : pieces cut cs ≠ [] := by
  fun_induction pieces cut cs <;> simp

@[simp] theorem cutFirst_nil (cut : Char → Bool) : cutFirst cut [] = none := rfl

theorem cutFirst_cons (cut : Char → Bool) (c : Char) (cs : List Char) :
    cutFirst cut (c :: cs) =
      if cut c then some ([], cs)
      else (cutFirst cut cs).map fun (before, after) => (c :: before, after) := by
  by_cases h : cut c
  · simp [cutFirst, h]
  · simp only [cutFirst, List.dropWhile_cons, List.takeWhile_cons, h]
    cases List.dropWhile (fun c => !cut c) cs <;> simp

/-- The cut is at the first character of the class. -/
theorem cutFirst_eq_some_iff {cut : Char → Bool} {cs before after : List Char} :
    cutFirst cut cs = some (before, after) ↔
      (∀ c ∈ before, cut c = false) ∧ ∃ c, cut c = true ∧ cs = before ++ c :: after := by
  induction cs generalizing before with
  | nil => simp
  | cons c cs ih =>
    rw [cutFirst_cons]
    by_cases h : cut c
    · cases before with
      | nil => exact ⟨by simp_all, by simp_all⟩
      | cons d before => grind
    · cases before with
      | nil =>
        refine ⟨fun hmap => ?_, fun ⟨_, d, hd, heq⟩ => by grind⟩
        cases hc : cutFirst cut cs <;> simp [h, hc] at hmap
      | cons d before =>
        have hmap : (cutFirst cut cs).map (fun (before, after) => (c :: before, after)) =
            some (d :: before, after) ↔ c = d ∧ cutFirst cut cs = some (before, after) := by
          cases cutFirst cut cs <;> simp [Prod.ext_iff, and_assoc]
        simp only [h, Bool.false_eq_true, if_false, hmap, ih]
        grind

theorem cutFirst_eq_none_iff {cut : Char → Bool} {cs : List Char} :
    cutFirst cut cs = none ↔ ∀ c ∈ cs, cut c = false := by
  induction cs with
  | nil => simp
  | cons c cs ih => by_cases h : cut c <;> simp [cutFirst_cons, h, ih]

end UnitLink.Text
