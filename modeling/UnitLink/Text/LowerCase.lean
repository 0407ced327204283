import UnitLink.Text.CaseTable
/-! Full Unicode lowercase. Every character has one lowercase form, save the dotted
capital I, which has two characters, and the capital sigma, whose form at the end of a
word differs. -/
namespace UnitLink.Text

def inRanges (ranges : List (Nat × Nat)) (c : Char) : Bool :=
  ranges.any fun (first, last) => first ≤ c.toNat && c.toNat ≤ last

def isCased (c : Char) : Bool := inRanges casedRanges c

def isCaseIgnorable (c : Char) : Bool := inRanges caseIgnorableRanges c

def lowerSimple (c : Char) : Char :=
  let n := c.toNat
  match lowerRuns.find? fun (first, last, step, _) =>
      first ≤ n && n ≤ last && (n - first) % step == 0 with
  | some (first, _, _, target) => Char.ofNat (target + (n - first))
  | none => c

/-- Past the case-ignorable characters stands a cased one. -/
def casedAhead (cs : List Char) : Bool :=
  ((cs.dropWhile isCaseIgnorable).head?.map isCased).getD false

/-- A sigma is word-final when a cased character precedes it and none follows it,
case-ignorable characters left out of account. -/
def lowerFrom (before : List Char) : List Char → List Char
  | [] => []
  | c :: cs =>
    let lowered :=
      if c = 'Σ' then
        if casedAhead before && !casedAhead cs then ['ς'] else ['σ']
      else if c = 'İ' then ['i', '\u0307']
      else [lowerSimple c]
    lowered ++ lowerFrom (c :: before) cs

def lower (cs : List Char) : List Char := lowerFrom [] cs

end UnitLink.Text
