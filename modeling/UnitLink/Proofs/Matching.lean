import UnitLink.Proofs.Nesting
/-! Which begin goes with which end. The two ends of an invocation enclose a balanced sequence,
and in a nested sequence this settles for every begin which end is its own: a sequence that is
balanced ends as many invocations as it begins and on the way never more, so it does not go on
after an end that closes nothing. The lines of the two ends, and no others, stand for what the
end says. -/
namespace UnitLink

/-- The invocation that begins at one line ends at the other: what stands between them is
balanced. -/
def Matched (bs : List (Nat × Binding)) (opening closing : Nat) (reference : Reference .method) :
    Prop :=
  ∃ before inner after, Balanced inner ∧
    bs = before ++ (opening, .opening) :: (inner ++ (closing, .closing reference) :: after)

theorem Matched.mem {bs : List (Nat × Binding)} {opening closing : Nat}
    {reference : Reference .method} (h : Matched bs opening closing reference) :
    (opening, .opening) ∈ bs ∧ (closing, .closing reference) ∈ bs := by
  obtain ⟨before, inner, after, -, rfl⟩ := h
  simp

theorem Matched.append_left {bs : List (Nat × Binding)} {opening closing : Nat}
    {reference : Reference .method} (h : Matched bs opening closing reference)
    (cs : List (Nat × Binding)) : Matched (cs ++ bs) opening closing reference := by
  obtain ⟨before, inner, after, hinner, rfl⟩ := h
  exact ⟨cs ++ before, inner, after, hinner, (List.append_assoc ..).symm⟩

theorem Matched.append_right {bs : List (Nat × Binding)} {opening closing : Nat}
    {reference : Reference .method} (h : Matched bs opening closing reference)
    (cs : List (Nat × Binding)) : Matched (bs ++ cs) opening closing reference := by
  obtain ⟨before, inner, after, hinner, rfl⟩ := h
  exact ⟨before, inner, after ++ cs, hinner, by simp⟩

/-- A line at one end of an invocation has a line at the other. -/
def HasPartner (bs : List (Nat × Binding)) (line : Nat) : Binding → Prop
  | .opening => ∃ closing reference, Matched bs line closing reference
  | .closing reference => ∃ opening, Matched bs opening line reference
  | .fieldRead _ | .classOf _ => True

theorem HasPartner.imp {bs cs : List (Nat × Binding)} {line : Nat} {binding : Binding}
    (h : HasPartner bs line binding)
    (himp : ∀ {opening closing reference}, Matched bs opening closing reference →
      Matched cs opening closing reference) : HasPartner cs line binding := by
  cases binding with
  | opening =>
    obtain ⟨closing, reference, hmatched⟩ := h
    exact ⟨closing, reference, himp hmatched⟩
  | closing reference =>
    obtain ⟨opening, hmatched⟩ := h
    exact ⟨opening, himp hmatched⟩
  | fieldRead | classOf => trivial

theorem Nested.hasPartner {bs : List (Nat × Binding)} {table : List (Nat × Resolved)}
    (h : Nested bs table) {line : Nat} {binding : Binding} (hmem : (line, binding) ∈ bs) :
    HasPartner bs line binding := by
  induction h with
  | nil => cases hmem
  | fieldRead _ ih | classOf _ ih =>
    rcases List.mem_cons.1 hmem with heq | hmem
    · obtain ⟨rfl, rfl⟩ := Prod.mk.inj heq
      trivial
    · exact (ih hmem).imp fun h => h.append_left [_]
  | @invocation opening closing reference inner bs innerTable table hinner _ ihInner ih =>
    have hpair : Matched ((opening, .opening) :: (inner ++ (closing, .closing reference) :: bs))
        opening closing reference := ⟨[], inner, bs, ⟨_, hinner⟩, rfl⟩
    simp only [List.mem_cons, List.mem_append] at hmem
    rcases hmem with heq | hmem | heq | hmem
    · obtain ⟨rfl, rfl⟩ := Prod.mk.inj heq
      exact ⟨closing, reference, hpair⟩
    · exact (ihInner hmem).imp fun h => (h.append_right _).append_left [_]
    · obtain ⟨rfl, rfl⟩ := Prod.mk.inj heq
      exact ⟨opening, hpair⟩
    · rw [List.append_cons]
      exact (ih hmem).imp fun h => h.append_left (_ :: (inner ++ [_]))

/-- How many more invocations some bindings begin than they end. -/
def height : List (Nat × Binding) → Int
  | [] => 0
  | (_, .opening) :: bs => height bs + 1
  | (_, .closing _) :: bs => height bs - 1
  | _ :: bs => height bs

theorem height_append (bs cs : List (Nat × Binding)) :
    height (bs ++ cs) = height bs + height cs := by
  induction bs with
  | nil => simp [height]
  | cons first bs ih =>
    obtain ⟨line, binding⟩ := first
    cases binding <;> simp only [List.cons_append, height, ih] <;> omega

/-- A nested sequence ends as many invocations as it begins, and on the way never more. -/
theorem Nested.height {bs : List (Nat × Binding)} {table : List (Nat × Resolved)}
    (h : Nested bs table) :
    UnitLink.height bs = 0 ∧ ∀ n, 0 ≤ UnitLink.height (bs.take n) := by
  induction h with
  | nil => simp [UnitLink.height]
  | fieldRead _ ih | classOf _ ih =>
    refine ⟨ih.1, fun n => ?_⟩
    cases n with
    | zero => exact Int.le_refl 0
    | succ n => exact ih.2 n
  | @invocation opening closing reference inner bs innerTable table _ _ ihInner ih =>
    obtain ⟨hinner, hinnerTake⟩ := ihInner
    obtain ⟨hrest, hrestTake⟩ := ih
    constructor
    · simp only [UnitLink.height, height_append, hinner, hrest]
      omega
    · intro n
      cases n with
      | zero => exact Int.le_refl 0
      | succ n =>
        rw [List.take_succ_cons, List.take_append]
        by_cases hn : n ≤ inner.length
        · have := hinnerTake n
          rw [Nat.sub_eq_zero_of_le hn, List.take_zero, List.append_nil]
          simp only [UnitLink.height]
          omega
        · obtain ⟨m, hm⟩ : ∃ m, n - inner.length = m + 1 := ⟨n - inner.length - 1, by omega⟩
          have := hrestTake m
          rw [List.take_of_length_le (by omega), hm, List.take_succ_cons]
          simp only [UnitLink.height, height_append, hinner]
          omega

theorem Balanced.height_eq_zero {bs : List (Nat × Binding)} (h : Balanced bs) : height bs = 0 := by
  obtain ⟨table, hnested⟩ := h
  exact hnested.height.1

theorem Balanced.height_nonneg {before after : List (Nat × Binding)}
    (h : Balanced (before ++ after)) : 0 ≤ height before := by
  obtain ⟨table, hnested⟩ := h
  have := hnested.height.2 before.length
  rwa [List.take_left] at this

theorem Balanced.not_past_end {inner rest : List (Nat × Binding)} {closing : Nat}
    {reference : Reference .method} (h : Balanced inner) :
    ¬Balanced (inner ++ (closing, .closing reference) :: rest) := by
  intro hlonger
  rw [List.append_cons] at hlonger
  have := hlonger.height_nonneg
  rw [height_append, h.height_eq_zero] at this
  simp [height] at this

/-- Two balanced sequences that an end follows are the same if what follows makes the same. -/
theorem eq_of_balanced {inner inner' after after' : List (Nat × Binding)} {closing closing' : Nat}
    {reference reference' : Reference .method} (h : Balanced inner) (h' : Balanced inner')
    (heq : inner ++ (closing, .closing reference) :: after =
      inner' ++ (closing', .closing reference') :: after') :
    inner = inner' ∧ (closing, .closing reference) :: after =
      (closing', Binding.closing reference') :: after' := by
  rcases List.append_eq_append_iff.1 heq with ⟨rest, rfl, htail⟩ | ⟨rest, rfl, htail⟩
  · cases rest with
    | nil => exact ⟨(List.append_nil _).symm, htail⟩
    | cons first rest =>
      obtain ⟨rfl, -⟩ := List.cons.inj htail
      exact absurd h' h.not_past_end
  · cases rest with
    | nil => exact ⟨List.append_nil _, htail.symm⟩
    | cons first rest =>
      obtain ⟨rfl, -⟩ := List.cons.inj htail
      exact absurd h h'.not_past_end

theorem Balanced.ends_within {before rest inner after others : List (Nat × Binding)}
    {opening closing closing' : Nat} {reference reference' : Reference .method}
    (h : Balanced (before ++ (opening, .opening) :: rest)) (hinner : Balanced inner)
    (heq : inner ++ (closing, .closing reference) :: after =
      rest ++ (closing', .closing reference') :: others) :
    ∃ after', rest = inner ++ (closing, .closing reference) :: after' := by
  have hbefore := h.height_nonneg
  have hwhole := h.height_eq_zero
  rw [height_append] at hwhole
  rcases List.append_eq_append_iff.1 heq with ⟨more, rfl, htail⟩ | ⟨more, rfl, htail⟩
  · cases more with
    | nil =>
      rw [List.append_nil] at hwhole
      simp only [height, hinner.height_eq_zero] at hwhole
      omega
    | cons last more =>
      obtain ⟨rfl, -⟩ := List.cons.inj htail
      exact ⟨more, rfl⟩
  · cases more with
    | nil =>
      rw [List.append_nil] at hinner
      simp only [height, hinner.height_eq_zero] at hwhole
      omega
    | cons last more =>
      -- the later end would close the invocation before the earlier one does
      obtain ⟨rfl, -⟩ := List.cons.inj htail
      rw [List.append_cons] at hinner
      have hrest := hinner.height_nonneg
      rw [height_append] at hrest
      simp only [height] at hrest hwhole
      omega

theorem Nested.of_matched {bs : List (Nat × Binding)} {table : List (Nat × Resolved)}
    (h : Nested bs table) {opening closing : Nat} {reference : Reference .method}
    (hmatched : Matched bs opening closing reference) :
    (opening, .invocation reference) ∈ table ∧ (closing, .invocation reference) ∈ table := by
  obtain ⟨before, inner, after, hinner, heq⟩ := hmatched
  induction h generalizing before after with
  | nil => simp at heq
  | fieldRead _ ih | classOf _ ih =>
    cases before with
    | nil => cases heq
    | cons first before =>
      obtain ⟨hopening, hclosing⟩ := ih before after (List.cons.inj heq).2
      exact ⟨List.mem_cons_of_mem _ hopening, List.mem_cons_of_mem _ hclosing⟩
  | @invocation opening' closing' reference' inner' bs innerTable table hinner' _ ihInner ih =>
    have hbalanced : Balanced inner' := ⟨_, hinner'⟩
    cases before with
    | nil =>
      obtain ⟨hfirst, heq⟩ := List.cons.inj heq
      obtain ⟨-, heq⟩ := eq_of_balanced hbalanced hinner heq
      obtain ⟨hlast, -⟩ := List.cons.inj heq
      cases hfirst
      cases hlast
      simp
    | cons first before =>
      obtain ⟨-, heq⟩ := List.cons.inj heq
      rcases List.append_eq_append_iff.1 heq with ⟨rest, rfl, htail⟩ | ⟨rest, hrest, htail⟩
      · -- the invocation stands after the first one
        cases rest with
        | nil => cases htail
        | cons last rest =>
          obtain ⟨hopening, hclosing⟩ := ih rest after (List.cons.inj htail).2
          simp [hopening, hclosing]
      · cases rest with
        | nil => cases htail
        | cons last rest =>
          obtain ⟨rfl, hends⟩ := List.cons.inj htail
          obtain ⟨after', rfl⟩ := (hrest ▸ hbalanced).ends_within hinner hends
          obtain ⟨hopening, hclosing⟩ := ihInner before after' hrest
          simp [hopening, hclosing]

/-- Where an invocation stands for something, it is an end or a begin of one. -/
theorem Nested.exists_matched {bs : List (Nat × Binding)} {table : List (Nat × Resolved)}
    (h : Nested bs table) {line : Nat} {reference : Reference .method}
    (hmem : (line, .invocation reference) ∈ table) :
    ∃ opening closing, Matched bs opening closing reference ∧
      (line = opening ∨ line = closing) := by
  induction h with
  | nil => cases hmem
  | @fieldRead number _ bs table _ ih | @classOf number _ bs table _ ih =>
    simp only [List.mem_cons, Prod.mk.injEq, reduceCtorEq, and_false, false_or] at hmem
    obtain ⟨opening, closing, hmatched, hline⟩ := ih hmem
    exact ⟨opening, closing, hmatched.append_left [_], hline⟩
  | @invocation opening closing reference' inner bs innerTable table hinner _ ihInner ih =>
    simp only [List.mem_cons, List.mem_append, Prod.mk.injEq, Resolved.invocation.injEq] at hmem
    rcases hmem with ⟨rfl, rfl⟩ | hmem | ⟨rfl, rfl⟩ | hmem
    · exact ⟨line, closing, ⟨[], inner, bs, ⟨_, hinner⟩, rfl⟩, .inl rfl⟩
    · obtain ⟨first, last, hmatched, hline⟩ := ihInner hmem
      exact ⟨first, last, (hmatched.append_right _).append_left [_], hline⟩
    · exact ⟨opening, line, ⟨[], inner, bs, ⟨_, hinner⟩, rfl⟩, .inr rfl⟩
    · obtain ⟨first, last, hmatched, hline⟩ := ih hmem
      rw [List.append_cons]
      exact ⟨first, last, hmatched.append_left (_ :: (inner ++ [_])), hline⟩

theorem Nested.mem_of_fieldRead {bs : List (Nat × Binding)} {table : List (Nat × Resolved)}
    (h : Nested bs table) {line : Nat} {reference : Reference .field}
    (hmem : (line, .fieldRead reference) ∈ table) : (line, .fieldRead reference) ∈ bs := by
  induction h with
  | nil => cases hmem
  | fieldRead _ ih =>
    rcases List.mem_cons.1 hmem with heq | hmem
    · cases heq
      exact List.mem_cons_self
    · exact List.mem_cons_of_mem _ (ih hmem)
  | classOf _ ih =>
    rcases List.mem_cons.1 hmem with heq | hmem
    · cases heq
    · exact List.mem_cons_of_mem _ (ih hmem)
  | invocation _ _ ihInner ih =>
    simp only [List.mem_cons, List.mem_append, Prod.mk.injEq, reduceCtorEq, and_false,
      false_or] at hmem ⊢
    rcases hmem with hmem | hmem
    · exact .inl (ihInner hmem)
    · exact .inr (ih hmem)

end UnitLink
