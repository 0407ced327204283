import UnitLink.Pass
import UnitLink.Proofs.Sessions
/-! Rules for passes. A pass reads the lines of a source in order; what its visitor keeps
from line to line holds at the end, and a pass that comes to its end has read them all.
The rules are the same for plain passes and for those that ask what the tasks share. -/
namespace UnitLink

/-- A way to say what holds of every result that a computation can come to. -/
structure Judgement (m : Type → Type) [Monad m] where
  holds : {β : Type} → m β → (β → Prop) → Prop
  holds_pure : ∀ {β : Type} {value : β} {post : β → Prop}, post value → holds (pure value) post
  holds_bind : ∀ {β γ : Type} {x : m β} {f : β → m γ} {post : γ → Prop},
    (holds x fun value => holds (f value) post) → holds (x >>= f) post
  holds_mono : ∀ {β : Type} {x : m β} {post post' : β → Prop},
    holds x post → (∀ value, post value → post' value) → holds x post'

def Judgement.plain : Judgement Id where
  holds x post := post x
  holds_pure h := h
  holds_bind h := h
  holds_mono h himp := himp _ h

def Judgement.underProtocol {τ : Type} (P : Protocol τ) : Judgement (Session τ) where
  holds x post := x.Meets P post
  holds_pure h := h
  holds_bind h := Session.meets_bind_iff.2 h
  holds_mono h himp := h.mono himp

theorem Line.number_of_read {number : Nat} {text : Except SystemFault String} {line : Line}
    (h : Line.read number text = .ok line) : line.number = number := by
  unfold Line.read at h
  split at h
  · cases h
  · split at h
    · cases h
    · obtain rfl := Except.ok.inj h
      rfl

/-- All lines with their numbers and directives, unless one cannot be read. -/
def readLines (source : String) :
    (number : Nat) → List (Except SystemFault String) → Except Failure (List Line)
  | _, [] => .ok []
  | number, text :: texts =>
    match Line.read number text with
    | .error failure => .error (failure.locate ⟨source, number⟩)
    | .ok line => (readLines source (number + 1) texts).map (line :: ·)

theorem readLines_cons_of_ok {source : String} {number : Nat} {text : Except SystemFault String}
    {texts : List (Except SystemFault String)} {line : Line}
    (h : Line.read number text = .ok line) :
    readLines source number (text :: texts) =
      (readLines source (number + 1) texts).map (line :: ·) := by
  rw [readLines, h]

theorem readLines_cons_eq_ok {source : String} {number : Nat} {text : Except SystemFault String}
    {texts : List (Except SystemFault String)} {read : List Line}
    (h : readLines source number (text :: texts) = .ok read) :
    ∃ line others, Line.read number text = .ok line ∧
      readLines source (number + 1) texts = .ok others ∧ read = line :: others := by
  unfold readLines at h
  split at h
  · cases h
  · rename_i line hline
    cases hothers : readLines source (number + 1) texts with
    | error failure =>
      rw [hothers] at h
      cases h
    | ok others =>
      rw [hothers] at h
      exact ⟨line, others, hline, rfl, (Except.ok.inj h).symm⟩

theorem getElem?_of_readLines {source : String} {number i : Nat}
    {texts : List (Except SystemFault String)} {read : List Line} {text : Except SystemFault String}
    (h : readLines source number texts = .ok read) (hi : texts[i]? = some text) :
    ∃ line, read[i]? = some line ∧ Line.read (number + i) text = .ok line := by
  induction texts generalizing number i read with
  | nil => simp at hi
  | cons first texts ih =>
    obtain ⟨line, others, hline, hothers, rfl⟩ := readLines_cons_eq_ok h
    cases i with
    | zero =>
      obtain rfl : first = text := by simpa using hi
      exact ⟨line, rfl, hline⟩
    | succ i =>
      obtain ⟨found, hfound, hread⟩ := ih hothers hi
      exact ⟨found, hfound, by rwa [Nat.add_right_comm] at hread⟩

section Visiting

variable {m : Type → Type} [Monad m] {ε : Type} [Located ε] {α σ : Type}

/-- What one visited line keeps, a whole pass keeps. -/
theorem visitLines_spec (J : Judgement m) (source : String)
    (visit : Line → α → m (Except ε Unit × α)) (lines : List (Except SystemFault String))
    (Inv : List Line → α → Prop) (Bad : ε → α → Prop)
    (hvisit : ∀ seen text line a, lines[seen.length]? = some text →
      Line.read (seen.length + 1) text = .ok line → Inv seen a →
      J.holds (visit line a) fun result =>
        match result.1 with
        | .ok () => Inv (seen ++ [line]) result.2
        | .error e => Bad (Located.locate ⟨source, line.number⟩ e) result.2)
    (hunread : ∀ seen text failure a, lines[seen.length]? = some text →
      Line.read (seen.length + 1) text = .error failure → Inv seen a →
      Bad (Located.locate ⟨source, seen.length + 1⟩ (Located.ofFailure failure)) a)
    {a : α} (hstart : Inv [] a) :
    J.holds (visitLines source visit 1 lines a) fun result =>
      match result.1 with
      | .ok () => ∃ read, readLines source 1 lines = .ok read ∧ Inv read result.2
      | .error e => Bad e result.2 := by
  -- the induction is on the lines still to come after those that were seen
  suffices h : ∀ (rest : List (Except SystemFault String)) (seen : List Line) (a : α),
      lines.drop seen.length = rest → Inv seen a →
      J.holds (visitLines source visit (seen.length + 1) rest a) fun result =>
        match result.1 with
        | .ok () => ∃ read, readLines source (seen.length + 1) rest = .ok read ∧
            Inv (seen ++ read) result.2
        | .error e => Bad e result.2 from h lines [] a rfl hstart
  intro rest
  induction rest with
  | nil =>
    intro seen a _ hinv
    exact J.holds_pure ⟨[], rfl, by simpa using hinv⟩
  | cons text rest ih =>
    intro seen a hdrop hinv
    have htext : lines[seen.length]? = some text := by
      rw [← List.head?_drop, hdrop, List.head?_cons]
    rw [visitLines]
    split
    · rename_i failure hread
      exact J.holds_pure (hunread seen text failure a htext hread hinv)
    · rename_i line hread
      refine J.holds_bind (J.holds_mono (hvisit seen text line a htext hread hinv) ?_)
      rintro ⟨outcome, a'⟩ hnext
      cases outcome with
      | error e =>
        rw [Line.number_of_read hread] at hnext
        exact J.holds_pure hnext
      | ok done =>
        have hdrop' : lines.drop (seen ++ [line]).length = rest := by
          rw [List.length_append, List.length_singleton, ← List.drop_drop, hdrop]
          rfl
        have hrest := ih (seen ++ [line]) a' hdrop' hnext
        rw [List.length_append, List.length_singleton] at hrest
        refine J.holds_mono hrest ?_
        rintro ⟨outcome, b⟩ hend
        cases outcome with
        | error e => exact hend
        | ok done =>
          obtain ⟨read, hothers, hinv'⟩ := hend
          refine ⟨line :: read, ?_, by simpa using hinv'⟩
          rw [readLines_cons_of_ok hread, hothers]
          rfl

variable [LawfulMonad m]

theorem visitLines_reading (source : String) (visit : Line → α → m (Except ε Unit × α))
    (number : Nat) (lines : List (Except SystemFault String)) (s : Source σ) (a : α) :
    visitLines source (Source.reading visit) number lines (s, a) =
      visitLines source visit number lines a >>= fun result => pure (result.1, s, result.2) := by
  induction lines generalizing number a with
  | nil => simp [visitLines]
  | cons text lines ih =>
    unfold visitLines
    split
    · simp
    · simp only [Source.reading, bind_assoc, pure_bind]
      congr 1
      funext result
      obtain ⟨outcome, a'⟩ := result
      cases outcome with
      | error e => simp
      | ok done => exact ih _ _

/-- The lines that the live reader has still to read. -/
def Source.unread (s : Source σ) : List (Except SystemFault String) :=
  (s.reader.map Stream.lines).getD []

theorem Source.visitStarted_reading (visit : Line → α → m (Except ε Unit × α)) (a : α)
    (s : Source σ) :
    visitStarted (reading visit) a (.ok (), s) =
      (UnitLink.visitLines s.name visit 1 s.unread a >>=
        fun result => pure (result.1, s.releaseInput, result.2)) := by
  simp only [visitStarted, visitLines_reading, bind_assoc, pure_bind, unread]

end Visiting
end UnitLink
