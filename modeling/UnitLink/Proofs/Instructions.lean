import UnitLink.Proofs.LineByLine
/-! The instructions that directives stand for. The begin of an invocation loads an instance, the
end invokes the method, and a directive that reads a field loads an instance and reads it; no
other directive stands for anything that uses a member. -/
namespace UnitLink

def DirectiveKind.usesMember : DirectiveKind → Bool
  | invokeBegin | invokeEnd | readField => true
  | _ => false

namespace Assembly

/-- The reference that an instruction invokes or reads. The instructions that have to do with glue
fields have none: no signature refers to what they use. -/
def member? : Assembly → Option ((kind : MemberKind) × Reference kind)
  | invoke reference | invokeInterface reference _ => some ⟨.method, reference⟩
  | readField reference => some ⟨.field, reference⟩
  | _ => none

/-- Instructions that use a member, or another class's instance for one. -/
def usesMember : Assembly → Bool
  | getGlue .. | invoke _ | invokeInterface .. | readField _ => true
  | _ => false

theorem member?_eq_none {line : Assembly} (h : line.usesMember = false) : line.member? = none := by
  cases line with
  | getGlue | invoke | invokeInterface | readField => cases h
  | _ => rfl

end Assembly

namespace Resolution

/-- How the instance through which a member is reached gets on the stack, if there has to be
one. -/
inductive LoadsReceiver (c : ClassUnit) (glue : GlueFields) {kind : MemberKind}
    (reference : Reference kind) : List Assembly → Prop
  | static : reference.opcode.isStatic = true → LoadsReceiver c glue reference []
  | self : reference.opcode.isStatic = false →
      reference.isLocal = true ∨ reference.owner = c.name →
      LoadsReceiver c glue reference [.loadSelf]
  | glued {name : String} : reference.opcode.isStatic = false → reference.isLocal = false →
      reference.owner ≠ c.name → glue.find? reference.owner = some name →
      LoadsReceiver c glue reference [.loadSelf, .getGlue c.name name reference.owner]

/-- What stands at the begin of an invocation. -/
inductive Begins (c : ClassUnit) (glue : GlueFields) (d : Directive)
    (reference : Reference .method) : List Assembly → Prop
  | loaded {receiver : List Assembly} : LoadsReceiver c glue reference receiver →
      reference.opcode.isStatic = true ∨ d.pending = .ok false →
      Begins c glue d reference receiver
  | swapped {receiver : List Assembly} : LoadsReceiver c glue reference receiver →
      reference.opcode.isStatic = false → d.pending = .ok true →
      Begins c glue d reference (receiver ++ [.swap])

/-- What stands at the end of an invocation. -/
inductive Ends (reference : Reference .method) : List Assembly → Prop
  | invoke : reference.opcode ≠ .invokeinterface → Ends reference [.invoke reference]
  | invokeInterface {count : Nat} : reference.opcode = .invokeinterface →
      reference.argumentCount = .ok count → Ends reference [.invokeInterface reference count]

/-- What a directive stands for, as far as members are concerned. -/
inductive Expands (c : ClassUnit) (glue : GlueFields) (d : Directive) :
    Option Resolved → List Assembly → Prop
  | begins {reference : Reference .method} {out : List Assembly} : d.kind = .invokeBegin →
      Begins c glue d reference out → Expands c glue d (some (.invocation reference)) out
  | ends {reference : Reference .method} {out : List Assembly} : d.kind = .invokeEnd →
      Ends reference out → Expands c glue d (some (.invocation reference)) out
  | reads {reference : Reference .field} {receiver : List Assembly} : d.kind = .readField →
      LoadsReceiver c glue reference receiver →
      Expands c glue d (some (.fieldRead reference)) (receiver ++ [.readField reference])
  | other {resolved : Option Resolved} {out : List Assembly} : d.kind.usesMember = false →
      (∀ line ∈ out, line.usesMember = false) → Expands c glue d resolved out

variable {c : ClassUnit} {glue : GlueFields} {d : Directive}

theorem LoadsReceiver.member?_eq_none {kind : MemberKind} {reference : Reference kind}
    {out : List Assembly} (h : LoadsReceiver c glue reference out) :
    ∀ line ∈ out, line.member? = none := by
  cases h <;> simp [Assembly.member?]

theorem Begins.member?_eq_none {reference : Reference .method} {out : List Assembly}
    (h : Begins c glue d reference out) : ∀ line ∈ out, line.member? = none := by
  intro line hline
  cases h with
  | loaded hloads => exact hloads.member?_eq_none line hline
  | swapped hloads =>
    rcases List.mem_append.1 hline with hline | hline
    · exact hloads.member?_eq_none line hline
    · obtain rfl := List.mem_singleton.1 hline
      rfl

theorem LoadsReceiver.of_loadReceiver {kind : MemberKind} {reference : Reference kind}
    {out : List Assembly} (hinstance : reference.opcode.isStatic = false)
    (h : loadReceiver ⟨c, .empty, glue⟩ reference = .ok out) :
    LoadsReceiver c glue reference out := by
  unfold loadReceiver at h
  split at h
  · rename_i hown
    obtain rfl := Except.ok.inj h
    exact .self hinstance (by simpa using hown)
  · rename_i hforeign
    rw [Bool.or_eq_true, not_or] at hforeign
    split at h
    · rename_i name hname
      obtain rfl := Except.ok.inj h
      exact .glued hinstance (by simpa using hforeign.1) (by simpa using hforeign.2) hname
    · cases h

theorem Begins.of_invokeBegin {reference : Reference .method} {out : List Assembly}
    (h : invokeBegin ⟨c, .empty, glue⟩ d reference = .ok out) :
    Begins c glue d reference out := by
  unfold invokeBegin at h
  split at h
  · rename_i hneeds
    have hinstance : reference.opcode.isStatic = false := by
      simpa [Reference.needsReceiver] using hneeds
    obtain ⟨receiver, hreceiver, h⟩ := exists_of_bind_eq_ok h
    obtain ⟨pending, hpending, h⟩ := exists_of_bind_eq_ok h
    have hloads := LoadsReceiver.of_loadReceiver hinstance hreceiver
    obtain rfl := Except.ok.inj h
    cases hread : d.pending with
    | error fault =>
      rw [hread] at hpending
      cases hpending
    | ok waiting =>
      rw [hread] at hpending
      obtain rfl : waiting = pending := Except.ok.inj hpending
      cases waiting with
      | true => exact .swapped hloads hinstance hread
      | false =>
        rw [if_neg Bool.false_ne_true, List.append_nil]
        exact .loaded hloads (.inr hread)
  · rename_i hstatic
    have hstatic : reference.opcode.isStatic = true := by
      simpa [Reference.needsReceiver] using hstatic
    obtain rfl := Except.ok.inj h
    exact .loaded (.static hstatic) (.inl hstatic)

theorem Ends.of_invokeEnd {reference : Reference .method} {out : List Assembly}
    (h : invokeEnd reference = .ok out) : Ends reference out := by
  unfold invokeEnd at h
  split at h
  · rename_i hinterface
    obtain ⟨count, hcount, h⟩ := exists_of_bind_eq_ok h
    obtain rfl := Except.ok.inj h
    refine .invokeInterface hinterface ?_
    cases hread : reference.argumentCount with
    | error fault =>
      rw [hread] at hcount
      cases hcount
    | ok read =>
      rw [hread] at hcount
      exact congrArg Except.ok (Except.ok.inj hcount)
  · rename_i hother
    obtain rfl := Except.ok.inj h
    exact .invoke hother

theorem exists_loadsReceiver_of_readField {reference : Reference .field} {out : List Assembly}
    (h : readField ⟨c, .empty, glue⟩ reference = .ok out) :
    ∃ receiver, LoadsReceiver c glue reference receiver ∧
      out = receiver ++ [.readField reference] := by
  unfold readField at h
  split at h
  · rename_i hneeds
    have hinstance : reference.opcode.isStatic = false := by
      simpa [Reference.needsReceiver] using hneeds
    obtain ⟨receiver, hreceiver, h⟩ := exists_of_bind_eq_ok h
    exact ⟨receiver, .of_loadReceiver hinstance hreceiver, (Except.ok.inj h).symm⟩
  · rename_i hstatic
    exact ⟨[], .static (by simpa [Reference.needsReceiver] using hstatic),
      (Except.ok.inj h).symm⟩

theorem usesMember_of_classHeader {out : List Assembly} (h : classHeader d = .ok out) :
    ∀ line ∈ out, line.usesMember = false := by
  unfold classHeader at h
  obtain ⟨header, -, h⟩ := exists_of_bind_eq_ok h
  obtain rfl := Except.ok.inj h
  cases header.superclass <;> simp [Assembly.usesMember]

theorem usesMember_of_fieldLine {out : List Assembly} (h : fieldLine d = .ok out) :
    ∀ line ∈ out, line.usesMember = false := by
  unfold fieldLine at h
  obtain ⟨written, -, h⟩ := exists_of_bind_eq_ok h
  obtain ⟨modifiers, -, h⟩ := exists_of_bind_eq_ok h
  obtain rfl := Except.ok.inj h
  simp [Assembly.usesMember]

theorem usesMember_of_methodLine {out : List Assembly} (h : methodLine d = .ok out) :
    ∀ line ∈ out, line.usesMember = false := by
  unfold methodLine at h
  obtain ⟨modifiers, -, h⟩ := exists_of_bind_eq_ok h
  obtain ⟨written, -, h⟩ := exists_of_bind_eq_ok h
  obtain rfl := Except.ok.inj h
  simp [Assembly.usesMember]

theorem usesMember_of_glueFields (r : Resolution) :
    ∀ line ∈ r.glueFields, line.usesMember = false := by
  intro line hline
  obtain ⟨field, -, rfl⟩ := List.mem_map.1 hline
  rfl

theorem usesMember_of_initField (r : Resolution) (slot : Nat) (owner : ClassName) (name : String) :
    ∀ line ∈ r.initField slot owner name, line.usesMember = false := by
  unfold initField
  split <;> simp [Assembly.usesMember]

theorem usesMember_of_glueInit {r : Resolution} {out : List Assembly} (h : r.glueInit d = .ok out) :
    ∀ line ∈ out, line.usesMember = false := by
  unfold glueInit at h
  obtain ⟨slot, -, h⟩ := exists_of_bind_eq_ok h
  obtain rfl := Except.ok.inj h
  intro line hline
  obtain ⟨⟨owner, name⟩, -, hfield⟩ := List.mem_flatMap.1 hline
  exact usesMember_of_initField r slot owner name line hfield

theorem Expands.of_expansion {resolved : Option Resolved} {out : List Assembly}
    (h : expansion c glue d resolved = .ok out) : Expands c glue d resolved out := by
  unfold expansion expand at h
  split at h
  case h_1 hkind => exact .other (by rw [hkind]; rfl) (usesMember_of_classHeader h)
  case h_2 hkind => exact .other (by rw [hkind]; rfl) (usesMember_of_fieldLine h)
  case h_3 hkind => exact .other (by rw [hkind]; rfl) (usesMember_of_methodLine h)
  case h_4 hkind => exact .begins hkind (.of_invokeBegin h)
  case h_5 hkind => exact .ends hkind (.of_invokeEnd h)
  case h_6 hkind =>
    obtain ⟨receiver, hloads, rfl⟩ := exists_loadsReceiver_of_readField h
    exact .reads hkind hloads
  case h_7 hkind =>
    obtain rfl := Except.ok.inj h
    exact .other (by rw [hkind]; rfl) (by simp [Assembly.usesMember])
  case h_8 hkind =>
    obtain rfl := Except.ok.inj h
    exact .other (by rw [hkind]; rfl) (usesMember_of_glueFields _)
  case h_9 hkind => exact .other (by rw [hkind]; rfl) (usesMember_of_glueInit h)
  case h_10 => cases h

/-- A directive that uses a member ends an invocation or reads a field, and it uses the member
that its line was resolved to. -/
theorem Expands.of_member? {resolved : Option Resolved} {out : List Assembly}
    (h : Expands c glue d resolved out) {line : Assembly} (hline : line ∈ out)
    {found : (kind : MemberKind) × Reference kind} (hfound : line.member? = some found) :
    (∃ reference, found = ⟨.method, reference⟩ ∧ d.kind = .invokeEnd ∧
        resolved = some (.invocation reference)) ∨
      ∃ reference receiver, found = ⟨.field, reference⟩ ∧ d.kind = .readField ∧
        resolved = some (.fieldRead reference) ∧ LoadsReceiver c glue reference receiver ∧
        out = receiver ++ [.readField reference] := by
  cases h with
  | begins _ hbegins =>
    rw [hbegins.member?_eq_none line hline] at hfound
    cases hfound
  | @ends reference _ hkind hends =>
    have hsame : some ⟨.method, reference⟩ = line.member? := by
      cases hends with
      | invoke | invokeInterface =>
        obtain rfl := List.mem_singleton.1 hline
        rfl
    exact .inl ⟨reference, (Option.some.inj (hsame.trans hfound)).symm, hkind, rfl⟩
  | @reads reference receiver hkind hloads =>
    rcases List.mem_append.1 hline with hreceiver | hread
    · rw [hloads.member?_eq_none line hreceiver] at hfound
      cases hfound
    · obtain rfl := List.mem_singleton.1 hread
      exact .inr ⟨reference, receiver, (Option.some.inj hfound).symm, hkind, rfl, hloads, rfl⟩
  | other _ hnone =>
    rw [Assembly.member?_eq_none (hnone line hline)] at hfound
    cases hfound

theorem Expands.begins_of_kind {reference : Reference .method} {out : List Assembly}
    (h : Expands c glue d (some (.invocation reference)) out) (hkind : d.kind = .invokeBegin) :
    Begins c glue d reference out := by
  cases h with
  | begins _ hbegins => exact hbegins
  | ends hend =>
    rw [hkind] at hend
    cases hend
  | other hother =>
    rw [hkind] at hother
    cases hother

theorem Expands.ends_of_kind {reference : Reference .method} {out : List Assembly}
    (h : Expands c glue d (some (.invocation reference)) out) (hkind : d.kind = .invokeEnd) :
    Ends reference out := by
  cases h with
  | ends _ hends => exact hends
  | begins hbegin =>
    rw [hkind] at hbegin
    cases hbegin
  | other hother =>
    rw [hkind] at hother
    cases hother

end Resolution
end UnitLink
