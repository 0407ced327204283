import UnitLink.Proofs.MemorySources
import UnitLink.Proofs.Slashes
import UnitLink.Proofs.Utf8Decoding
/-! Texts of one line. What is cut out of a line is one line itself, and a text that is written
line by line is read back as the lines that were written, whatever carriage returns they have. A
line that starts, after white space, with anything but a semicolon is no directive. -/
namespace UnitLink

namespace Text

/-! ### Text without line feeds -/

/-- Text without a line feed. -/
def OneLine (cs : List Char) : Prop := '\n' ∉ cs

instance (cs : List Char) : Decidable (OneLine cs) := inferInstanceAs (Decidable ('\n' ∉ cs))

section

variable {cs ds : List Char}

theorem OneLine.of_subset (h : OneLine cs) (hsub : ds ⊆ cs) : OneLine ds := fun hd => h (hsub hd)

theorem oneLine_append_iff : OneLine (cs ++ ds) ↔ OneLine cs ∧ OneLine ds := by
  unfold OneLine
  rw [List.mem_append, not_or]

theorem OneLine.append (h : OneLine cs) (h' : OneLine ds) : OneLine (cs ++ ds) :=
  oneLine_append_iff.2 ⟨h, h'⟩

theorem dropReturn_subset (cs : List Char) : dropReturn cs ⊆ cs := by
  unfold dropReturn
  split
  · exact cs.dropLast_subset
  · exact List.Subset.refl cs

theorem cutFirst_subset {cut : Char → Bool} {before after : List Char}
    (h : cutFirst cut cs = some (before, after)) : before ⊆ cs ∧ after ⊆ cs := by
  obtain ⟨-, c, -, rfl⟩ := cutFirst_eq_some_iff.1 h
  exact ⟨List.subset_append_left _ _,
    fun _ hc => List.mem_append_right _ (List.mem_cons_of_mem _ hc)⟩

theorem cutLast_subset {cut : Char → Bool} {before after : List Char}
    (h : cutLast cut cs = some (before, after)) : before ⊆ cs ∧ after ⊆ cs := by
  obtain ⟨⟨after', before'⟩, hcut, heq⟩ := Option.map_eq_some_iff.1 h
  obtain ⟨rfl, rfl⟩ := Prod.mk.inj heq
  obtain ⟨hafter, hbefore⟩ := cutFirst_subset hcut
  exact ⟨fun _ hc => List.mem_reverse.1 (hbefore (List.mem_reverse.1 hc)),
    fun _ hc => List.mem_reverse.1 (hafter (List.mem_reverse.1 hc))⟩

end

/-! ### Pieces -/

section Pieces

variable {α : Type} {cut : α → Bool} {cs piece : List α}

/-- A piece is of the text, and nothing in it is cut. -/
theorem of_mem_pieces (h : piece ∈ pieces cut cs) :
    piece ⊆ cs ∧ ∀ c ∈ piece, cut c = false := by
  induction cs generalizing piece with
  | nil =>
    obtain rfl := List.mem_singleton.1 h
    exact ⟨List.nil_subset _, nofun⟩
  | cons c cs ih =>
    rw [pieces] at h
    split at h
    · rcases List.mem_cons.1 h with rfl | h
      · exact ⟨List.nil_subset _, nofun⟩
      · exact ⟨List.subset_cons_of_subset c (ih h).1, (ih h).2⟩
    · rename_i hcut
      obtain ⟨first, rest, hpieces⟩ := List.exists_cons_of_ne_nil (pieces_ne_nil cut cs)
      rw [hpieces] at h ih
      rcases List.mem_cons.1 h with rfl | h
      · obtain ⟨hsub, hfirst⟩ := ih List.mem_cons_self
        exact ⟨List.cons_subset_cons c hsub, List.forall_mem_cons.2 ⟨by simpa using hcut, hfirst⟩⟩
      · obtain ⟨hsub, hpiece⟩ := ih (List.mem_cons_of_mem _ h)
        exact ⟨List.subset_cons_of_subset c hsub, hpiece⟩

theorem pieces_append (hpiece : ∀ c ∈ piece, cut c = false) {c : α} (hc : cut c = true) :
    pieces cut (piece ++ c :: cs) = piece :: pieces cut cs := by
  induction piece with
  | nil => rw [List.nil_append, pieces, if_pos hc]
  | cons d piece ih =>
    obtain ⟨hd, hpiece⟩ := List.forall_mem_cons.1 hpiece
    rw [List.cons_append, pieces, if_neg (by simp [hd]), ih hpiece]

end Pieces

/-! ### Lines -/

section

variable {line : List Char}

theorem oneLine_iff {cs : List Char} : OneLine cs ↔ ∀ c ∈ cs, isLineFeed c = false := by
  unfold OneLine isLineFeed
  simp only [beq_eq_false_iff_ne]
  exact ⟨fun h c hc heq => h (heq ▸ hc), fun h hmem => h _ hmem rfl⟩

theorem oneLine_of_mem_pieces {cs : List Char} (h : line ∈ pieces isLineFeed cs) : OneLine line :=
  oneLine_iff.2 (of_mem_pieces h).2

theorem oneLine_of_mem_endedLines {cs : List Char} (h : line ∈ endedLines cs) : OneLine line := by
  obtain ⟨piece, hpiece, rfl⟩ := List.mem_map.1 h
  exact (oneLine_of_mem_pieces (List.dropLast_subset _ hpiece)).of_subset (dropReturn_subset piece)

theorem oneLine_of_mem_lines {cs : List Char} (h : line ∈ lines cs) : OneLine line := by
  rcases List.mem_append.1 h with h | h
  · exact oneLine_of_mem_endedLines h
  · split at h
    · cases h
    · obtain rfl := List.mem_singleton.1 h
      exact oneLine_of_mem_pieces (List.getLast_mem (pieces_ne_nil _ _))

theorem lines_append (h : OneLine line) (cs : List Char) :
    lines (line ++ '\n' :: cs) = dropReturn line :: lines cs := by
  have hpieces : pieces isLineFeed (line ++ '\n' :: cs) = line :: pieces isLineFeed cs :=
    pieces_append (oneLine_iff.1 h) rfl
  have hlast : lastLine (line ++ '\n' :: cs) = lastLine cs := by
    unfold lastLine
    simp only [hpieces]
    exact List.getLast_cons (pieces_ne_nil _ _)
  unfold lines
  rw [hlast, endedLines, hpieces, List.dropLast_cons_of_ne_nil (pieces_ne_nil _ _), List.map_cons]
  rfl

/-- Lines that are written one by one are read back one by one. -/
theorem lines_join {texts : List String} (h : ∀ text ∈ texts, OneLine text.toList) :
    lines (String.join (texts.map (· ++ "\n"))).toList =
      texts.map fun text => dropReturn text.toList := by
  induction texts with
  | nil => rfl
  | cons text texts ih =>
    obtain ⟨htext, htexts⟩ := List.forall_mem_cons.1 h
    have hjoin : (String.join ((text :: texts).map (· ++ "\n"))).toList =
        text.toList ++ '\n' :: (String.join (texts.map (· ++ "\n"))).toList := by
      simp
    rw [hjoin, lines_append htext, ih htexts, List.map_cons]

end

/-! ### Encoded lines -/

theorem toUTF8_toList (text : String) :
    text.toUTF8.toList = text.toList.flatMap String.utf8EncodeChar := by
  have hloop : ∀ (bytes : ByteArray) (i : Nat) (read : List UInt8),
      ByteArray.toList.loop bytes i read = read.reverse ++ bytes.data.toList.drop i := by
    intro bytes i read
    induction i, read using ByteArray.toList.loop.induct bytes with
    | case1 i read hi ih =>
      rw [ByteArray.toList.loop, if_pos hi, ih, List.drop_eq_getElem_cons hi]
      simp [ByteArray.get!, hi]
    | case2 i read hi =>
      rw [ByteArray.toList.loop, if_neg hi, List.drop_eq_nil_of_le (by simpa using hi)]
      simp
  rw [ByteArray.toList, hloop, toUTF8_data_toList]
  rfl

theorem ne_ten_of_mem_utf8EncodeChar {c : Char} (hc : c ≠ '\n') {byte : UInt8}
    (h : byte ∈ String.utf8EncodeChar c) : byte ≠ 10 := by
  have hvalue : c.toNat ≠ 10 := fun heq => hc (by rw [← Char.ofNat_toNat c, heq])
  have hvalid : c.toNat < 0xD800 ∨ 0xDFFF < c.toNat ∧ c.toNat < 0x110000 := c.valid
  have hbyte : ∀ x < 0x100, x ≠ 10 → UInt8.ofNat x ≠ 10 := by
    intro x hx hne heq
    exact hne (by rw [← toNat_ofNat hx, heq]; rfl)
  unfold String.utf8EncodeChar at h
  rw [show c.val.toNat = c.toNat from rfl] at h
  generalize c.toNat = v at hvalue hvalid h
  simp only at h
  split at h
  · obtain rfl := List.mem_singleton.1 h
    exact hbyte v (by omega) hvalue
  · split at h
    · simp only [List.mem_cons, List.not_mem_nil, or_false] at h
      rcases h with rfl | rfl <;> exact hbyte _ (by omega) (by omega)
    · split at h
      · simp only [List.mem_cons, List.not_mem_nil, or_false] at h
        rcases h with rfl | rfl | rfl <;> exact hbyte _ (by omega) (by omega)
      · simp only [List.mem_cons, List.not_mem_nil, or_false] at h
        rcases h with rfl | rfl | rfl | rfl <;> exact hbyte _ (by omega) (by omega)

theorem pieces_append_uncut {α : Type} {cut : α → Bool} {before cs first : List α}
    {rest : List (List α)} (hbefore : ∀ c ∈ before, cut c = false)
    (h : pieces cut cs = first :: rest) :
    pieces cut (before ++ cs) = (before ++ first) :: rest := by
  induction before with
  | nil => exact h
  | cons c before ih =>
    obtain ⟨hc, hbefore⟩ := List.forall_mem_cons.1 hbefore
    rw [List.cons_append, pieces, if_neg (by simp [hc]), ih hbefore]
    rfl

theorem pieces_uncut {α : Type} {cut : α → Bool} {piece : List α}
    (h : ∀ c ∈ piece, cut c = false) : pieces cut piece = [piece] := by
  have hpieces : pieces cut (piece ++ []) = _ := pieces_append_uncut h rfl
  rwa [List.append_nil] at hpieces

theorem pieces_encode (cs : List Char) :
    pieces (· == 10) (cs.flatMap String.utf8EncodeChar) =
      (pieces isLineFeed cs).map (·.flatMap String.utf8EncodeChar) := by
  induction cs with
  | nil => rfl
  | cons c cs ih =>
    rw [List.flatMap_cons, pieces]
    by_cases hc : c = '\n'
    · subst hc
      rw [if_pos (show isLineFeed '\n' = true from rfl), List.map_cons, ← ih]
      rfl
    · obtain ⟨first, rest, hpieces⟩ := List.exists_cons_of_ne_nil (pieces_ne_nil isLineFeed cs)
      rw [hpieces, List.map_cons] at ih
      rw [if_neg (by simpa [isLineFeed] using hc), hpieces,
        pieces_append_uncut (fun byte hbyte => by simpa using ne_ten_of_mem_utf8EncodeChar hc hbyte)
          ih]
      rfl

end Text

namespace Stream

open Text

theorem fromUTF8?_encode (cs : List Char) :
    String.fromUTF8? ⟨(cs.flatMap String.utf8EncodeChar).toArray⟩ = some (String.ofList cs) := by
  have hbytes : (⟨(cs.flatMap String.utf8EncodeChar).toArray⟩ : ByteArray) =
      (String.ofList cs).toUTF8 := by
    refine ByteArray.ext (Array.toList_inj.1 ?_)
    rw [toUTF8_data_toList, String.toList_ofList]
  rw [hbytes]
  exact dif_pos (String.ofList cs).isValidUTF8

theorem decodeLines_encode (cs : List Char) :
    decodeLines ((pieces isLineFeed cs).map (·.flatMap String.utf8EncodeChar)) = (cs, none) := by
  induction cs with
  | nil => rfl
  | cons c cs ih =>
    obtain ⟨first, rest, hpieces⟩ := List.exists_cons_of_ne_nil (pieces_ne_nil isLineFeed cs)
    rw [pieces]
    split
    · rename_i hc
      obtain rfl : c = '\n' := by simpa [isLineFeed] using hc
      rw [List.map_cons, decodeLines, fromUTF8?_encode, ih, hpieces]
      rfl
    · rw [hpieces, List.map_cons, decodeLines, fromUTF8?_encode] at ih
      obtain ⟨htext, hfault⟩ := Prod.mk.inj ih
      rw [hpieces, List.map_cons, decodeLines, fromUTF8?_encode]
      refine Prod.ext ?_ hfault
      simp only [String.toList_ofList, List.cons_append] at htext ⊢
      rw [htext]

theorem ofBytes_toUTF8 (text : String) : ofBytes text.toUTF8.toList = ofString text := by
  unfold ofBytes
  rw [toUTF8_toList, pieces_encode, decodeLines_encode]
  rfl

theorem oneLine_of_mem_lines {s : Stream} {line : String} (h : .ok line ∈ s.lines) :
    OneLine line.toList := by
  have hline : ∀ {found : List Char}, OneLine found →
      (.ok (String.ofList found) : Except SystemFault String) = .ok line →
      OneLine line.toList := by
    intro found hfound heq
    rw [← Except.ok.inj heq, String.toList_ofList]
    exact hfound
  unfold lines at h
  split at h
  · obtain ⟨found, hfound, heq⟩ := List.mem_map.1 h
    exact hline (Text.oneLine_of_mem_lines hfound) heq
  · rcases List.mem_append.1 h with h | h
    · obtain ⟨found, hfound, heq⟩ := List.mem_map.1 h
      exact hline (oneLine_of_mem_endedLines hfound) heq
    · cases List.mem_singleton.1 h

end Stream

namespace Directive

open Text

variable {line : String} {d : Directive}

/-! ### The texts in a directive -/

theorem takeAttribute_subset {cs rest : List Char} {first : List Char × List Char}
    (h : takeAttribute cs = some (first, rest)) : first.2 ⊆ cs ∧ rest ⊆ cs := by
  unfold takeAttribute at h
  split at h
  · rename_i tail
    split at h
    · cases h
    · split at h
      · rename_i value hvalue
        obtain ⟨rfl, rfl⟩ := Prod.mk.inj (Option.some.inj h)
        have hsub : value ⊆ '|' :: tail := by
          refine List.subset_cons_of_subset _ fun c hc => ?_
          exact (List.dropWhile_suffix isNameChar).subset
            (hvalue ▸ List.mem_cons_of_mem _ hc)
        exact ⟨fun c hc => hsub ((List.takeWhile_prefix _).subset hc),
          fun c hc => hsub ((List.dropWhile_suffix _).subset hc)⟩
      · cases h
  · cases h

theorem takeAttributes_subset (cs : List Char) : ∀ read ∈ (takeAttributes cs).1,
    read.2 ⊆ cs := by
  induction cs using takeAttributes.induct with
  | case1 cs hnone =>
    rw [takeAttributes_of_none hnone]
    intro read hread
    cases hread
  | case2 cs first rest hsome _ _ _ ih =>
    obtain ⟨hfirst, hrest⟩ := takeAttribute_subset hsome
    rw [takeAttributes_of_some hsome]
    exact List.forall_mem_cons.2 ⟨hfirst, fun read h => List.Subset.trans (ih read h) hrest⟩

theorem of_parseBody {indent body rest : List Char} (h : parseBody indent body rest = .ok d) :
    d.indent = String.ofList indent ∧ ∀ key value, (key, value) ∈ d.attributes →
      value.toList ⊆ rest := by
  unfold parseBody at h
  simp only at h
  split at h
  · cases h
  split at h
  · cases h
  split at h
  · cases h
  split at h
  · cases h
  obtain rfl := Except.ok.inj h
  refine ⟨rfl, fun key value hmem => ?_⟩
  obtain ⟨read, hread, heq⟩ := List.mem_map.1 hmem
  obtain ⟨-, rfl⟩ := Prod.mk.inj heq
  rw [String.toList_ofList]
  exact fun c hc => (List.dropWhile_suffix _).subset
    (takeAttributes_subset _ read hread (trim_subset _ hc))

theorem parse_eq_some (h : parse line = .ok (some d)) :
    (∀ c ∈ d.indent.toList, isBlank c = true) ∧ d.indent.toList ⊆ line.toList ∧
      ∀ key value, d.value? key = some value → value.toList ⊆ line.toList := by
  unfold parse at h
  simp only at h
  split at h
  · rename_i rest hbody
    generalize hread : parseBody _ _ rest = read at h
    cases read with
    | error fault => cases h
    | ok found =>
    obtain rfl : d = found := (Option.some.inj (Except.ok.inj h)).symm
    obtain ⟨hindent, hvalues⟩ := of_parseBody hread
    have hrest : rest ⊆ line.toList := by
      intro c hc
      refine trimEnd_subset _ ((List.dropWhile_suffix isBlank).subset ?_)
      rw [hbody]
      exact List.mem_cons_of_mem _ (List.mem_cons_of_mem _ hc)
    rw [hindent, String.toList_ofList]
    refine ⟨fun c hc => List.mem_takeWhile_imp hc, fun c hc => ?_, fun key value hvalue => ?_⟩
    · exact trimEnd_subset _ ((List.takeWhile_prefix _).subset hc)
    · obtain ⟨before, after, hattributes, -⟩ := List.lookup_eq_some_iff.1 hvalue
      have hmem : (key, value) ∈ d.attributes := by
        rw [hattributes]
        exact List.mem_append_right _ List.mem_cons_self
      exact List.Subset.trans (hvalues key value hmem) hrest
  · cases h

/-- A directive of a line: its values and its indentation are one line, and the indentation is
white space. -/
structure OneLine (d : Directive) : Prop where
  indent : Text.OneLine d.indent.toList
  blank_indent : ∀ c ∈ d.indent.toList, isBlank c = true
  values : ∀ key value, d.value? key = some value → Text.OneLine value.toList

theorem oneLine_of_parse (hline : Text.OneLine line.toList) (h : parse line = .ok (some d)) :
    d.OneLine := by
  obtain ⟨hblank, hindent, hvalues⟩ := parse_eq_some h
  exact ⟨hline.of_subset hindent, hblank, fun key value hvalue =>
    hline.of_subset (hvalues key value hvalue)⟩

/-! ### Lines that are no directives -/

/-- Parsing looks at a line up to the white space at its end. -/
theorem parse_eq_of_trimEnd_eq {line' : String}
    (h : trimEnd line'.toList = trimEnd line.toList) : parse line' = parse line := by
  unfold parse
  rw [h]

theorem trimEnd_dropReturn (cs : List Char) : trimEnd (dropReturn cs) = trimEnd cs := by
  unfold dropReturn
  split
  · rename_i hlast
    obtain ⟨before, rfl⟩ := List.getLast?_eq_some_iff.1 hlast
    unfold trimEnd
    rw [List.dropLast_concat, List.reverse_append, List.reverse_singleton, List.singleton_append,
      List.dropWhile_cons_of_pos (by decide)]
  · rfl

theorem parse_dropReturn (line : String) :
    parse (String.ofList (dropReturn line.toList)) = parse line := by
  apply parse_eq_of_trimEnd_eq
  rw [String.toList_ofList, trimEnd_dropReturn]

theorem parse_of_plain {indent rest : List Char} {c : Char}
    (hindent : ∀ c ∈ indent, isBlank c = true) (hc : isBlank c = false) (hne : c ≠ ';')
    (hline : line.toList = indent ++ c :: rest) : parse line = .ok none := by
  have hbody : (trimEnd line.toList).dropWhile isBlank = c :: trimEnd rest := by
    rw [hline, trimEnd_append_cons _ _ hc, List.dropWhile_append_of_pos hindent,
      List.dropWhile_cons_of_neg (by simp [hc])]
  unfold parse
  simp only [hbody]
  split
  · rename_i heq
    exact absurd (List.cons.inj heq).1 hne
  · rfl

end Directive
end UnitLink
