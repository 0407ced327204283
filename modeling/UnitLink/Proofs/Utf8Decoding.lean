import UnitLink.Text.Utf8
/-! Lossy decoding loses nothing of valid UTF-8. The encoding of a character leaves no sequence
open, and no byte of it is out of the range that the bytes before it ask for. -/
namespace UnitLink.Text

theorem toNat_ofNat {n : Nat} (h : n < 0x100) : (UInt8.ofNat n).toNat = n :=
  UInt8.toNat_ofNat_of_lt' h

variable {x : Nat}

theorem utf8Lead_one (h : x < 0x80) : utf8Lead (UInt8.ofNat x) = .whole (Char.ofNat x) := by
  have hbyte : (UInt8.ofNat x).toNat = x := toNat_ofNat (by omega)
  unfold utf8Lead
  simp only [hbyte]
  rw [if_pos h]

theorem utf8Lead_two (hlow : 2 ≤ x) (hhigh : x < 0x20) :
    utf8Lead (UInt8.ofNat (x + 0xC0)) = .opens ⟨x, 0, 0x80, 0xBF⟩ := by
  have hbyte : (UInt8.ofNat (x + 0xC0)).toNat = x + 0xC0 := toNat_ofNat (by omega)
  unfold utf8Lead
  simp only [hbyte]
  rw [if_neg (by omega), if_neg (by omega), if_pos (by omega), Nat.add_sub_cancel]

theorem utf8Lead_three (h : x < 0x10) :
    utf8Lead (UInt8.ofNat (x + 0xE0)) =
      .opens ⟨x, 1, if x = 0 then 0xA0 else 0x80, if x = 13 then 0x9F else 0xBF⟩ := by
  have hbyte : (UInt8.ofNat (x + 0xE0)).toNat = x + 0xE0 := toNat_ofNat (by omega)
  unfold utf8Lead
  simp only [hbyte]
  rw [if_neg (by omega), if_neg (by omega), if_neg (by omega), if_pos (by omega),
    Nat.add_sub_cancel]
  simp

theorem utf8Lead_four (h : x < 5) :
    utf8Lead (UInt8.ofNat (x + 0xF0)) =
      .opens ⟨x, 2, if x = 0 then 0x90 else 0x80, if x = 4 then 0x8F else 0xBF⟩ := by
  have hbyte : (UInt8.ofNat (x + 0xF0)).toNat = x + 0xF0 := toNat_ofNat (by omega)
  unfold utf8Lead
  simp only [hbyte]
  rw [if_neg (by omega), if_neg (by omega), if_neg (by omega), if_neg (by omega),
    if_pos (by omega), Nat.add_sub_cancel]
  simp

/-- A byte in range adds six bits to an open sequence. -/
theorem utf8Items_continue {p : Utf8Prefix} (hlow : p.low ≤ x % 0x40 + 0x80)
    (hhigh : x % 0x40 + 0x80 ≤ p.high) (bytes : List UInt8) :
    utf8Items (some p) (UInt8.ofNat (x % 0x40 + 0x80) :: bytes) =
      match p.more with
      | 0 => some (Char.ofNat (64 * p.value + x % 0x40)) :: utf8Items none bytes
      | more + 1 => utf8Items (some ⟨64 * p.value + x % 0x40, more, 0x80, 0xBF⟩) bytes := by
  have hbyte : (UInt8.ofNat (x % 0x40 + 0x80)).toNat = x % 0x40 + 0x80 :=
    toNat_ofNat (by omega)
  rw [utf8Items, utf8Feed]
  simp only [hbyte, if_pos (And.intro hlow hhigh), Nat.add_sub_cancel]
  cases p.more <;> rfl

theorem utf8Items_lead {byte : UInt8} {begun : Utf8Prefix} (h : utf8Lead byte = .opens begun)
    (bytes : List UInt8) : utf8Items none (byte :: bytes) = utf8Items (some begun) bytes := by
  rw [utf8Items, utf8Feed, h]
  rfl

theorem utf8Items_encodeChar (c : Char) (bytes : List UInt8) :
    utf8Items none (String.utf8EncodeChar c ++ bytes) = some c :: utf8Items none bytes := by
  have hvalid : c.toNat < 0xD800 ∨ 0xDFFF < c.toNat ∧ c.toNat < 0x110000 := c.valid
  have hchar : Char.ofNat c.toNat = c := Char.ofNat_toNat c
  unfold String.utf8EncodeChar
  rw [show c.val.toNat = c.toNat from rfl]
  generalize c.toNat = v at hvalid hchar
  simp only
  split
  · rw [List.singleton_append, utf8Items, utf8Feed, utf8Lead_one (by omega), hchar]
    rfl
  · split
    · have hlead : v / 64 % 0x20 = v / 64 := Nat.mod_eq_of_lt (by omega)
      have hvalue : 64 * (v / 64) + v % 0x40 = v := by omega
      rw [hlead, List.cons_append, utf8Items_lead (utf8Lead_two (by omega) (by omega)),
        List.singleton_append, utf8Items_continue (by dsimp only; omega) (by dsimp only; omega)]
      simp only [hvalue, hchar]
    · split
      · have hlead : v / 4096 % 0x10 = v / 4096 := Nat.mod_eq_of_lt (by omega)
        have hvalue : 64 * (64 * (v / 4096) + v / 64 % 0x40) + v % 0x40 = v := by omega
        rw [hlead, List.cons_append, utf8Items_lead (utf8Lead_three (by omega)),
          List.cons_append, utf8Items_continue (by dsimp only; split <;> omega)
            (by dsimp only; split <;> omega)]
        simp only
        rw [List.singleton_append, utf8Items_continue (by dsimp only; omega)
          (by dsimp only; omega)]
        simp only [hvalue, hchar]
      · have hlead : v / 262144 % 0x08 = v / 262144 := Nat.mod_eq_of_lt (by omega)
        have hvalue : 64 * (64 * (64 * (v / 262144) + v / 4096 % 0x40) + v / 64 % 0x40) +
            v % 0x40 = v := by omega
        rw [hlead, List.cons_append, utf8Items_lead (utf8Lead_four (by omega)),
          List.cons_append, utf8Items_continue (by dsimp only; split <;> omega)
            (by dsimp only; split <;> omega)]
        simp only
        rw [List.cons_append, utf8Items_continue (by dsimp only; omega) (by dsimp only; omega)]
        simp only
        rw [List.singleton_append, utf8Items_continue (by dsimp only; omega)
          (by dsimp only; omega)]
        simp only [hvalue, hchar]

theorem utf8Items_encode (cs : List Char) :
    utf8Items none (cs.flatMap String.utf8EncodeChar) = cs.map some := by
  induction cs with
  | nil => rfl
  | cons c cs ih => rw [List.flatMap_cons, utf8Items_encodeChar, ih, List.map_cons]

theorem toUTF8_data_toList (text : String) :
    text.toUTF8.data.toList = text.toList.flatMap String.utf8EncodeChar := by
  conv => lhs; rw [← String.ofList_toList (s := text)]
  rw [String.toUTF8_eq_toByteArray, String.toByteArray_ofList]
  exact List.toList_data_toByteArray

/-- Text is decoded from its own bytes. -/
theorem utf8Lossy_toUTF8 (text : String) :
    utf8Lossy text.toUTF8.data.toList = text.toList := by
  rw [utf8Lossy, toUTF8_data_toList, utf8Items_encode, List.map_map]
  exact List.map_id _

end UnitLink.Text
