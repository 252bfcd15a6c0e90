import PartnerSearch.Text.Bytes

set_option autoImplicit false

/-!
Text as UTF-8 bytes, character by character. What is written as bytes is read back as the same text,
and bytes below 80 (hexadecimal) are the ASCII characters of the text one by one.
-/

namespace PartnerSearch.Text

/-- The bytes of a list of characters. -/
def utf8 (chars : List Char) : Bytes := chars.flatMap String.utf8EncodeChar

@[simp] theorem utf8_nil : utf8 [] = [] := rfl

@[simp] theorem utf8_cons (c : Char) (rest : List Char) :
    utf8 (c :: rest) = String.utf8EncodeChar c ++ utf8 rest := List.flatMap_cons

@[simp] theorem utf8_append (first second : List Char) :
    utf8 (first ++ second) = utf8 first ++ utf8 second := List.flatMap_append

theorem bytes_ofList (chars : List Char) : bytes (String.ofList chars) = utf8 chars := by
  show (String.ofList chars).toByteArray.data.toList = utf8 chars
  rw [String.toByteArray_ofList]
  exact List.toList_data_toByteArray

theorem bytes_eq_utf8 (text : String) : bytes text = utf8 text.toList := by
  rw [← bytes_ofList, String.ofList_toList]

theorem ofBytes?_bytes (text : String) : ofBytes? (bytes text) = some text := by
  have same : (⟨(bytes text).toArray⟩ : ByteArray) = text.toByteArray := by
    apply ByteArray.ext
    exact Array.toArray_toList
  have valid : (⟨(bytes text).toArray⟩ : ByteArray).IsValidUTF8 := same ▸ text.isValidUTF8
  rw [ofBytes?, String.fromUTF8?, dif_pos valid]
  exact congrArg some (String.toByteArray_inj.mp same)

theorem bytes_of_ofBytes? {input : Bytes} {text : String} (read : ofBytes? input = some text) :
    bytes text = input := by
  rw [ofBytes?, String.fromUTF8?] at read
  split at read
  · cases read
    rfl
  · cases read

theorem utf8EncodeChar_of_ascii {c : Char} (ascii : c.toNat < 0x80) :
    String.utf8EncodeChar c = [UInt8.ofNat c.toNat] := by
  have narrow : c.val.toNat ≤ 127 := by
    change c.toNat ≤ 127
    omega
  rw [String.utf8EncodeChar.eq_1, if_pos narrow]
  rfl

/-- The bytes of a character beyond ASCII are beyond ASCII. -/
theorem le_of_mem_utf8EncodeChar {c : Char} (wide : 0x80 ≤ c.toNat) {b : UInt8}
    (member : b ∈ String.utf8EncodeChar c) : 0x80 ≤ b.toNat := by
  have notNarrow : ¬ c.val.toNat ≤ 127 := by
    change ¬ c.toNat ≤ 127
    omega
  rw [String.utf8EncodeChar.eq_1, if_neg notNarrow] at member
  split at member
  all_goals try split at member
  all_goals
    simp only [List.mem_cons, List.not_mem_nil, or_false] at member
    rcases member with rfl | rfl | rfl | rfl <;>
      simp only [UInt8.toNat_ofNat'] <;> omega

theorem length_utf8EncodeChar_pos (c : Char) : 0 < (String.utf8EncodeChar c).length := by
  rw [String.length_utf8EncodeChar]
  exact c.utf8Size_pos

/-- Each character has a byte at least. -/
theorem length_le_length_utf8 (chars : List Char) : chars.length ≤ (utf8 chars).length := by
  induction chars with
  | nil => exact Nat.le_refl 0
  | cons c rest ih =>
      have first := length_utf8EncodeChar_pos c
      rw [utf8_cons, List.length_append, List.length_cons]
      omega

theorem length_utf8_of_ascii {chars : List Char} (ascii : ∀ c ∈ chars, c.toNat < 0x80) :
    (utf8 chars).length = chars.length := by
  induction chars with
  | nil => rfl
  | cons c rest ih =>
      obtain ⟨first, others⟩ := List.forall_mem_cons.mp ascii
      rw [utf8_cons, utf8EncodeChar_of_ascii first, List.singleton_append, List.length_cons, ih others,
        List.length_cons]

theorem ofUInt8_ofNat_toNat {c : Char} (ascii : c.toNat < 0x80) :
    Char.ofUInt8 (UInt8.ofNat c.toNat) = c := by
  apply Char.toNat_inj.mp
  show (UInt8.ofNat c.toNat).toNat = c.toNat
  rw [UInt8.toNat_ofNat']
  omega

/-- Bytes that are all ASCII are the characters themselves. -/
theorem eq_map_of_ascii {chars : List Char} (ascii : ∀ b ∈ utf8 chars, b.toNat < 0x80) :
    chars = (utf8 chars).map Char.ofUInt8 := by
  induction chars with
  | nil => rfl
  | cons c rest ih =>
      rw [utf8_cons] at ascii
      have narrow : c.toNat < 0x80 := by
        rcases Nat.lt_or_ge c.toNat 0x80 with narrow | wide
        · exact narrow
        · obtain ⟨b, member⟩ := List.exists_mem_of_length_pos (length_utf8EncodeChar_pos c)
          have small := ascii b (List.mem_append_left _ member)
          have large := le_of_mem_utf8EncodeChar wide member
          omega
      rw [utf8_cons, utf8EncodeChar_of_ascii narrow, List.singleton_append, List.map_cons,
        ofUInt8_ofNat_toNat narrow, ← ih fun b member => ascii b (List.mem_append_right _ member)]

theorem utf8_map_ofUInt8 {symbols : Bytes} (ascii : ∀ b ∈ symbols, b.toNat < 0x80) :
    utf8 (symbols.map Char.ofUInt8) = symbols := by
  induction symbols with
  | nil => rfl
  | cons b rest ih =>
      have small := ascii b List.mem_cons_self
      have same : (Char.ofUInt8 b).toNat = b.toNat := rfl
      rw [List.map_cons, utf8_cons, utf8EncodeChar_of_ascii (by rw [same]; exact small), same,
        UInt8.ofNat_toNat, List.singleton_append,
        ih fun b member => ascii b (List.mem_cons_of_mem _ member)]

end PartnerSearch.Text
