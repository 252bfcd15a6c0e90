import Mathlib.Data.List.Lex
import Mathlib.Data.String.Basic
import PartnerSearch.Proofs.Text.Encoding

set_option autoImplicit false

/-!
The order of texts by code points is the order of their UTF-8 bytes: the encodings of two characters
differ in a byte that both have, and there the greater character has the greater byte.
-/

namespace PartnerSearch.Text

/-- Whatever follows, the bytes of the lesser character come first. -/
theorem utf8EncodeChar_append_lt {c d : Char} (less : c < d) (first second : Bytes) :
    String.utf8EncodeChar c ++ first < String.utf8EncodeChar d ++ second := by
  have less : c.val.toNat < d.val.toNat := less
  have bounded : d.val.toNat < 0x110000 := by
    rcases d.valid with low | high
    · omega
    · exact high.2
  have second_digit (code : Nat) : code / 4096 = code / 64 / 64 := by omega
  have third_digit (code : Nat) : code / 262144 = code / 64 / 64 / 64 := by omega
  rw [String.utf8EncodeChar.eq_1, String.utf8EncodeChar.eq_1]
  -- characters of one length are told apart by their digits, others by their lead bytes
  split_ifs <;>
    simp only [List.cons_append, List.nil_append, List.cons_lt_cons_iff, UInt8.lt_iff_toNat_lt,
      ← UInt8.toNat_inj, UInt8.toNat_ofNat', second_digit, third_digit] <;>
    omega

theorem append_lt_append {first second : Bytes} (common : Bytes) (less : first < second) :
    common ++ first < common ++ second := by
  induction common with
  | nil => exact less
  | cons b rest ih => exact List.cons_lt_cons_iff.mpr (.inr ⟨rfl, ih⟩)

theorem utf8_lt_utf8 {first second : List Char} (less : first < second) :
    utf8 first < utf8 second := by
  induction first generalizing second with
  | nil =>
      cases second with
      | nil => exact absurd less (List.lt_irrefl [])
      | cons d rest =>
          obtain ⟨b, others, same⟩ := List.exists_cons_of_length_pos (length_utf8EncodeChar_pos d)
          rw [utf8_nil, utf8_cons, same]
          exact List.nil_lt_cons b (others ++ utf8 rest)
  | cons c rest ih =>
      cases second with
      | nil => exact absurd less (List.not_lt_nil _)
      | cons d others =>
          rw [utf8_cons, utf8_cons]
          rcases List.cons_lt_cons_iff.mp less with differ | ⟨rfl, later⟩
          · exact utf8EncodeChar_append_lt differ _ _
          · exact append_lt_append _ (ih later)

/-- Texts are ordered as their bytes are. -/
theorem bytes_lt_bytes {first second : String} : bytes first < bytes second ↔ first < second := by
  rw [bytes_eq_utf8, bytes_eq_utf8, String.lt_iff_toList_lt]
  constructor
  · intro less
    rcases lt_trichotomy first.toList second.toList with before | same | behind
    · exact before
    · rw [same] at less
      exact absurd less (List.lt_irrefl _)
    · exact absurd less (List.lt_asymm (utf8_lt_utf8 behind))
  · exact utf8_lt_utf8

end PartnerSearch.Text
