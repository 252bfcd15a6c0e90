import PartnerSearch.Text.Blank
import PartnerSearch.Text.Hex
import PartnerSearch.Text.Integer

set_option autoImplicit false

/-!
Digits, blanks and letter cases. Beyond ASCII there are no digits, and no letter has another case; the
characters of ASCII are a table that can be checked.
-/

namespace PartnerSearch.Text

theorem forall_of_ascii {holds : Char → Prop} (each : ∀ n < 128, holds (Char.ofNat n)) {c : Char}
    (ascii : c.toNat < 128) : holds c :=
  Char.ofNat_toNat c ▸ each c.toNat ascii

theorem not_between_of_not_ascii {c first last : Char} (beyond : 128 ≤ c.toNat)
    (ascii : last.toNat < 128) : ¬(first ≤ c ∧ c ≤ last) := by
  intro between
  have below : c.toNat ≤ last.toNat := UInt32.le_iff_toNat_le.mp between.2
  omega

theorem toLower_of_not_ascii {c : Char} (beyond : 128 ≤ c.toNat) : c.toLower = c := by
  unfold Char.toLower
  rw [dif_neg]
  exact @not_between_of_not_ascii c 'A' 'Z' beyond (by decide)

theorem toLower_eq_hyphen {c : Char} : c.toLower = '-' ↔ c = '-' := by
  by_cases ascii : c.toNat < 128
  · exact @forall_of_ascii (fun c => c.toLower = '-' ↔ c = '-') (by decide +kernel) c ascii
  · rw [toLower_of_not_ascii (Nat.le_of_not_lt ascii)]

theorem toLower_eq_brace {c : Char} :
    (c.toLower = '\x7b' ↔ c = '\x7b') ∧ (c.toLower = '\x7d' ↔ c = '\x7d') := by
  by_cases ascii : c.toNat < 128
  · exact @forall_of_ascii (fun c => (c.toLower = '\x7b' ↔ c = '\x7b') ∧
      (c.toLower = '\x7d' ↔ c = '\x7d')) (by decide +kernel) c ascii
  · rw [toLower_of_not_ascii (Nat.le_of_not_lt ascii)]
    exact ⟨.rfl, .rfl⟩

theorem toLower_of_isBlank {c : Char} (blank : isBlank c = true) : c.toLower = c := by
  by_cases ascii : c.toNat < 128
  · exact @forall_of_ascii (fun c => isBlank c = true → c.toLower = c) (by decide +kernel) c ascii blank
  · exact toLower_of_not_ascii (Nat.le_of_not_lt ascii)

/-- A reader of digits is known from the table of ASCII, if it reads nothing else. -/
theorem digit_iff_of_table {read : Char → Option Nat} {plain : Char → Char} {symbol : Nat → Char}
    {base : Nat}
    (table : ∀ n < 128, (∀ value ∈ read (Char.ofNat n), value < base) ∧
      ∀ value < base, read (Char.ofNat n) = some value ↔ plain (Char.ofNat n) = symbol value)
    (visible : ∀ value < base, (symbol value).toNat < 128)
    (beyond : ∀ c, 128 ≤ c.toNat → read c = none ∧ plain c = c) {c : Char} {digit : Nat} :
    read c = some digit ↔ digit < base ∧ plain c = symbol digit := by
  by_cases ascii : c.toNat < 128
  · obtain ⟨small, same⟩ := @forall_of_ascii (fun c => (∀ value ∈ read c, value < base) ∧
      ∀ value < base, read c = some value ↔ plain c = symbol value) table c ascii
    constructor
    · intro found
      exact ⟨small digit found, (same digit (small digit found)).mp found⟩
    · intro written
      exact (same digit written.1).mpr written.2
  · obtain ⟨unread, kept⟩ := beyond c (Nat.le_of_not_lt ascii)
    rw [unread, kept]
    constructor
    · intro found
      cases found
    · intro written
      obtain ⟨small, rfl⟩ := written
      exact absurd (visible digit small) ascii

/-- A digit of either case is read as the value of the lowercase one. -/
theorem hexDigit?_eq_some {c : Char} {digit : Nat} :
    hexDigit? c = some digit ↔ digit < 16 ∧ c.toLower = hexDigit digit := by
  refine digit_iff_of_table (by decide +kernel) (by decide) fun c beyond => ?_
  have outside {first last : Char} := @not_between_of_not_ascii c first last beyond
  rw [hexDigit?, if_neg (outside (by decide)), if_neg (outside (by decide)),
    if_neg (outside (by decide))]
  exact ⟨rfl, toLower_of_not_ascii beyond⟩

/-- A decimal digit is read as its value. -/
theorem digit?_eq_some {c : Char} {digit : Nat} :
    digit? c = some digit ↔ digit < 10 ∧ c = Nat.digitChar digit := by
  refine @digit_iff_of_table digit? id Nat.digitChar 10 (by decide +kernel) (by decide)
    (fun c beyond => ?_) c digit
  rw [digit?, if_neg (not_between_of_not_ascii beyond (by decide))]
  exact ⟨rfl, rfl⟩

end PartnerSearch.Text
