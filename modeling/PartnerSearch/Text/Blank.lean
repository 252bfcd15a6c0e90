set_option autoImplicit false

/-! Blank characters and trimming. -/

namespace PartnerSearch.Text

/-- The characters with the Unicode property White_Space. -/
def isBlank (c : Char) : Bool :=
  let n := c.toNat
  (0x9 ≤ n && n ≤ 0xD) || n == 0x20 || n == 0x85 || n == 0xA0 || n == 0x1680 ||
    (0x2000 ≤ n && n ≤ 0x200A) || n == 0x2028 || n == 0x2029 || n == 0x202F ||
    n == 0x205F || n == 0x3000

/-- Drops the blanks at both ends. -/
def trimChars (chars : List Char) : List Char :=
  ((chars.dropWhile isBlank).reverse.dropWhile isBlank).reverse

def trim (text : String) : String :=
  String.ofList (trimChars text.toList)

/-- Nothing but blanks, or nothing at all. -/
def isBlankText (text : String) : Bool := text.toList.all isBlank

@[simp] theorem trimChars_nil : trimChars [] = [] := rfl

theorem trimChars_eq_nil_iff (chars : List Char) : trimChars chars = [] ↔ chars.all isBlank = true := by
  have dropped (items : List Char) : items.dropWhile isBlank = [] ↔ items.all isBlank = true := by
    induction items with
    | nil => simp
    | cons c rest ih => cases blank : isBlank c <;> simp [List.dropWhile, blank, ih]
  unfold trimChars
  rw [List.reverse_eq_nil_iff, dropped, List.all_reverse]
  constructor
  · intro all
    rw [← dropped]
    cases shape : chars.dropWhile isBlank with
    | nil => rfl
    | cons c rest =>
      have first := List.head?_dropWhile_not isBlank chars
      simp_all
  · intro all
    rw [(dropped chars).mpr all]
    rfl

theorem toList_trim (text : String) : (trim text).toList = trimChars text.toList :=
  String.toList_ofList

end PartnerSearch.Text
