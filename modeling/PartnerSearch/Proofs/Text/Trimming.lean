import PartnerSearch.Text.Blank

set_option autoImplicit false

/-! Blanks around a text whose first and last characters are not blank: trimming takes them off and
nothing else. What is trimmed has such ends, so trimming it again changes nothing. -/

namespace PartnerSearch.Text

/-- The text neither begins nor ends with a blank. -/
structure SolidEnds (chars : List Char) : Prop where
  first : ∀ c ∈ chars.head?, isBlank c = false
  last : ∀ c ∈ chars.getLast?, isBlank c = false

theorem solidEnds_of_forall {chars : List Char} (solid : ∀ c ∈ chars, isBlank c = false) :
    SolidEnds chars :=
  ⟨fun c first => solid c (List.mem_of_mem_head? first),
    fun c last => solid c (List.mem_of_mem_getLast? last)⟩

theorem dropWhile_blanks {blanks chars : List Char} (blank : ∀ c ∈ blanks, isBlank c = true)
    (first : ∀ c ∈ chars.head?, isBlank c = false) :
    (blanks ++ chars).dropWhile isBlank = chars := by
  rw [List.dropWhile_append_of_pos blank]
  cases chars with
  | nil => rfl
  | cons c rest =>
      have solid := first c rfl
      rw [List.dropWhile_cons_of_neg (by simp [solid])]

theorem trimChars_padded {before chars after : List Char} (solid : SolidEnds chars)
    (blankBefore : ∀ c ∈ before, isBlank c = true) (blankAfter : ∀ c ∈ after, isBlank c = true) :
    trimChars (before ++ chars ++ after) = chars := by
  cases chars with
  | nil =>
      rw [List.append_nil, trimChars_eq_nil_iff, List.all_append, Bool.and_eq_true]
      exact ⟨List.all_eq_true.mpr blankBefore, List.all_eq_true.mpr blankAfter⟩
  | cons c rest =>
      have front : (before ++ (c :: rest ++ after)).dropWhile isBlank = c :: rest ++ after :=
        dropWhile_blanks blankBefore solid.first
      have back : (after.reverse ++ (c :: rest).reverse).dropWhile isBlank = (c :: rest).reverse := by
        refine dropWhile_blanks (fun d member => blankAfter d (List.mem_reverse.mp member)) ?_
        rw [List.head?_reverse]
        exact solid.last
      rw [List.append_assoc, trimChars, front, List.reverse_append, back, List.reverse_reverse]

theorem trimChars_eq_self {chars : List Char} (solid : SolidEnds chars) : trimChars chars = chars := by
  have padded := @trimChars_padded [] chars [] solid nofun nofun
  rwa [List.nil_append, List.append_nil] at padded

theorem trim_padded {text : String} {before after : List Char} (solid : SolidEnds text.toList)
    (blankBefore : ∀ c ∈ before, isBlank c = true) (blankAfter : ∀ c ∈ after, isBlank c = true) :
    trim (String.ofList (before ++ text.toList ++ after)) = text := by
  rw [trim, String.toList_ofList, trimChars_padded solid blankBefore blankAfter, String.ofList_toList]

theorem trim_eq_self {text : String} (solid : SolidEnds text.toList) : trim text = text := by
  rw [trim, trimChars_eq_self solid, String.ofList_toList]

theorem solidEnds_trimChars (chars : List Char) : SolidEnds (trimChars chars) := by
  have kept : trimChars chars <+: chars.dropWhile isBlank := by
    have suffix := List.dropWhile_suffix isBlank (l := (chars.dropWhile isBlank).reverse)
    rw [← List.reverse_prefix, List.reverse_reverse] at suffix
    exact suffix
  constructor
  · intro c first
    obtain ⟨rest, whole⟩ := kept
    have front : (chars.dropWhile isBlank).head? = some c := by
      rw [← whole, List.head?_append, Option.mem_def.mp first]
      rfl
    have solid := List.head?_dropWhile_not isBlank chars
    rw [front] at solid
    simpa using solid
  · intro c last
    unfold trimChars at last
    rw [List.getLast?_reverse] at last
    have solid := List.head?_dropWhile_not isBlank (chars.dropWhile isBlank).reverse
    rw [Option.mem_def.mp last] at solid
    simpa using solid

/-- What trimming takes off is blank. -/
theorem exists_padding (chars : List Char) :
    ∃ before after, chars = before ++ trimChars chars ++ after ∧
      (∀ c ∈ before, isBlank c = true) ∧ ∀ c ∈ after, isBlank c = true := by
  have front := List.takeWhile_append_dropWhile (p := isBlank) (l := chars)
  have back := congrArg List.reverse
    (List.takeWhile_append_dropWhile (p := isBlank) (l := (chars.dropWhile isBlank).reverse))
  rw [List.reverse_append, List.reverse_reverse] at back
  refine ⟨_, _, (front.symm.trans (congrArg _ back.symm)).trans (List.append_assoc ..).symm, ?_, ?_⟩
  · intro c member
    exact List.all_eq_true.mp List.all_takeWhile c member
  · intro c member
    exact List.all_eq_true.mp List.all_takeWhile c (List.mem_reverse.mp member)

theorem trim_trim (text : String) : trim (trim text) = trim text := by
  apply trim_eq_self
  rw [toList_trim]
  exact solidEnds_trimChars text.toList

theorem trim_eq_empty_iff (text : String) : trim text = "" ↔ isBlankText text = true := by
  rw [isBlankText, ← trimChars_eq_nil_iff, ← toList_trim, String.toList_eq_nil_iff]

end PartnerSearch.Text
