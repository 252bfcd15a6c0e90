import PartnerSearch.Text.Blank
import PartnerSearch.Uuid

set_option autoImplicit false

/-!
The canonical text of a UUID. It has 36 characters in hyphenated groups, none of them blank and all of
them in lowercase.
-/

namespace PartnerSearch

namespace Uuid

open Text (hexDigit splitOn)

@[simp] theorem length_digits (uuid : Uuid) : uuid.digits.length = 32 := by
  rw [digits, List.length_map, List.length_range]

theorem sum_groups (uuid : Uuid) : groups.foldr (· + ·) 0 = uuid.digits.length :=
  (length_digits uuid).symm

theorem exists_of_mem_digits {uuid : Uuid} {c : Char} (member : c ∈ uuid.digits) :
    ∃ n < 16, c = hexDigit n := by
  obtain ⟨place, -, rfl⟩ := List.mem_map.mp member
  exact ⟨_, Nat.mod_lt _ (by decide), rfl⟩

theorem map_length_cut {sizes : List Nat} {text : List Char}
    (enough : sizes.foldr (· + ·) 0 ≤ text.length) :
    (cut sizes text).map List.length = sizes := by
  induction sizes generalizing text with
  | nil => rfl
  | cons size sizes ih =>
      rw [List.foldr_cons] at enough
      rw [cut, List.map_cons, List.length_take, Nat.min_eq_left (by omega), ih]
      rw [List.length_drop]
      omega

theorem flatten_cut {sizes : List Nat} {text : List Char}
    (whole : sizes.foldr (· + ·) 0 = text.length) : (cut sizes text).flatten = text := by
  induction sizes generalizing text with
  | nil =>
      rw [List.foldr_nil] at whole
      rw [List.eq_nil_of_length_eq_zero whole.symm]
      rfl
  | cons size sizes ih =>
      rw [List.foldr_cons] at whole
      rw [cut, List.flatten_cons, ih, List.take_append_drop]
      rw [List.length_drop]
      omega

theorem mem_of_mem_cut {sizes : List Nat} {text part : List Char} {c : Char}
    (member : part ∈ cut sizes text) (inside : c ∈ part) : c ∈ text := by
  induction sizes generalizing text with
  | nil => cases member
  | cons size sizes ih =>
      rcases List.mem_cons.mp member with rfl | later
      · exact List.mem_of_mem_take inside
      · exact List.mem_of_mem_drop (ih later)

theorem splitOn_chars (uuid : Uuid) : splitOn '-' uuid.chars = cut groups uuid.digits := by
  apply Text.splitOn_intercalate
  · simp [groups, cut]
  · intro part member hyphen
    obtain ⟨n, small, same⟩ := exists_of_mem_digits (mem_of_mem_cut member hyphen)
    revert n
    decide

/-- The canonical text is hyphenated in the groups of the digits. -/
theorem split_text (uuid : Uuid) : (Text.split '-' uuid.text).map String.length = groups := by
  rw [Text.split, text, String.toList_ofList, splitOn_chars, List.map_map]
  simp only [Function.comp_def, String.length_ofList]
  exact map_length_cut (Nat.le_of_eq uuid.sum_groups)

theorem length_chars (uuid : Uuid) : uuid.chars.length = 36 := by
  simp [chars, cut, groups, List.intercalate_cons_cons, List.length_take, List.length_drop]

theorem hyphen_or_digit_of_mem_chars {uuid : Uuid} {c : Char} (member : c ∈ uuid.chars) :
    c = '-' ∨ ∃ n < 16, c = hexDigit n := by
  rcases Text.mem_of_mem_intercalate member with same | ⟨part, cut, inside⟩
  · exact .inl same
  · exact .inr (exists_of_mem_digits (mem_of_mem_cut cut inside))

theorem not_isBlank_of_mem_chars {uuid : Uuid} {c : Char} (member : c ∈ uuid.chars) :
    Text.isBlank c = false := by
  rcases hyphen_or_digit_of_mem_chars member with rfl | ⟨n, small, rfl⟩
  · decide
  · clear member
    revert n
    decide

theorem toLower_chars (uuid : Uuid) : uuid.chars.map Char.toLower = uuid.chars := by
  refine (List.map_congr_left fun c member => ?_).trans (List.map_id uuid.chars)
  rcases hyphen_or_digit_of_mem_chars member with rfl | ⟨n, small, rfl⟩
  · decide
  · clear member
    revert n
    decide

end Uuid

end PartnerSearch
