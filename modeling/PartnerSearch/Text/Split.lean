set_option autoImplicit false

/-! Characters or bytes cut at a separator. -/

namespace PartnerSearch.Text

variable {α : Type} [DecidableEq α]

/-- The parts between separators, in order; there is one part more than separators. -/
def splitOn (separator : α) : List α → List (List α)
  | [] => [[]]
  | item :: rest =>
    if item = separator then [] :: splitOn separator rest
    else
      match splitOn separator rest with
      | [] => [[item]]
      | part :: parts => (item :: part) :: parts

theorem length_splitOn (separator : α) (items : List α) :
    (splitOn separator items).length = items.count separator + 1 := by
  induction items with
  | nil => rfl
  | cons item rest ih =>
    by_cases same : item = separator
    · simp [splitOn, same, ih]
    · simp only [splitOn, same, if_false]
      split
      · next empty => simp [empty] at ih
      · next part parts shape => simp [shape] at ih ⊢; simp [ih, same]

theorem splitOn_ne_nil (separator : α) (items : List α) : splitOn separator items ≠ [] := by
  intro empty
  simpa [empty] using length_splitOn separator items

theorem splitOn_of_not_mem {separator : α} {items : List α} (free : separator ∉ items) :
    splitOn separator items = [items] := by
  induction items with
  | nil => rfl
  | cons item rest ih =>
    rw [List.mem_cons, not_or] at free
    rw [splitOn, if_neg (Ne.symm free.1), ih free.2]

theorem splitOn_append {separator : α} {items : List α} (free : separator ∉ items)
    (rest : List α) :
    splitOn separator (items ++ separator :: rest) = items :: splitOn separator rest := by
  induction items with
  | nil => rw [List.nil_append, splitOn, if_pos rfl]
  | cons item others ih =>
    rw [List.mem_cons, not_or] at free
    rw [List.cons_append, splitOn, if_neg (Ne.symm free.1), ih free.2]

omit [DecidableEq α] in
theorem mem_of_mem_intercalate {separator item : α} {parts : List (List α)}
    (member : item ∈ List.intercalate [separator] parts) :
    item = separator ∨ ∃ part ∈ parts, item ∈ part := by
  induction parts with
  | nil => cases member
  | cons part rest ih =>
    cases rest with
    | nil => exact .inr ⟨part, List.mem_singleton_self part, by simpa using member⟩
    | cons next others =>
      rw [List.intercalate_cons_cons, List.mem_append, List.mem_append] at member
      rcases member with (first | between) | later
      · exact .inr ⟨part, List.mem_cons_self, first⟩
      · exact .inl (List.mem_singleton.mp between)
      · rcases ih later with same | ⟨other, inside, found⟩
        · exact .inl same
        · exact .inr ⟨other, List.mem_cons_of_mem part inside, found⟩

/-- What is put together with separators is cut where they stand. -/
theorem splitOn_intercalate {separator : α} {parts : List (List α)} (some_part : parts ≠ [])
    (free : ∀ part ∈ parts, separator ∉ part) :
    splitOn separator (List.intercalate [separator] parts) = parts := by
  induction parts with
  | nil => exact absurd rfl some_part
  | cons part rest ih =>
    have first := free part List.mem_cons_self
    cases rest with
    | nil => rw [List.intercalate_singleton, splitOn_of_not_mem first]
    | cons next others =>
      have later := ih (List.cons_ne_nil next others)
        fun other member => free other (List.mem_cons_of_mem part member)
      rw [List.intercalate_cons_cons, List.append_assoc, List.singleton_append,
        splitOn_append first, later]

/-- The parts, put together again. -/
theorem intercalate_splitOn (separator : α) (items : List α) :
    List.intercalate [separator] (splitOn separator items) = items := by
  induction items with
  | nil => rfl
  | cons item rest ih =>
    have some_part := splitOn_ne_nil separator rest
    rw [splitOn]
    split
    · next same =>
      cases shape : splitOn separator rest with
      | nil => exact absurd shape some_part
      | cons part parts =>
        rw [shape] at ih
        rw [List.intercalate_cons_cons, ih, same]
        rfl
    · cases shape : splitOn separator rest with
      | nil => exact absurd shape some_part
      | cons part parts =>
        rw [shape] at ih
        dsimp only
        rw [← ih]
        cases parts with
        | nil => simp
        | cons next others => simp [List.intercalate_cons_cons]

theorem not_mem_of_mem_splitOn {separator : α} {items part : List α}
    (member : part ∈ splitOn separator items) : separator ∉ part := by
  induction items generalizing part with
  | nil =>
    rw [List.mem_singleton.mp member]
    exact List.not_mem_nil
  | cons item rest ih =>
    rw [splitOn] at member
    split at member
    · rcases List.mem_cons.mp member with rfl | later
      · exact List.not_mem_nil
      · exact ih later
    · next differs =>
      split at member
      · next empty => exact absurd empty (splitOn_ne_nil separator rest)
      · next first parts shape =>
        rcases List.mem_cons.mp member with rfl | later
        · rw [List.mem_cons, not_or]
          exact ⟨Ne.symm differs, ih (by rw [shape]; exact List.mem_cons_self)⟩
        · exact ih (by rw [shape]; exact List.mem_cons_of_mem first later)

/-- What stands before the first separator, and what stands after it if there is one. -/
def cutAt (separator : α) : List α → List α × Option (List α)
  | [] => ([], none)
  | item :: rest =>
    if item = separator then ([], some rest)
    else
      let (before, after) := cutAt separator rest
      (item :: before, after)

def split (separator : Char) (text : String) : List String :=
  (splitOn separator text.toList).map String.ofList

/-- The parts of a text are the texts without the separator that make it up with separators. -/
theorem split_eq_iff {separator : Char} {text : String} {parts : List String} :
    split separator text = parts ↔
      parts ≠ [] ∧ text = String.intercalate (String.singleton separator) parts ∧
        ∀ part ∈ parts, separator ∉ part.toList := by
  constructor
  · rintro rfl
    refine ⟨?_, ?_, ?_⟩
    · intro none
      exact splitOn_ne_nil separator text.toList (List.map_eq_nil_iff.mp none)
    · apply String.toList_inj.mp
      have chars : ((splitOn separator text.toList).map String.ofList).map String.toList =
          splitOn separator text.toList := by simp
      rw [String.toList_intercalate, split, chars, String.toList_singleton, intercalate_splitOn]
    · intro part member
      obtain ⟨chars, inside, rfl⟩ := List.mem_map.mp member
      rw [String.toList_ofList]
      exact not_mem_of_mem_splitOn inside
  · rintro ⟨some_part, rfl, free⟩
    have apart : splitOn separator (List.intercalate [separator] (parts.map String.toList)) =
        parts.map String.toList := by
      apply splitOn_intercalate
      · intro none
        exact some_part (List.map_eq_nil_iff.mp none)
      · intro chars member
        obtain ⟨part, inside, rfl⟩ := List.mem_map.mp member
        exact free part inside
    rw [split, String.toList_intercalate, String.toList_singleton, apart]
    simp

end PartnerSearch.Text
