import Mathlib.Data.List.Basic
import PartnerSearch.Json.Value

set_option autoImplicit false

/-!
The members of an object as they are written, and the object that they give: every name stands where it
stood first, with the value that it had last.
-/

namespace PartnerSearch.Json

/-- Members put into an object one after another. -/
def collapse (done members : List (String × Json)) : List (String × Json) :=
  members.foldl (fun done (name, value) => insertMember name value done) done

theorem ofMembers_eq (members : List (String × Json)) :
    ofMembers members = .object (collapse [] members) := rfl

theorem collapse_next (done : List (String × Json)) (name : String) (value : Json)
    (members : List (String × Json)) :
    collapse done ((name, value) :: members) = collapse (insertMember name value done) members := rfl

/-- Members with other names than this one. -/
def others (name : String) (members : List (String × Json)) : List (String × Json) :=
  members.filter fun member => member.1 ≠ name

theorem others_cons_same (name : String) (value : Json) (members : List (String × Json)) :
    others name ((name, value) :: members) = others name members := by
  simp [others]

theorem others_cons_ne {name other : String} (differ : other ≠ name) (value : Json)
    (members : List (String × Json)) :
    others name ((other, value) :: members) = (other, value) :: others name members := by
  simp [others, differ]

theorem others_comm (name other : String) (members : List (String × Json)) :
    others name (others other members) = others other (others name members) :=
  List.filter_comm _ _ _

theorem length_others_le (name : String) (members : List (String × Json)) :
    (others name members).length ≤ members.length :=
  List.length_filter_le _ _

theorem others_of_absent {name : String} {members : List (String × Json)}
    (absent : name ∉ members.map Prod.fst) : others name members = members := by
  apply List.filter_eq_self.mpr
  intro member within
  have differ : member.1 ≠ name := by
    rintro rfl
    exact absent (List.mem_map_of_mem within)
  simpa using differ

theorem absent_others (name : String) (members : List (String × Json)) :
    name ∉ (others name members).map Prod.fst := by
  intro within
  obtain ⟨member, kept, equal⟩ := List.mem_map.mp within
  have differ := (List.mem_filter.mp kept).2
  simp [equal] at differ

/-- The last value under a name, or the value given if there is none. -/
def lastValue (name : String) (value : Json) : List (String × Json) → Json
  | [] => value
  | (other, found) :: members => lastValue name (if other = name then found else value) members

theorem lastValue_of_absent {name : String} {members : List (String × Json)} (value : Json)
    (absent : name ∉ members.map Prod.fst) : lastValue name value members = value := by
  induction members with
  | nil => rfl
  | cons member members ih =>
      obtain ⟨other, found⟩ := member
      rw [List.map_cons, List.mem_cons, not_or] at absent
      have differ : other ≠ name := fun same => absent.1 same.symm
      rw [lastValue, if_neg differ]
      exact ih absent.2

theorem lastValue_others {name other : String} (differ : name ≠ other) (value : Json)
    (members : List (String × Json)) :
    lastValue name value (others other members) = lastValue name value members := by
  induction members generalizing value with
  | nil => rfl
  | cons member members ih =>
      obtain ⟨next, found⟩ := member
      by_cases same : next = other
      · subst same
        have notName : next ≠ name := fun equal => differ equal.symm
        rw [others_cons_same, ih, lastValue, if_neg notName]
      · rw [others_cons_ne same, lastValue, lastValue, ih]

/-- A name in front stays there, with its last value; the rest goes on without it. -/
theorem collapse_cons (name : String) (value : Json) (done members : List (String × Json)) :
    collapse ((name, value) :: done) members =
      (name, lastValue name value members) :: collapse done (others name members) := by
  induction members generalizing value done with
  | nil => rfl
  | cons member members ih =>
      obtain ⟨other, found⟩ := member
      rw [collapse_next, insertMember, lastValue]
      by_cases same : name = other
      · subst same
        rw [if_pos rfl, if_pos rfl, ih, others_cons_same]
      · have differ : other ≠ name := fun equal => same equal.symm
        rw [if_neg same, if_neg differ, ih, others_cons_ne differ, collapse_next]

theorem collapse_nil_cons (name : String) (value : Json) (members : List (String × Json)) :
    collapse [] ((name, value) :: members) =
      (name, lastValue name value members) :: collapse [] (others name members) :=
  collapse_cons name value [] members

theorem collapse_of_nodup {members : List (String × Json)}
    (distinct : (members.map Prod.fst).Nodup) : collapse [] members = members := by
  induction members with
  | nil => rfl
  | cons member members ih =>
      obtain ⟨name, value⟩ := member
      obtain ⟨absent, later⟩ := List.nodup_cons.mp distinct
      rw [collapse_nil_cons, lastValue_of_absent value absent, others_of_absent absent, ih later]

/-- The members with one value under a name: the last one, in the place of the first. -/
def keepLast (name : String) : List (String × Json) → List (String × Json)
  | [] => []
  | (other, value) :: members =>
    if other = name then (name, lastValue name value members) :: others name members
    else (other, value) :: keepLast name members

theorem lastValue_keepLast {name other : String} (differ : name ≠ other) (value : Json)
    (members : List (String × Json)) :
    lastValue name value (keepLast other members) = lastValue name value members := by
  induction members generalizing value with
  | nil => rfl
  | cons member members ih =>
      obtain ⟨next, found⟩ := member
      by_cases same : next = other
      · subst same
        have notName : next ≠ name := fun equal => differ equal.symm
        rw [keepLast, if_pos rfl, lastValue, if_neg notName, lastValue_others differ, lastValue,
          if_neg notName]
      · rw [keepLast, if_neg same, lastValue, lastValue, ih]

theorem others_keepLast {name other : String} (differ : name ≠ other)
    (members : List (String × Json)) :
    others name (keepLast other members) = keepLast other (others name members) := by
  induction members with
  | nil => rfl
  | cons member members ih =>
      obtain ⟨next, found⟩ := member
      by_cases same : next = other
      · subst same
        have notName : next ≠ name := fun equal => differ equal.symm
        rw [keepLast, if_pos rfl, others_cons_ne notName, others_cons_ne notName, keepLast,
          if_pos rfl, lastValue_others notName, others_comm]
      · by_cases named : next = name
        · subst named
          rw [keepLast, if_neg same, others_cons_same, others_cons_same, ih]
        · rw [keepLast, if_neg same, others_cons_ne named, others_cons_ne named, keepLast,
            if_neg same, ih]

/-- Only the last value under a name counts. -/
theorem collapse_keepLast (name : String) (members : List (String × Json)) :
    collapse [] (keepLast name members) = collapse [] members := by
  induction size : members.length using Nat.strongRecOn generalizing members with
  | ind size ih =>
    cases members with
    | nil => rfl
    | cons member members =>
        obtain ⟨other, value⟩ := member
        by_cases same : other = name
        · subst same
          have absent := absent_others other members
          rw [keepLast, if_pos rfl, collapse_nil_cons, collapse_nil_cons,
            lastValue_of_absent _ absent, others_of_absent absent]
        · have bound := length_others_le other members
          rw [List.length_cons] at size
          rw [keepLast, if_neg same, collapse_nil_cons, collapse_nil_cons,
            lastValue_keepLast same, others_keepLast same,
            ih (others other members).length (by omega) (others other members) rfl]

theorem mem_names_keepLast {name : String} {members : List (String × Json)}
    (present : name ∈ members.map Prod.fst) : name ∈ (keepLast name members).map Prod.fst := by
  induction members with
  | nil => exact present
  | cons member members ih =>
      obtain ⟨other, value⟩ := member
      by_cases same : other = name
      · rw [keepLast, if_pos same]
        exact List.mem_cons_self
      · have later : name ∈ members.map Prod.fst := by
          rcases List.mem_cons.mp present with first | later
          · exact absurd first.symm same
          · exact later
        rw [keepLast, if_neg same]
        exact List.mem_cons_of_mem _ (ih later)

section Kept

variable (kept : Json → Prop)

theorem forall_insertMember {name : String} {value : Json} {members : List (String × Json)}
    (first : kept value) (each : ∀ member ∈ members, kept member.2) :
    ∀ member ∈ insertMember name value members, kept member.2 := by
  induction members with
  | nil =>
      rw [insertMember, List.forall_mem_singleton]
      exact first
  | cons member members ih =>
      obtain ⟨other, old⟩ := member
      obtain ⟨here, later⟩ := List.forall_mem_cons.mp each
      rw [insertMember]
      by_cases same : other = name
      · rw [if_pos same, List.forall_mem_cons]
        exact ⟨first, later⟩
      · rw [if_neg same, List.forall_mem_cons]
        exact ⟨here, ih later⟩

/-- An object holds no value that its members do not have. -/
theorem forall_collapse {done members : List (String × Json)}
    (before : ∀ member ∈ done, kept member.2) (each : ∀ member ∈ members, kept member.2) :
    ∀ member ∈ collapse done members, kept member.2 := by
  induction members generalizing done with
  | nil => exact before
  | cons member members ih =>
      obtain ⟨here, later⟩ := List.forall_mem_cons.mp each
      exact ih (forall_insertMember kept here before) later

end Kept

end PartnerSearch.Json
