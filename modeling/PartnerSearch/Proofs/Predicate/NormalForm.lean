import PartnerSearch.Proofs.Predicate.Fold

set_option autoImplicit false

/-!
Predicates in normal form: nothing in them always holds, a group has two items or more, and a set has
a value. Folding keeps that, and with it all conditions of the items that it keeps.
-/

namespace PartnerSearch.Predicate

/-- Nothing to simplify is left. -/
inductive Normal : Predicate → Prop
  | column {path : ColumnPath} {condition : Condition} (some_value : condition ≠ .within []) :
      Normal (.column path condition)
  | related {path : RelationPath} {present : Bool} : Normal (.related path present)
  | group {connective : Connective} {items : List Predicate} (several : 2 ≤ items.length)
      (each : ∀ item ∈ items, Normal item) : Normal (.group connective items)

theorem Normal.isAlways {predicate : Predicate} (normal : predicate.Normal) :
    predicate.isAlways = false := by
  cases normal <;> rfl

theorem normal_ofItems (connective : Connective) {items : List Predicate} (nonempty : items ≠ [])
    (each : ∀ item ∈ items, item.Normal) : (ofItems connective items).Normal := by
  match items with
  | [] => exact absurd rfl nonempty
  | [item] => exact each item (List.mem_singleton_self item)
  | first :: second :: rest => exact .group (by simp) each

/-- A folded predicate always holds, or it is normal if the items are that do not always hold. -/
theorem normal_fold (connective : Connective) {items : List Predicate}
    (each : ∀ item ∈ items, item.isAlways = false → item.Normal)
    (proper : (fold connective items).isAlways = false) : (fold connective items).Normal := by
  have nonempty {connective : Connective} {items : List Predicate}
      (proper : (ofItems connective items).isAlways = false) : items ≠ [] := by
    rintro rfl
    cases proper
  cases connective with
  | all =>
      rw [fold] at proper ⊢
      refine normal_ofItems .all (nonempty proper) fun item member => ?_
      obtain ⟨inside, kept⟩ := List.mem_filter.mp member
      exact each item inside (by simpa using kept)
  | any =>
      rw [fold] at proper ⊢
      split at proper
      · cases proper
      · rename_i none_always
        rw [if_neg none_always]
        refine normal_ofItems .any (nonempty proper) fun item member => each item member ?_
        simpa using fun always => none_always (List.any_eq_true.mpr ⟨item, member, always⟩)

mutual

/-- The conditions of a predicate, each as a predicate of its own, from left to right. -/
def conditions : Predicate → List Predicate
  | .always => []
  | .column path condition => [.column path condition]
  | .related path present => [.related path present]
  | .group _ items => listConditions items

def listConditions : List Predicate → List Predicate
  | [] => []
  | item :: rest => item.conditions ++ listConditions rest

end

theorem listConditions_eq_flatMap (items : List Predicate) :
    listConditions items = items.flatMap conditions := by
  induction items with
  | nil => rfl
  | cons item rest ih => rw [listConditions, ih, List.flatMap_cons]

theorem conditions_of_isAlways {item : Predicate} (always : item.isAlways = true) :
    item.conditions = [] := by
  rw [eq_always_of_isAlways always, conditions]

theorem conditionCount_eq_length (predicate : Predicate) :
    predicate.conditionCount = predicate.conditions.length := by
  induction predicate with
  | always => rfl
  | column path condition => rfl
  | related path present => rfl
  | group connective items ih =>
      rw [conditionCount, conditions]
      clear connective
      induction items with
      | nil => rfl
      | cons item rest later =>
          obtain ⟨first, others⟩ := List.forall_mem_cons.mp ih
          rw [listConditionCount, listConditions, List.length_append, first, later others]

theorem conditions_ofItems (connective : Connective) (items : List Predicate) :
    (ofItems connective items).conditions = listConditions items := by
  match items with
  | [] => rfl
  | [item] => simp [ofItems, listConditions]
  | first :: second :: rest => rfl

/-- A conjunction loses no condition: items that always hold have none. -/
theorem conditions_fold_all (items : List Predicate) :
    (fold .all items).conditions = listConditions items := by
  rw [fold, conditions_ofItems]
  induction items with
  | nil => rfl
  | cons item rest ih =>
      cases always : item.isAlways with
      | false =>
          rw [List.filter_cons_of_pos (by simp [always]), listConditions, listConditions, ih]
      | true =>
          rw [List.filter_cons_of_neg (by simp [always]), listConditions, ih,
            conditions_of_isAlways always]
          rfl

/-- A disjunction loses its conditions if it always holds, and otherwise none. -/
theorem conditions_fold_any (items : List Predicate) :
    (fold .any items).conditions = if items.any isAlways then [] else listConditions items := by
  rw [fold]
  split
  · rfl
  · exact conditions_ofItems .any items

theorem conditions_fold (connective : Connective) (items : List Predicate) :
    (fold connective items).conditions =
      if (fold connective items).isAlways then [] else listConditions items := by
  split
  · rename_i always
    exact conditions_of_isAlways always
  · rename_i proper
    cases connective with
    | all => exact conditions_fold_all items
    | any =>
        rw [isAlways_fold_any, Bool.or_eq_true, not_or] at proper
        rw [conditions_fold_any, if_neg proper.2]

end PartnerSearch.Predicate
