import PartnerSearch.Predicate

set_option autoImplicit false

/-! What folding predicates leaves: when the result always holds, and what becomes of the items. -/

namespace PartnerSearch.Predicate

theorem fold_singleton (connective : Connective) (item : Predicate) :
    fold connective [item] = item := by
  cases connective <;> cases item <;> rfl

theorem eq_always_of_isAlways {item : Predicate} (always : item.isAlways = true) :
    item = .always := by
  cases item with
  | always => rfl
  | column path condition => cases always
  | related path wanted => cases always
  | group connective items => cases always

/-- Without items that always hold, only the empty list folds to one. -/
theorem isAlways_ofItems (connective : Connective) {items : List Predicate}
    (proper : ∀ item ∈ items, item.isAlways = false) :
    (ofItems connective items).isAlways = items.isEmpty := by
  match items with
  | [] => rfl
  | [item] => exact proper item (List.mem_singleton_self item)
  | first :: second :: rest => rfl

theorem isAlways_fold_all (items : List Predicate) :
    (fold .all items).isAlways = items.all isAlways := by
  rw [fold, isAlways_ofItems]
  · rw [Bool.eq_iff_iff, List.isEmpty_iff, List.filter_eq_nil_iff, List.all_eq_true]
    simp
  · intro item member
    simpa using (List.mem_filter.mp member).2

theorem isAlways_fold_any (items : List Predicate) :
    (fold .any items).isAlways = (items.isEmpty || items.any isAlways) := by
  rw [fold]
  split
  · rename_i some_always
    rw [some_always, Bool.or_true]
    rfl
  · rename_i proper
    rw [isAlways_ofItems]
    · rw [Bool.not_eq_true] at proper
      rw [proper, Bool.or_false]
    · simpa using proper

end PartnerSearch.Predicate
