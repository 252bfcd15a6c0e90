import Mathlib.Data.List.Basic
import PartnerSearch.Proofs.Predicate.NormalForm
import PartnerSearch.Sql.Fragment

set_option autoImplicit false

/-!
The binds of a fragment: the values of its conditions in the order of the text, each condition
contributing its own.
-/

namespace PartnerSearch

open Sql

/-- The values that stand for the placeholders of a condition. -/
def Condition.values : Condition → List Value
  | .compare _ value => [value]
  | .within values => values
  | .contains needle => [.text (Pattern.containing needle)]
  | .set => []
  | .notSet => []
  | .between low high => [low, high]

namespace Predicate

mutual

def values : Predicate → List Value
  | .always => []
  | .column _ condition => condition.values
  | .related _ _ => []
  | .group _ items => listValues items

def listValues : List Predicate → List Value
  | [] => []
  | item :: rest => item.values ++ listValues rest

end

theorem listValues_eq_flatMap (items : List Predicate) :
    listValues items = items.flatMap values := by
  induction items with
  | nil => rfl
  | cons item rest ih => rw [listValues, ih, List.flatMap_cons]

theorem values_eq_flatMap (predicate : Predicate) :
    predicate.values = predicate.conditions.flatMap values := by
  induction predicate with
  | always => rfl
  | column path condition => exact (List.append_nil condition.values).symm
  | related path wanted => rfl
  | group connective items ih =>
      rw [values, conditions, listValues_eq_flatMap, listConditions_eq_flatMap, List.flatMap_assoc]
      exact List.flatMap_congr ih

theorem listValues_eq_flatMap_conditions (items : List Predicate) :
    listValues items = (listConditions items).flatMap values :=
  values_eq_flatMap (.group .all items)

theorem values_fold_all (items : List Predicate) :
    (fold .all items).values = listValues items := by
  rw [values_eq_flatMap, conditions_fold_all, listValues_eq_flatMap_conditions]

theorem values_fold_any (items : List Predicate) :
    (fold .any items).values = if items.any isAlways then [] else listValues items := by
  rw [values_eq_flatMap, conditions_fold_any, listValues_eq_flatMap_conditions]
  split
  · rfl
  · rfl

end Predicate

namespace Sql

theorem filterMap_listPieces (values : List Value) :
    (listPieces values).filterMap Piece.value? = values := by
  match values with
  | [] => rfl
  | [value] => rfl
  | value :: next :: rest =>
      have later := filterMap_listPieces (next :: rest)
      simp only [listPieces, List.filterMap_cons, Piece.value?, later]

theorem filterMap_conditionPieces (subject : String) (condition : Condition) :
    (conditionPieces subject condition).filterMap Piece.value? = condition.values := by
  cases condition with
  | compare comparison value => rfl
  | within values =>
      rw [conditionPieces, List.cons_append, List.filterMap_cons_none rfl, List.filterMap_append,
        filterMap_listPieces]
      exact List.append_nil values
  | contains needle => rfl
  | set => rfl
  | notSet => rfl
  | between low high => rfl

namespace Formula

theorem filterMap_itemPieces (between : String) (items : List Formula) :
    (itemPieces between items).filterMap Piece.value? =
      items.flatMap fun item => item.pieces.filterMap Piece.value? := by
  match items with
  | [] => rfl
  | [item] => simp [itemPieces]
  | item :: next :: rest =>
      rw [List.flatMap_cons, ← filterMap_itemPieces between (next :: rest), itemPieces,
        List.filterMap_append, List.filterMap_cons_none rfl]

theorem filterMap_pieces_ofColumn (used : Nat) (path : ColumnPath) (condition : Condition) :
    (ofColumn used path condition).pieces.filterMap Piece.value? = condition.values := by
  unfold ofColumn
  dsimp only
  split
  · exact filterMap_conditionPieces _ condition
  · split
    · rw [pieces, List.cons_append, List.filterMap_cons_none rfl, List.filterMap_append,
        filterMap_conditionPieces]
      exact List.append_nil condition.values
    · exact filterMap_conditionPieces _ condition

theorem filterMap_pieces_ofRelation (used : Nat) (path : RelationPath) (wanted : Bool) :
    (ofRelation used path wanted).pieces.filterMap Piece.value? = [] := by
  cases wanted <;> rfl

theorem filterMap_pieces_ofPredicate (predicate : Predicate) (used : Nat) :
    (ofPredicate used predicate).pieces.filterMap Piece.value? = predicate.values := by
  induction predicate generalizing used with
  | always => rfl
  | column path condition => exact filterMap_pieces_ofColumn used path condition
  | related path wanted => exact filterMap_pieces_ofRelation used path wanted
  | group connective items ih =>
      rw [ofPredicate, pieces, List.cons_append, List.filterMap_cons_none rfl,
        List.filterMap_append, filterMap_itemPieces, Predicate.values]
      have each : ((ofPredicates used items).flatMap fun item =>
          item.pieces.filterMap Piece.value?) = Predicate.listValues items := by
        rw [Predicate.listValues_eq_flatMap, List.flatMap_def, List.flatMap_def,
          map_ofPredicates ih]
      rw [each]
      exact List.append_nil _

end Formula

end Sql

/-- The binds are the values of the conditions. -/
theorem Predicate.binds_fragment (predicate : Predicate) :
    predicate.fragment.binds = predicate.values :=
  Formula.filterMap_pieces_ofPredicate predicate 0

end PartnerSearch
