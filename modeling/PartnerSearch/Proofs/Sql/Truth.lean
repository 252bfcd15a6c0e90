import PartnerSearch.Proofs.Sql.Join
import PartnerSearch.Sql.Fragment

set_option autoImplicit false

/-!
The truth of a predicate for a row, read off the rows that its paths lead to. The formula of the
predicate has the same truth, wherever its aliases start.
-/

namespace PartnerSearch

open Sql

/-- A path over a collection asks for an element that satisfies the condition. Any other path has
one row at most, and reads as unset without one. -/
def ColumnPath.truth (tables : Tables) (row : Row) (path : ColumnPath) (condition : Condition) :
    Truth :=
  let reached := Hop.reach tables .optionalObjects path.hops row
  if path.isQuantified then
    some (reached.any fun element => (satisfies condition (element path.column)).holds)
  else satisfies condition ((reached.head?.map fun target => target path.column).getD .null)

def RelationPath.truth (tables : Tables) (row : Row) (path : RelationPath) (wanted : Bool) :
    Truth :=
  let reached := Hop.reach tables .required path.hops row
  some (if wanted then !reached.isEmpty else reached.isEmpty)

namespace Predicate

mutual

def truth (tables : Tables) (row : Row) : Predicate → Truth
  | .always => some true
  | .column path condition => path.truth tables row condition
  | .related path wanted => path.truth tables row wanted
  | .group .all items => Truth.all (listTruth tables row items)
  | .group .any items => Truth.any (listTruth tables row items)

def listTruth (tables : Tables) (row : Row) : List Predicate → List Truth
  | [] => []
  | item :: rest => item.truth tables row :: listTruth tables row rest

end

theorem listTruth_eq_map (tables : Tables) (row : Row) (items : List Predicate) :
    listTruth tables row items = items.map (truth tables row) := by
  induction items with
  | nil => rfl
  | cons item rest ih => rw [listTruth, ih, List.map_cons]

/-- Whether the predicate selects the row. -/
def holds (tables : Tables) (row : Row) (predicate : Predicate) : Bool :=
  (predicate.truth tables row).holds

variable {tables : Tables} {row : Row}

@[simp] theorem holds_always : holds tables row .always = true := rfl

@[simp] theorem holds_all (items : List Predicate) :
    holds tables row (.group .all items) = items.all (holds tables row) := by
  rw [holds, truth, Truth.holds_all, listTruth_eq_map, List.all_map]
  rfl

@[simp] theorem holds_any (items : List Predicate) :
    holds tables row (.group .any items) = items.any (holds tables row) := by
  rw [holds, truth, Truth.holds_any, listTruth_eq_map, List.any_map]
  rfl

end Predicate

namespace Sql.Formula

variable {tables : Tables} {row : Row}

theorem eval_ofColumn (used : Nat) (path : ColumnPath) (condition : Condition) :
    (ofColumn used path condition).eval tables (Scope.ofRoot row) =
      path.truth tables row condition := by
  unfold ofColumn ColumnPath.truth
  by_cases direct : path.hops = []
  · simp [direct, ColumnPath.isQuantified, Hop.reach, eval, Operand.read, Scope.read, Scope.ofRoot]
  · have crossed : path.hops.isEmpty = false := by simpa using direct
    have reached := @Link.map_select_ofHops tables .optionalObjects used path.hops row direct
    simp only [crossed, Bool.false_eq_true, ↓reduceIte]
    rw [← reached]
    cases path.isQuantified with
    | true =>
        simp only [↓reduceIte, eval, List.any_map]
        rfl
    | false =>
        simp only [Bool.false_eq_true, ↓reduceIte, eval, Operand.read, List.head?_map,
          Option.map_map]
        rfl

theorem eval_ofRelation (used : Nat) (path : RelationPath) (wanted : Bool) :
    (ofRelation used path wanted).eval tables (Scope.ofRoot row) =
      path.truth tables row wanted := by
  unfold ofRelation RelationPath.truth
  have same : (Link.select tables (Scope.ofRoot row) (Link.ofHops .required used path.hops)).isEmpty
      = (Hop.reach tables .required path.hops row).isEmpty := by
    by_cases direct : path.hops = []
    · rw [direct]
      rfl
    · rw [← Link.map_select_ofHops .required used row direct, List.isEmpty_map]
  cases wanted with
  | true => simp only [↓reduceIte, eval, same]
  | false => simp only [Bool.false_eq_true, ↓reduceIte, eval, same]

/-- The aliases of a formula do not matter for its truth. -/
theorem eval_ofPredicate (predicate : Predicate) (used : Nat) :
    (ofPredicate used predicate).eval tables (Scope.ofRoot row) = predicate.truth tables row := by
  induction predicate generalizing used with
  | always => rfl
  | column path condition => exact eval_ofColumn used path condition
  | related path wanted => exact eval_ofRelation used path wanted
  | group connective items ih =>
      have each : listEval tables (Scope.ofRoot row) (ofPredicates used items) =
          Predicate.listTruth tables row items := by
        rw [listEval_eq_map, Predicate.listTruth_eq_map, map_ofPredicates ih]
      cases connective with
      | all => rw [ofPredicate, eval, Predicate.truth, each]
      | any => rw [ofPredicate, eval, Predicate.truth, each]

theorem selects_formula (predicate : Predicate) (tables : Tables) (row : Row) :
    predicate.formula.selects tables row = predicate.holds tables row := by
  rw [selects, Predicate.formula, eval_ofPredicate, Predicate.holds]

end Sql.Formula

end PartnerSearch
