import PartnerSearch.Path
import PartnerSearch.Value

set_option autoImplicit false

/-! Predicates: conditions on columns and on the presence of related rows, joined by groups. -/

namespace PartnerSearch

inductive Comparison where
  | equal
  | notEqual
  | greater
  | greaterOrEqual
  | less
  | lessOrEqual
  deriving DecidableEq, Repr

/-- What a column must satisfy. -/
inductive Condition where
  | compare (comparison : Comparison) (value : Value)
  | within (values : List Value)
  | contains (needle : String)
  | set
  | notSet
  | between (low high : Value)
  deriving DecidableEq, Repr

/-- Whether all items of a group must hold or any one of them. -/
inductive Connective where
  | all
  | any
  deriving DecidableEq, Repr

inductive Predicate where
  | always
  | column (path : ColumnPath) (condition : Condition)
  | related (path : RelationPath) (present : Bool)
  | group (connective : Connective) (items : List Predicate)

namespace Predicate

/-- What holds of single conditions, and of a group when it holds of its items, holds of all
predicates. -/
@[induction_eliminator]
theorem induction {motive : Predicate → Prop} (always : motive .always)
    (column : ∀ path condition, motive (.column path condition))
    (related : ∀ path present, motive (.related path present))
    (group : ∀ connective items, (∀ item ∈ items, motive item) → motive (.group connective items)) :
    ∀ predicate, motive predicate
  | .always => always
  | .column path condition => column path condition
  | .related path present => related path present
  | .group connective items =>
    group connective items fun item _ => induction always column related group item

def isAlways : Predicate → Bool
  | .always => true
  | _ => false

/-- A group of no items always holds, and a group of one item is that item. -/
def ofItems (connective : Connective) : List Predicate → Predicate
  | [] => .always
  | [item] => item
  | items => .group connective items

/-- Joins predicates. An item that always holds adds nothing to a conjunction and decides a
disjunction. -/
def fold : Connective → List Predicate → Predicate
  | .all, items => ofItems .all (items.filter fun item => !item.isAlways)
  | .any, items => if items.any isAlways then .always else ofItems .any items

mutual

/-- The number of conditions. -/
def conditionCount : Predicate → Nat
  | .always => 0
  | .column _ _ => 1
  | .related _ _ => 1
  | .group _ items => listConditionCount items

def listConditionCount : List Predicate → Nat
  | [] => 0
  | item :: rest => item.conditionCount + listConditionCount rest

end

@[simp] theorem fold_all_nil : fold .all [] = .always := rfl

@[simp] theorem fold_any_nil : fold .any [] = .always := rfl

end Predicate

end PartnerSearch
