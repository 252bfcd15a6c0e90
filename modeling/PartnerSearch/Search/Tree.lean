import PartnerSearch.Search.Operator

set_option autoImplicit false

/-! Search expressions: filters on member paths, joined by groups. -/

namespace PartnerSearch

structure Filter where
  member : String
  operator : Operator
  values : List String
  deriving DecidableEq, Repr

/-- A filter, or a group of clauses of which one or all must hold. -/
inductive Clause where
  | filter (filter : Filter)
  | any (children : List Clause)
  | all (children : List Clause)

namespace Clause

mutual

def decEq : (first second : Clause) → Decidable (first = second)
  | .filter leaf, .filter other => decidable_of_iff (leaf = other) (by rw [filter.injEq])
  | .any children, .any others =>
    have := listDecEq children others
    decidable_of_iff (children = others) (by rw [any.injEq])
  | .all children, .all others =>
    have := listDecEq children others
    decidable_of_iff (children = others) (by rw [all.injEq])
  | .filter _, .any _ => isFalse nofun
  | .filter _, .all _ => isFalse nofun
  | .any _, .filter _ => isFalse nofun
  | .any _, .all _ => isFalse nofun
  | .all _, .filter _ => isFalse nofun
  | .all _, .any _ => isFalse nofun

def listDecEq : (first second : List Clause) → Decidable (first = second)
  | [], [] => isTrue rfl
  | child :: rest, other :: others =>
    have := decEq child other
    have := listDecEq rest others
    decidable_of_iff (child = other ∧ rest = others) (by rw [List.cons.injEq])
  | [], _ :: _ => isFalse nofun
  | _ :: _, [] => isFalse nofun

end

instance : DecidableEq Clause := decEq

end Clause

/-- All clauses of a search must hold. -/
structure Search where
  filters : List Clause
  deriving DecidableEq

namespace Search

def empty : Search := ⟨[]⟩

def isEmpty (search : Search) : Bool := search.filters.isEmpty

end Search

namespace Clause

/-- What holds of filters, and of a group when it holds of its children, holds of all clauses. -/
@[induction_eliminator]
theorem induction {motive : Clause → Prop} (filter : ∀ leaf, motive (.filter leaf))
    (any : ∀ children, (∀ child ∈ children, motive child) → motive (.any children))
    (all : ∀ children, (∀ child ∈ children, motive child) → motive (.all children)) :
    ∀ clause, motive clause
  | .filter leaf => filter leaf
  | .any children => any children fun child _ => induction filter any all child
  | .all children => all children fun child _ => induction filter any all child

mutual

/-- The filters of a clause in document order. -/
def leaves : Clause → List Filter
  | .filter leaf => [leaf]
  | .any children => listLeaves children
  | .all children => listLeaves children

def listLeaves : List Clause → List Filter
  | [] => []
  | child :: rest => child.leaves ++ listLeaves rest

end

end Clause

end PartnerSearch
