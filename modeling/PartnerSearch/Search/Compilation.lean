import PartnerSearch.Registry

set_option autoImplicit false

/-! Searches compiled into predicates. The first filter that fails, in document order, decides. -/

namespace PartnerSearch

/-- On a relation only its presence can be tested. -/
def Filter.presence (filter : Filter) (path : RelationPath) : Except SearchError Predicate :=
  match filter.operator with
  | .set => .ok (.related path true)
  | .notSet => .ok (.related path false)
  | operator =>
    .error (.invalidPath filter.member (.relationOperator filter.member operator))

def Filter.compile (filter : Filter) (registry : Registry) (schema : Schema)
    (root : Fin schema.size) : Except SearchError Predicate := do
  match ← resolve schema root filter.member with
  | .column path =>
    let strategy ← registry.get path.type filter.member
    strategy.build filter path
  | .relation path => filter.presence path

namespace Clause

mutual

def compile (registry : Registry) (schema : Schema) (root : Fin schema.size) :
    Clause → Except SearchError Predicate
  | .filter leaf => leaf.compile registry schema root
  | .any children => (compileList registry schema root children).map (Predicate.fold .any)
  | .all children => (compileList registry schema root children).map (Predicate.fold .all)

def compileList (registry : Registry) (schema : Schema) (root : Fin schema.size) :
    List Clause → Except SearchError (List Predicate)
  | [] => .ok []
  | child :: rest => do
    let predicate ← child.compile registry schema root
    let others ← compileList registry schema root rest
    return predicate :: others

end

end Clause

namespace Search

/-- Joins the filters of a search by `connective`. -/
def compileWith (search : Search) (connective : Connective) (registry : Registry) (schema : Schema)
    (root : Fin schema.size) : Except SearchError Predicate :=
  (Clause.compileList registry schema root search.filters).map (Predicate.fold connective)

/-- All filters of a search must hold. -/
def compile (search : Search) (registry : Registry) (schema : Schema) (root : Fin schema.size) :
    Except SearchError Predicate :=
  search.compileWith .all registry schema root

end Search

end PartnerSearch
