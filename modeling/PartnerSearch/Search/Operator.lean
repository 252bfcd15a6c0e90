import PartnerSearch.Token

set_option autoImplicit false

/-! The operators of a filter and their tokens. -/

namespace PartnerSearch

inductive Operator where
  | equals
  | notEquals
  | within
  | greater
  | greaterOrEqual
  | less
  | lessOrEqual
  | contains
  | set
  | notSet
  | between
  deriving DecidableEq, Repr

namespace Operator

def token : Operator → String
  | .equals => "eq"
  | .notEquals => "notEquals"
  | .within => "in"
  | .greater => "gt"
  | .greaterOrEqual => "gte"
  | .less => "lt"
  | .lessOrEqual => "lte"
  | .contains => "contains"
  | .set => "set"
  | .notSet => "notSet"
  | .between => "between"

def all : List Operator :=
  [.equals, .notEquals, .within, .greater, .greaterOrEqual, .less, .lessOrEqual, .contains, .set,
    .notSet, .between]

def ofToken? (token : String) : Option Operator := all.find? fun operator => operator.token == token

def vocabulary : List String := all.map token

def parse (token : String) : Except UnknownToken Operator :=
  match ofToken? token with
  | some operator => .ok operator
  | none => .error ⟨token, vocabulary⟩

theorem mem_all (operator : Operator) : operator ∈ all := by
  cases operator <;> decide

theorem ofToken?_token (operator : Operator) : ofToken? operator.token = some operator := by
  cases operator <;> decide

theorem token_of_ofToken? {token : String} {operator : Operator}
    (found : ofToken? token = some operator) : operator.token = token := by
  simpa using List.find?_some found

/-- A presence test has no operand. -/
def ignoresValues : Operator → Bool
  | .set | .notSet => true
  | _ => false

def isOrdering : Operator → Bool
  | .greater | .greaterOrEqual | .less | .lessOrEqual => true
  | _ => false

end Operator

end PartnerSearch
