import PartnerSearch.Number.Decimal
import PartnerSearch.Predicate
import PartnerSearch.Search.Tree
import PartnerSearch.Timestamp
import PartnerSearch.Uuid

set_option autoImplicit false

/-!
Search strategies: for each field type the operators that apply to it and the reading of its values,
and from both the condition that a filter puts on a column.
-/

namespace PartnerSearch

open Text (trimChars)

/-- A strategy is named by the field type it serves; an enumeration brings its variants. -/
inductive Strategy where
  | text
  | integer
  | real
  | boolean
  | timestamp
  | uuid
  | enumeration (name : String) (variants : List String)
  deriving DecidableEq, Repr

/-- How many values the operator asks for. -/
def Operator.valueCount : Operator → ValueCount
  | .set | .notSet => .any
  | .between => .exactlyTwo
  | .within => .atLeastOne
  | _ => .one

/-- Refuses a filter with too few values, or other than two for a range. -/
def Filter.checkValueCount (filter : Filter) : Except SearchError Unit :=
  let expected := filter.operator.valueCount
  if expected.admits filter.values.length then .ok ()
  else .error (.invalidValueCount filter.member filter.operator expected filter.values.length)

namespace Strategy

def type : Strategy → FieldType
  | .text => .text
  | .integer => .integer
  | .real => .real
  | .boolean => .boolean
  | .timestamp => .timestamp
  | .uuid => .uuid
  | .enumeration name _ => .enumeration name

/-- Values without an order can be told apart but not compared. -/
def isOrdered : Strategy → Bool
  | .text | .integer | .real | .timestamp => true
  | .boolean | .uuid | .enumeration _ _ => false

/-- Substrings are searched in free text alone, and ranges need an order. -/
def supports (strategy : Strategy) : Operator → Bool
  | .equals | .notEquals | .within | .set | .notSet => true
  | .contains => strategy.type == .text
  | .greater | .greaterOrEqual | .less | .lessOrEqual | .between => strategy.isOrdered

/-- The form of the values that are accepted, for the types that do not accept everything. -/
def form : Strategy → Option ValueForm
  | .text => none
  | .integer => some .integer
  | .real => some .number
  | .boolean => some .boolean
  | .timestamp => some .timestamp
  | .uuid => some .uuid
  | .enumeration name variants => some (.oneOf name variants)

def readInteger? (text : List Char) : Option Value :=
  match Text.readInt64 text with
  | .ok value => some (.integer value)
  | .error _ => none

def readReal? (text : List Char) : Option Value :=
  (Binary64.read? text).bind fun value => if value.isFinite then some (.real value) else none

def readBoolean? (text : List Char) : Option Value :=
  match String.ofList (text.map Char.toLower) with
  | "true" => some (.boolean true)
  | "false" => some (.boolean false)
  | _ => none

/-- Reads a value. Blanks at its ends count only in text and in the variants of an enumeration. -/
def read? (strategy : Strategy) (raw : String) : Option Value :=
  let trimmed := trimChars raw.toList
  match strategy with
  | .text => some (.text raw)
  | .integer => readInteger? trimmed
  | .real => readReal? trimmed
  | .boolean => readBoolean? trimmed
  | .timestamp => (Timestamp.readNanoseconds? trimmed).map .integer
  | .uuid => (Uuid.read? trimmed).map fun uuid => .text uuid.text
  | .enumeration _ variants => if raw ∈ variants then some (.text raw) else none

/-- The value that `raw` stands for. -/
def convert (strategy : Strategy) (member raw : String) : Except SearchError Value :=
  match strategy.read? raw, strategy.form with
  | some value, _ => .ok value
  | none, some form => .error (.invalidValue member raw form)
  | none, none => .ok (.text raw)

/-- A comparison with the first value. -/
def compareFirst (strategy : Strategy) (member : String) (comparison : Comparison) (first : String) :
    Except SearchError Condition :=
  (strategy.convert member first).map (.compare comparison)

/-- The condition of a filter with enough values; values beyond those the operator uses are not read. -/
def condition (strategy : Strategy) (filter : Filter) : Except SearchError Condition :=
  let member := filter.member
  let first := filter.values.headD ""
  match filter.operator with
  | .equals => strategy.compareFirst member .equal first
  | .notEquals => strategy.compareFirst member .notEqual first
  | .greater => strategy.compareFirst member .greater first
  | .greaterOrEqual => strategy.compareFirst member .greaterOrEqual first
  | .less => strategy.compareFirst member .less first
  | .lessOrEqual => strategy.compareFirst member .lessOrEqual first
  | .within => (filter.values.mapM (strategy.convert member)).map .within
  | .contains => .ok (.contains first)
  | .set => .ok .set
  | .notSet => .ok .notSet
  | .between => do
    let low ← strategy.convert member first
    let high ← strategy.convert member (filter.values.getD 1 "")
    return .between low high

/-- The predicate of a filter on a column: the operator is judged first, then the number of values,
then the values. -/
def build (strategy : Strategy) (filter : Filter) (path : ColumnPath) :
    Except SearchError Predicate := do
  if !strategy.supports filter.operator then
    .error (.unsupportedOperator filter.member filter.operator strategy.type)
  filter.checkValueCount
  return .column path (← strategy.condition filter)

end Strategy

end PartnerSearch
