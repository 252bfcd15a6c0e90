import PartnerSearch.Schema
import PartnerSearch.Search.DecodeFault

set_option autoImplicit false

/-! Why a search is refused: its document, a path, a value, or a field type nobody can search. -/

namespace PartnerSearch

inductive PathFault where
  | blank
  | tooLong (count limit : Nat)
  | badSegment (segment : String)
  | scalarHasNoMembers (segment : String)
  | relationOperator (member : String) (operator : Operator)
  deriving DecidableEq, Repr

def PathFault.message : PathFault → String
  | .blank => "path cannot be empty"
  | .tooLong count limit =>
    "path has " ++ toString count ++ " segments (max " ++ toString limit ++ ")"
  | .badSegment segment => "'" ++ segment ++ "' is not a valid field name"
  | .scalarHasNoMembers segment => "'" ++ segment ++ "' is a scalar field and has no members"
  | .relationOperator member operator =>
    "'" ++ member ++ "' is a relation; only 'set' and 'notSet' apply to it, got '" ++
      operator.token ++ "'"

/-- How many values an operator asks for. -/
inductive ValueCount where
  | any
  | one
  | atLeastOne
  | exactlyTwo
  deriving DecidableEq, Repr

namespace ValueCount

def message : ValueCount → String
  | .any => "no values"
  | .one => "a value"
  | .atLeastOne => "at least 1 value"
  | .exactlyTwo => "exactly 2 values"

/-- Values beyond those that the operator reads are allowed, except by `exactlyTwo`. -/
def admits : ValueCount → Nat → Bool
  | .any, _ => true
  | .one, count => 1 ≤ count
  | .atLeastOne, count => 1 ≤ count
  | .exactlyTwo, count => count == 2

end ValueCount

/-- The form that a value should have had. -/
inductive ValueForm where
  | integer
  | number
  | boolean
  | timestamp
  | uuid
  | oneOf (name : String) (variants : List String)
  deriving DecidableEq, Repr

def ValueForm.message : ValueForm → String
  | .integer => "integer"
  | .number => "number"
  | .boolean => "boolean (true or false)"
  | .timestamp => "RFC 3339 timestamp"
  | .uuid => "UUID"
  | .oneOf name variants => name ++ " (one of: " ++ String.intercalate ", " variants ++ ")"

inductive SearchError where
  | malformedPayload (fault : DecodeFault)
  | fieldNotFound (member segment entity : String)
  | invalidPath (member : String) (fault : PathFault)
  | nestedCollection (member segment : String)
  | invalidValueCount (member : String) (operator : Operator) (expected : ValueCount) (actual : Nat)
  | invalidValue (member value : String) (expected : ValueForm)
  | unsupportedOperator (member : String) (operator : Operator) (type : FieldType)
  | unregisteredType (member : String) (type : FieldType)
  deriving DecidableEq, Repr

namespace SearchError

def message : SearchError → String
  | .malformedPayload fault => "Malformed search payload: " ++ fault.message
  | .fieldNotFound member segment entity =>
    "Field '" ++ segment ++ "' of '" ++ member ++ "' does not exist on " ++ entity
  | .invalidPath member fault => "Invalid field path '" ++ member ++ "': " ++ fault.message
  | .nestedCollection member segment =>
    "Field path '" ++ member ++ "' crosses a second collection at '" ++ segment ++
      "'; only one collection level is supported"
  | .invalidValueCount member operator expected actual =>
    "Operator '" ++ operator.token ++ "' on '" ++ member ++ "' requires " ++ expected.message ++
      ", got " ++ toString actual ++ " value(s)"
  | .invalidValue member value expected =>
    "Value '" ++ value ++ "' for '" ++ member ++ "' is not a valid " ++ expected.message
  | .unsupportedOperator member operator type =>
    "Operator '" ++ operator.token ++ "' is not supported for '" ++ member ++ "' of type " ++
      type.label
  | .unregisteredType member type =>
    "No search strategy registered for type " ++ type.label ++ " (field '" ++ member ++ "')"

/-- The path that the error is about. -/
def member? : SearchError → Option String
  | .malformedPayload _ => none
  | .fieldNotFound member _ _ => some member
  | .invalidPath member _ => some member
  | .nestedCollection member _ => some member
  | .invalidValueCount member _ _ _ => some member
  | .invalidValue member _ _ => some member
  | .unsupportedOperator member _ _ => some member
  | .unregisteredType member _ => some member

/-- All errors but a missing registration are the client's. -/
def isClientError : SearchError → Bool
  | .unregisteredType _ _ => false
  | _ => true

/-- The status of the answer that reports the error. -/
def status (error : SearchError) : Nat := if error.isClientError then 400 else 500

end SearchError

end PartnerSearch
