import PartnerSearch.Base64
import PartnerSearch.Json.Syntax
import PartnerSearch.Search.Operator

set_option autoImplicit false

/-! What can be wrong with the wire form of a search. -/

namespace PartnerSearch

inductive DecodeFault where
  | malformed (fault : Json.SyntaxFault)
  | invalidType (found : String) (expected : String)
  | notSingleKey
  | unknownField (name : String) (allowed : List String)
  | missingField (name : String)
  | duplicateField (name : String)
  | unknownOperator (token : String)
  | clauseNotObject
  | clauseWithoutKind
  | tooManyElements (count : Nat)
  | tooLong (bytes limit : Nat)
  | notBase64 (fault : Base64.Fault)
  deriving DecidableEq, Repr

namespace DecodeFault

/-- What is said of the fault. Where it is in the document (` at line L column C`, behind the message of
a fault that was found while its bytes were read) is left out. -/
def message : DecodeFault → String
  | .malformed fault => fault.message
  | .invalidType found expected => "invalid type: " ++ found ++ ", expected " ++ expected
  | .notSingleKey => "invalid value: map, expected map with a single key"
  | .unknownField name allowed =>
    "unknown field " ++ ticked name ++ ", expected " ++ oneOf allowed
  | .missingField name => "missing field " ++ ticked name
  | .duplicateField name => "duplicate field " ++ ticked name
  | .unknownOperator token =>
    (UnknownToken.mk token Operator.vocabulary).message
  | .clauseNotObject => "search operator must be a JSON object"
  | .clauseWithoutKind => "search operator must contain one of `member`, `or` or `and`"
  | .tooManyElements count =>
    "invalid length " ++ toString count ++ ", expected fewer elements in array"
  | .tooLong bytes limit =>
    "search parameter is too long (" ++ toString bytes ++ " bytes, max " ++ toString limit ++ ")"
  | .notBase64 fault => "search is neither JSON nor base64: " ++ fault.message

end DecodeFault

end PartnerSearch
