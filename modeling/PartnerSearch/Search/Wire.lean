import PartnerSearch.Json.Expansion
import PartnerSearch.Search.DecodeFault
import PartnerSearch.Search.Tree

set_option autoImplicit false

/-!
Searches as JSON values. A clause shows by its names what it is: `member` makes a filter, else `or` a
group of alternatives, else `and` a group of requirements. Unknown names are refused, and faults come
in document order. Documents embedded in a filter of a search are put in their places before it is read.
-/

namespace PartnerSearch

def Filter.toJson (filter : Filter) : Json :=
  .object [("member", .string filter.member), ("operator", .string filter.operator.token),
    ("values", .array (filter.values.map .string))]

namespace Clause

mutual

def toJson : Clause → Json
  | .filter leaf => leaf.toJson
  | .any children => .object [("or", .array (listToJson children))]
  | .all children => .object [("and", .array (listToJson children))]

def listToJson : List Clause → List Json
  | [] => []
  | child :: rest => child.toJson :: listToJson rest

end

end Clause

def Search.toJson (search : Search) : Json :=
  .object [("filters", .array (Clause.listToJson search.filters))]

namespace Wire

def expectedString : String := "a string"
def expectedList : String := "a sequence"
def expectedSearch : String := "struct Search"
def expectedOperator : String := "string or map"
def expectedUnit : String := "unit"

/-- A syntax fault of the document itself, or of one that is embedded in it. -/
def lift {α : Type} (result : Except Json.SyntaxFault α) : Except DecodeFault α :=
  result.mapError .malformed

def wrongType {α : Type} (value : Json) (expected : String) : Except DecodeFault α :=
  .error (.invalidType value.describe expected)

def readText : Json → Except DecodeFault String
  | .string text => .ok text
  | other => wrongType other expectedString

def readTexts : Json → Except DecodeFault (List String)
  | .array items => items.mapM readText
  | other => wrongType other expectedList

def readToken (token : String) : Except DecodeFault Operator :=
  match Operator.ofToken? token with
  | some operator => .ok operator
  | none => .error (.unknownOperator token)

/-- A token, or an object whose only name is a token and whose value is null. -/
def readOperator : Json → Except DecodeFault Operator
  | .string token => readToken token
  | .object [(token, value)] => do
    let operator ← readToken token
    match value with
    | .null => return operator
    | other => wrongType other expectedUnit
  | .object _ => .error .notSingleKey
  | other => wrongType other expectedOperator

/-- The members of a filter that have been read. -/
structure PartialFilter where
  member : Option String := none
  operator : Option Operator := none
  values : Option (List String) := none

def filterNames : List String := ["member", "operator", "values"]

/-- Sets a field that has not been set. -/
def fill {α : Type} (name : String) (old : Option α) (read : Except DecodeFault α) :
    Except DecodeFault (Option α) :=
  if old.isSome then .error (.duplicateField name) else read.map some

def readFilterMember (done : PartialFilter) (name : String) (value : Json) :
    Except DecodeFault PartialFilter :=
  if name = "member" then do
    return { done with member := ← fill name done.member (readText value) }
  else if name = "operator" then do
    return { done with operator := ← fill name done.operator (readOperator value) }
  else if name = "values" then do
    return { done with values := ← fill name done.values (readTexts value) }
  else .error (.unknownField name filterNames)

def readFilterMembers : PartialFilter → List (String × Json) → Except DecodeFault PartialFilter
  | done, [] => .ok done
  | done, (name, value) :: rest => do readFilterMembers (← readFilterMember done name value) rest

def required {α : Type} (name : String) : Option α → Except DecodeFault α
  | some value => .ok value
  | none => .error (.missingField name)

def readFilter (members : List (String × Json)) : Except DecodeFault Filter := do
  let found ← readFilterMembers {} members
  let member ← required "member" found.member
  let operator ← required "operator" found.operator
  return ⟨member, operator, found.values.getD []⟩

mutual

def readClause : Json → Except DecodeFault Clause
  | .object members =>
    if Json.hasMember "member" members then (readFilter members).map .filter
    else if Json.hasMember "or" members then (readGroup "or" none members).map .any
    else if Json.hasMember "and" members then (readGroup "and" none members).map .all
    else .error .clauseWithoutKind
  | _ => .error .clauseNotObject

/-- The children under `name`, the only name allowed. -/
def readGroup (name : String) (found : Option (List Clause)) :
    List (String × Json) → Except DecodeFault (List Clause)
  | [] => required name found
  | (other, value) :: rest =>
    if other ≠ name then .error (.unknownField other [name])
    else if found.isSome then .error (.duplicateField name)
    else do
      let children ← readClauses value
      readGroup name (some children) rest

def readClauses : Json → Except DecodeFault (List Clause)
  | .array items => readClauseItems items
  | other => wrongType other expectedList

def readClauseItems : List Json → Except DecodeFault (List Clause)
  | [] => .ok []
  | item :: rest => do
    let clause ← readClause item
    let others ← readClauseItems rest
    return clause :: others

end

/-- A clause that is taken over as a value first. -/
def readEntry (item : Json) : Except DecodeFault Clause := do
  readClause (← lift item.expand)

/-- The filters of a search, one after the other. -/
def readFilters : Json → Except DecodeFault (List Clause)
  | .array items => items.mapM readEntry
  | other => wrongType other expectedList

def searchNames : List String := ["filters"]

/-- The members of a search: `filters`, once or not at all. -/
def readSearchMembers (found : Option (List Clause)) :
    List (String × Json) → Except DecodeFault Search
  | [] => .ok ⟨found.getD []⟩
  | (name, value) :: rest =>
    if name ≠ "filters" then .error (.unknownField name searchNames)
    else if found.isSome then .error (.duplicateField name)
    else do
      let clauses ← readFilters value
      readSearchMembers (some clauses) rest

/-- An object with the filters, or an array that holds them as its only item. -/
def readSearch : Json → Except DecodeFault Search
  | .object members => readSearchMembers none members
  | .array [] => .ok .empty
  | .array (item :: rest) => do
    let clauses ← readFilters item
    if rest.isEmpty then return ⟨clauses⟩ else .error (.tooManyElements (rest.length + 1))
  | other => wrongType other expectedSearch

end Wire

def Search.ofJson (value : Json) : Except DecodeFault Search := Wire.readSearch value

end PartnerSearch
