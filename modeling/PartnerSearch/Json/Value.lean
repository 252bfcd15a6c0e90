import PartnerSearch.Number.Decimal
import PartnerSearch.Text.Quoted

set_option autoImplicit false

/-! JSON values. An object is the list of its members in document order. -/

namespace PartnerSearch

/-- A number is an integer of 64 bits, signed or not, or a binary64 number. -/
inductive Json.Number where
  | integer (value : Int)
  | real (value : Binary64)
  deriving DecidableEq, Repr

inductive Json where
  | null
  | bool (value : Bool)
  | number (value : Json.Number)
  | string (value : String)
  | array (items : List Json)
  | object (members : List (String × Json))

namespace Json

/-- Numbers keep a digit on both sides of the point from 1e-5 up to 1e15. -/
def realLayout : DecimalLayout := ⟨-5, 15, true⟩

/-- What a value is called where another one was expected. -/
def describe : Json → String
  | .null => "null"
  | .bool value => "boolean `" ++ toString value ++ "`"
  | .number (.integer value) => "integer `" ++ toString value ++ "`"
  | .number (.real value) => "floating point `" ++ realLayout.render value ++ "`"
  | .string value => "string " ++ Text.quoted value
  | .array _ => "sequence"
  | .object _ => "map"

mutual

/-- How many arrays and objects the deepest part of a value lies in. -/
def depth : Json → Nat
  | .array items => listDepth items + 1
  | .object members => membersDepth members + 1
  | _ => 0

def listDepth : List Json → Nat
  | [] => 0
  | item :: rest => max item.depth (listDepth rest)

def membersDepth : List (String × Json) → Nat
  | [] => 0
  | (_, value) :: rest => max value.depth (membersDepth rest)

end

/-- A repeated name keeps its first place and takes the new value. -/
def insertMember (name : String) (value : Json) : List (String × Json) → List (String × Json)
  | [] => [(name, value)]
  | (other, old) :: rest =>
    if other = name then (name, value) :: rest else (other, old) :: insertMember name value rest

/-- The object that a document's members give, read from the left. -/
def ofMembers (members : List (String × Json)) : Json :=
  .object (members.foldl (fun done (name, value) => insertMember name value done) [])

def hasMember (name : String) (members : List (String × Json)) : Bool :=
  members.any fun member => member.1 == name

end Json

end PartnerSearch
