import PartnerSearch.Json.Reader

set_option autoImplicit false

/-!
Documents embedded in a value. A value that was read from bytes has none left; one that was made in
another way may have them, and they are put in their places when it is taken over as a value.
-/

namespace PartnerSearch.Json

/-- The document in the text of a member, one of so many members of its object. -/
def readMember (members : Nat) : Json → Except SyntaxFault Json
  | .string text => do
    let value ← read (Text.bytes text)
    if members = 1 then return value else .error (.embeddedNotAlone members)
  | other => .error (.embeddedNotText other.describe)

/-- What an object stands for if its first name is that of an embedded document. -/
def embedded? : List (String × Json) → Option (Except SyntaxFault Json)
  | [] => none
  | (name, value) :: rest =>
    if name = embeddedName then some (readMember (rest.length + 1) value) else none

mutual

/-- The value with the documents that are embedded in it in their places. -/
def expand : Json → Except SyntaxFault Json
  | .array items => (expandItems items).map .array
  | .object members =>
    match embedded? members with
    | some document => document
    | none => (expandMembers members).map .object
  | value => .ok value

def expandItems : List Json → Except SyntaxFault (List Json)
  | [] => .ok []
  | item :: rest => do
    let first ← item.expand
    let others ← expandItems rest
    return first :: others

def expandMembers : List (String × Json) → Except SyntaxFault (List (String × Json))
  | [] => .ok []
  | (name, value) :: rest => do
    let first ← value.expand
    let others ← expandMembers rest
    return (name, first) :: others

end

end PartnerSearch.Json
