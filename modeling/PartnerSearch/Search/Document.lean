import PartnerSearch.Json.Reader
import PartnerSearch.Search.Wire

set_option autoImplicit false

/-!
Searches read from the bytes of a document. The envelope is read as it comes: a name is judged before
its value is read, and every clause before the next one.
-/

namespace PartnerSearch

open Text (Bytes)
open Json (Front Reader)

namespace Wire

/-- What stands in place of a list or of the envelope. -/
def unexpected {α : Type} (input : Bytes) (expected : String) : Except DecodeFault α := do
  .error (.invalidType (← lift (Json.describeFront input)) expected)

/-- Lists and objects that may nest inside a clause: the document's own two levels are taken. -/
def clauseLevels : Nat := Json.nestingLimit - 2

def clauseReader : Reader DecodeFault Clause := fun input => do
  let front ← lift (Json.readValue Json.read clauseLevels input)
  let clause ← readClause front.value
  return front.map fun _ => clause

def filtersReader : Reader DecodeFault (List Clause) := fun input =>
  match skipped : Json.skipBlanks input with
  | 0x5B :: rest => (Json.readItems .malformed clauseReader rest).map (·.afterByte 0x5B skipped)
  | _ => unexpected input expectedList

/-- After the filters an object may only end. -/
def endOfMembers (input : Bytes) : Except DecodeFault Bytes := do
  let name ← lift (Json.readNextName input)
  match name.value with
  | none => return name.rest
  | some text =>
    if text = "filters" then .error (.duplicateField text)
    else .error (.unknownField text searchNames)

/-- The envelope as an object, after its opening brace. -/
def readObjectEnvelope (input : Bytes) : Except DecodeFault (Search × Bytes) := do
  let name ← lift (Json.readFirstName input)
  match name.value with
  | none => return (.empty, name.rest)
  | some text =>
    if text ≠ "filters" then .error (.unknownField text searchNames)
    else
      let colon ← lift (Json.readColon name.rest)
      let filters ← filtersReader colon.rest
      let rest ← endOfMembers filters.rest
      return (⟨filters.value⟩, rest)

/-- The envelope as an array, after its opening bracket: it holds the filters or nothing. -/
def readArrayEnvelope (input : Bytes) : Except DecodeFault (Search × Bytes) :=
  match Json.skipBlanks input with
  | [] => .error (.malformed .unclosedList)
  | 0x5D :: rest => .ok (.empty, rest)
  | _ => do
    let filters ← filtersReader input
    match Json.skipBlanks filters.rest with
    | [] => .error (.malformed .unclosedList)
    | 0x5D :: rest => return (⟨filters.value⟩, rest)
    | 0x2C :: rest =>
      match Json.skipBlanks rest with
      | 0x5D :: _ => .error (.malformed .trailingComma)
      | _ => .error (.malformed .trailingCharacters)
    | _ => .error (.malformed .trailingCharacters)

def readEnvelope (input : Bytes) : Except DecodeFault (Search × Bytes) :=
  match Json.skipBlanks input with
  | 0x5B :: rest => readArrayEnvelope rest
  | 0x7B :: rest => readObjectEnvelope rest
  | _ => unexpected input expectedSearch

end Wire

/-- Reads a search document. -/
def Search.ofDocument (input : Bytes) : Except DecodeFault Search := do
  let (search, rest) ← Wire.readEnvelope input
  Wire.lift (Json.endOfDocument search rest)

end PartnerSearch
