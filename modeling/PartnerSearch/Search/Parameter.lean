import PartnerSearch.Json.Writer
import PartnerSearch.Search.Document
import PartnerSearch.Text.Blank

set_option autoImplicit false

/-! Searches as one text parameter: the document itself, or its base64 form. -/

namespace PartnerSearch

open Text (Bytes bytes trim)

namespace Search

/-- The longest parameter that is read, in bytes. -/
def parameterLimit : Nat := 16 * 1024

/-- A plus sign that was not escaped in a query arrives as a space. -/
def restorePlus (input : Bytes) : Bytes :=
  input.map fun b => if b = ' '.toUInt8 then '+'.toUInt8 else b

/-- The document behind a base64 text of either alphabet. -/
def unwrap (text : Bytes) : Except DecodeFault Bytes :=
  match Base64.decode .standard (restorePlus text) with
  | .ok document => .ok document
  | .error _ => (Base64.decode .urlSafe text).mapError .notBase64

/-- Reads a parameter, not counting blanks at its ends. -/
def ofParameter (raw : String) : Except DecodeFault Search :=
  let text := bytes (trim raw)
  if parameterLimit < text.length then .error (.tooLong text.length parameterLimit)
  else if text.head? = some '\x7b'.toUInt8 then ofDocument text
  else do ofDocument (← unwrap text)

/-- Reads an optional parameter; a blank one is the empty search. -/
def ofQuery (raw : Option String) : Except DecodeFault Search :=
  match raw.map trim with
  | none => .ok empty
  | some "" => .ok empty
  | some text => ofParameter text

/-- The parameter that stands for a search. -/
def toParameter (search : Search) : String :=
  String.ofList <|
    (Base64.encode .urlSafe (bytes search.toJson.render)).map Char.ofUInt8

end Search

end PartnerSearch
