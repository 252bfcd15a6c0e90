import PartnerSearch.Json.Value
import PartnerSearch.Text.Hex

set_option autoImplicit false

/-! The compact text of a JSON value. -/

namespace PartnerSearch.Json

open Text (hexDigit)

/-- Quotes, backslashes and control characters are escaped; every other character stands for itself. -/
def escapedChar (c : Char) : List Char :=
  match c with
  | '"' => ['\\', '"']
  | '\\' => ['\\', '\\']
  | '\x08' => ['\\', 'b']
  | '\t' => ['\\', 't']
  | '\n' => ['\\', 'n']
  | '\x0c' => ['\\', 'f']
  | '\r' => ['\\', 'r']
  | c =>
    if c.toNat < 0x20 then
      ['\\', 'u', '0', '0', hexDigit (c.toNat / 16), hexDigit (c.toNat % 16)]
    else [c]

def stringChars (text : String) : List Char :=
  '"' :: text.toList.flatMap escapedChar ++ ['"']

/-- A number that is not finite has no text of its own. -/
def Number.text : Number → String
  | .integer value => toString value
  | .real value => if value.isFinite then realLayout.render value else "null"

mutual

def chars : Json → List Char
  | .null => ['n', 'u', 'l', 'l']
  | .bool true => ['t', 'r', 'u', 'e']
  | .bool false => ['f', 'a', 'l', 's', 'e']
  | .number value => value.text.toList
  | .string value => stringChars value
  | .array items => '[' :: listChars items ++ [']']
  | .object members => '\x7b' :: membersChars members ++ ['\x7d']

/-- Items with commas between them. -/
def listChars : List Json → List Char
  | [] => []
  | [item] => chars item
  | item :: next :: rest => chars item ++ ',' :: listChars (next :: rest)

/-- Members with commas between them. -/
def membersChars : List (String × Json) → List Char
  | [] => []
  | [(name, value)] => stringChars name ++ ':' :: chars value
  | (name, value) :: next :: rest =>
    stringChars name ++ ':' :: chars value ++ ',' :: membersChars (next :: rest)

end

def render (value : Json) : String := String.ofList value.chars

end PartnerSearch.Json
