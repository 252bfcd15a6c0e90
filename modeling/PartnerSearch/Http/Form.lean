import PartnerSearch.Text.Bytes
import PartnerSearch.Text.Hex
import PartnerSearch.Text.Split

set_option autoImplicit false

/-! Percent-encoded text, and the names and values of a query. -/

namespace PartnerSearch.Http

open Text (Bytes bytes hexPair? ofBytesLossy splitOn cutAt)

/-- The byte that two hexadecimal digits stand for. -/
def escapedByte? (high low : UInt8) : Option UInt8 :=
  (hexPair? (Char.ofUInt8 high) (Char.ofUInt8 low)).map UInt8.ofNat

/-- A percent sign without two digits after it stands for itself. -/
def percentDecode : Bytes → Bytes
  | [] => []
  | [a] => [a]
  | [a, b] => [a, b]
  | 0x25 :: high :: low :: rest =>
    match escapedByte? high low with
    | some byte => byte :: percentDecode rest
    | none => 0x25 :: percentDecode (high :: low :: rest)
  | a :: b :: c :: rest => a :: percentDecode (b :: c :: rest)

/-- The text that a percent-encoded one stands for, if its bytes are UTF-8. -/
def percentText? (text : String) : Option String := Text.ofBytes? (percentDecode (bytes text))

/-- In a query a plus sign stands for a space. -/
def formDecode (input : Bytes) : String :=
  ofBytesLossy (percentDecode (input.map fun b => if b = 0x2B then 0x20 else b))

/-- A name and its value; without an equals sign the value is empty. -/
def formPair (input : Bytes) : String × String :=
  let (name, value) := cutAt 0x3D input
  (formDecode name, formDecode (value.getD []))

/-- The names and values of a query, in order. -/
def formPairs (query : String) : List (String × String) :=
  ((splitOn 0x26 (bytes query)).filter fun part => !part.isEmpty).map formPair

end PartnerSearch.Http
