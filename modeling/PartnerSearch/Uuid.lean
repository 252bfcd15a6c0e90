import PartnerSearch.Text.Hex
import PartnerSearch.Text.Split

set_option autoImplicit false

/-!
Universally unique identifiers. They are read from plain, hyphenated, braced or URN text in letters
of either case, and written in one form: hyphenated, in lowercase.
-/

namespace PartnerSearch

open Text (hexDigit? hexDigit splitOn)

structure Uuid where
  bits : BitVec 128
  deriving DecidableEq, Repr

namespace Uuid

/-- The hexadecimal digits in each of the hyphenated groups. -/
def groups : List Nat := [8, 4, 4, 4, 12]

/-- The value of hexadecimal digits, appended to `value`. -/
def readHex? : Nat → List Char → Option Nat
  | value, [] => some value
  | value, c :: rest => (hexDigit? c).bind fun digit => readHex? (value * 16 + digit) rest

/-- Reads 32 digits. -/
def ofPlain? (text : List Char) : Option Uuid :=
  if text.length = 32 then (readHex? 0 text).map fun value => ⟨BitVec.ofNat 128 value⟩ else none

/-- Reads five groups with hyphens between them. -/
def ofHyphenated? (text : List Char) : Option Uuid :=
  let parts := splitOn '-' text
  if parts.map List.length = groups then ofPlain? parts.flatten else none

/-- The text between braces. -/
def unbraced? : List Char → Option (List Char)
  | '\x7b' :: rest => if rest.getLast? = some '\x7d' then some rest.dropLast else none
  | _ => none

def urnStart : List Char := ['u', 'r', 'n', ':', 'u', 'u', 'i', 'd', ':']

/-- The text after the name of the URN, which is written in either case. -/
def unnamed? (text : List Char) : Option (List Char) :=
  if (text.take urnStart.length).map Char.toLower = urnStart then some (text.drop urnStart.length)
  else none

def read? (text : List Char) : Option Uuid :=
  ofPlain? text <|> ofHyphenated? text <|> (unbraced? text).bind ofHyphenated? <|>
    (unnamed? text).bind ofHyphenated?

/-- The 32 digits, the highest first. -/
def digits (uuid : Uuid) : List Char :=
  (List.range 32).map fun place => hexDigit (uuid.bits.toNat / Nat.pow 16 (31 - place) % 16)

/-- Cuts digits into groups of the given sizes. -/
def cut : List Nat → List Char → List (List Char)
  | [], _ => []
  | size :: sizes, text => text.take size :: cut sizes (text.drop size)

def chars (uuid : Uuid) : List Char := List.intercalate ['-'] (cut groups uuid.digits)

/-- The hyphenated text. -/
def text (uuid : Uuid) : String := String.ofList uuid.chars

end Uuid

end PartnerSearch
