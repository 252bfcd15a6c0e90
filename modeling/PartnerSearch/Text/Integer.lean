set_option autoImplicit false

/-! Decimal integers of a fixed range, read digit by digit so that the first fault decides. -/

namespace PartnerSearch.Text

inductive IntegerFault where
  | empty
  | invalidDigit
  | tooLarge
  | tooSmall
  deriving DecidableEq, Repr

def IntegerFault.message : IntegerFault → String
  | .empty => "cannot parse integer from empty string"
  | .invalidDigit => "invalid digit found in string"
  | .tooLarge => "number too large to fit in target type"
  | .tooSmall => "number too small to fit in target type"

/-- The value of an ASCII decimal digit. -/
def digit? (c : Char) : Option Nat :=
  if '0' ≤ c ∧ c ≤ '9' then some (c.toNat - '0'.toNat) else none

/-- Appends digits to `value`; the step that passes `limit` fails with `fault`. -/
def readDigits (limit : Nat) (fault : IntegerFault) : Nat → List Char → Except IntegerFault Nat
  | value, [] => .ok value
  | value, c :: rest =>
    match digit? c with
    | none => .error .invalidDigit
    | some digit =>
      let next := value * 10 + digit
      if next ≤ limit then readDigits limit fault next rest else .error fault

/-- A natural number of at most `limit` with an optional plus sign. -/
def readNatural (limit : Nat) : List Char → Except IntegerFault Nat
  | [] => .error .empty
  | ['+'] => .error .invalidDigit
  | '+' :: digits => readDigits limit .tooLarge 0 digits
  | digits => readDigits limit .tooLarge 0 digits

/-- A 64-bit integer with an optional sign. -/
def readInt64 : List Char → Except IntegerFault Int64
  | ['-'] => .error .invalidDigit
  | '-' :: digits =>
    (readDigits 0x8000000000000000 .tooSmall 0 digits).map fun value => Int64.ofInt (-(value : Int))
  | text => (readNatural 0x7FFFFFFFFFFFFFFF text).map fun value => Int64.ofNat value

def readPort (text : List Char) : Except IntegerFault UInt16 :=
  (readNatural 0xFFFF text).map UInt16.ofNat

end PartnerSearch.Text
