set_option autoImplicit false

/-!
IEEE 754 binary64 numbers as bit patterns, with exact comparison and rounding. A finite number is an
integer multiple of 2 to the power -1074, the unit of this module.
-/

namespace PartnerSearch

structure Binary64 where
  bits : UInt64
  deriving DecidableEq, Repr

namespace Binary64

/-- The sign bit of a pattern. -/
def signBit : Nat := 0x8000000000000000

/-- What one step of the exponent adds to a pattern. -/
def exponentStep : Nat := 0x10000000000000

/-- How many units make one. -/
def unitsPerOne : Nat := Nat.pow 2 1074

/-- The pattern without its sign bit; it grows with the absolute value. -/
def magnitude (x : Binary64) : Nat := x.bits.toNat % signBit

def isNegative (x : Binary64) : Bool := signBit ≤ x.bits.toNat

def infiniteMagnitude : Nat := 2047 * exponentStep

def ofMagnitude (negative : Bool) (magnitude : Nat) : Binary64 :=
  ⟨UInt64.ofNat (if negative then signBit + magnitude else magnitude)⟩

def zero (negative : Bool) : Binary64 := ofMagnitude negative 0

def infinity (negative : Bool) : Binary64 := ofMagnitude negative infiniteMagnitude

def nan : Binary64 := ofMagnitude false (infiniteMagnitude + exponentStep / 2)

def isFinite (x : Binary64) : Bool := x.magnitude < infiniteMagnitude

def isNaN (x : Binary64) : Bool := infiniteMagnitude < x.magnitude

def isZero (x : Binary64) : Bool := x.magnitude == 0

/-- The absolute value of a finite number in units. -/
def absoluteUnits (x : Binary64) : Nat :=
  let field := x.magnitude / exponentStep
  let fraction := x.magnitude % exponentStep
  if field = 0 then fraction else (exponentStep + fraction) * Nat.pow 2 (field - 1)

/-- A finite number in units. Infinities keep their place beyond every finite number. -/
def units (x : Binary64) : Int :=
  if x.isNegative then -(x.absoluteUnits : Int) else x.absoluteUnits

/-- The magnitude nearest to `numerator / denominator` units, a tie going to the even one. -/
def roundUnits (numerator denominator : Nat) : Nat :=
  let whole := numerator / denominator
  let shift := if whole < 2 * exponentStep then 0 else whole.log2 - 52
  let step := denominator * Nat.pow 2 shift
  let quotient := numerator / step
  let twice := 2 * (numerator % step)
  let rounded :=
    if step < twice ∨ (step = twice ∧ quotient % 2 = 1) then quotient + 1 else quotient
  min (shift * exponentStep + rounded) infiniteMagnitude

/-- The number nearest to `numerator / denominator`. -/
def ofRatio (negative : Bool) (numerator denominator : Nat) : Binary64 :=
  ofMagnitude negative (roundUnits (numerator * unitsPerOne) denominator)

/-- The number nearest to `digits` times ten to the power `exponent`. -/
def ofDecimal (negative : Bool) (digits : Nat) (exponent : Int) : Binary64 :=
  let size : Int := (Nat.toDigits 10 digits).length + exponent
  if digits = 0 ∨ size < -400 then zero negative
  else if 400 < size then infinity negative
  else if 0 ≤ exponent then ofRatio negative (digits * Nat.pow 10 exponent.toNat) 1
  else ofRatio negative digits (Nat.pow 10 (-exponent).toNat)

/-- The rounded product of two finite absolute values, as a magnitude. -/
def mulMagnitude (x y : Binary64) : Nat :=
  roundUnits (x.absoluteUnits * y.absoluteUnits) unitsPerOne

/-- The rounded quotient of two finite absolute values, as a magnitude. -/
def divMagnitude (x y : Binary64) : Nat :=
  roundUnits (x.absoluteUnits * unitsPerOne) y.absoluteUnits

/-- Negative zero becomes zero; every other number stays. -/
def withoutNegativeZero (x : Binary64) : Binary64 :=
  if x.isZero then zero false else x

end Binary64

end PartnerSearch
