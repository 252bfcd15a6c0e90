import PartnerSearch.Json.Value

set_option autoImplicit false

/-!
The value of a JSON number. A number with a point, an exponent or too many digits is a significand of
64 bits scaled by powers of ten, each step rounded.
-/

namespace PartnerSearch.Json.Number

open Binary64 (ofDecimal ofMagnitude mulMagnitude divMagnitude)

def significandLimit : Nat := 0xFFFFFFFFFFFFFFFF

/-- Digits taken into a significand until one does not fit, and how many are left from there on. -/
def accumulate : Nat → List Nat → Nat × Nat
  | significand, [] => (significand, 0)
  | significand, digit :: rest =>
    if significand * 10 + digit ≤ significandLimit then accumulate (significand * 10 + digit) rest
    else (significand, rest.length + 1)

def powerOfTen (power : Nat) : Binary64 := ofDecimal false 1 power

def largestPower : Nat := 308

/-- Divides by ten to the power `power`, in steps of the largest power that is a number. -/
def shrink (x : Binary64) (power : Nat) : Binary64 :=
  if power ≤ largestPower then ofMagnitude false (divMagnitude x (powerOfTen power))
  else if x.isZero then x
  else
    shrink (ofMagnitude false (divMagnitude x (powerOfTen largestPower))) (power - largestPower)
termination_by power
decreasing_by simp only [largestPower] at *; omega

/-- Multiplies by ten to the power `power`, if the product is a number. -/
def grow? (x : Binary64) (power : Nat) : Option Binary64 :=
  if x.isZero then some x
  else if power ≤ largestPower then
    let product := ofMagnitude false (mulMagnitude x (powerOfTen power))
    if product.isFinite then some product else none
  else none

def scale? (negative : Bool) (significand : Nat) (exponent : Int) : Option Binary64 :=
  let x := ofDecimal false significand 0
  let scaled := if 0 ≤ exponent then grow? x exponent.toNat else some (shrink x (-exponent).toNat)
  scaled.map fun y => ofMagnitude negative y.magnitude

/-- The number written with these digits before and after the point and this exponent, if it is in
range. -/
def ofParts? (negative : Bool) (whole : List Nat) (fraction : Option (List Nat))
    (exponent : Option Int) : Option Number :=
  let (integral, dropped) := accumulate 0 whole
  match fraction, exponent with
  | none, none =>
    if dropped = 0 ∧ negative = false then some (.integer integral)
    else if dropped = 0 ∧ 0 < integral ∧ integral ≤ 0x8000000000000000 then some (.integer (-integral))
    else (scale? negative integral dropped).map .real
  | fraction, exponent =>
    let places := fraction.getD []
    let (significand, ignored) := accumulate integral places
    let kept : Int := places.length - ignored
    (scale? negative significand (dropped - kept + exponent.getD 0)).map .real

end PartnerSearch.Json.Number
