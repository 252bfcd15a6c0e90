import PartnerSearch.Number.Binary64
import PartnerSearch.Text.Integer

set_option autoImplicit false

/-!
Decimal text of binary64 numbers: reading with correct rounding, the fewest digits that read back,
and the layout of those digits.
-/

namespace PartnerSearch

open Text (digit?)

namespace Binary64

def digitsValue (digits : List Char) : Nat :=
  digits.foldl (fun value c => value * 10 + (digit? c).getD 0) 0

def isDigit (c : Char) : Bool := (digit? c).isSome

/-- The exponent mark and a signed integer, or nothing. -/
def readExponent? : List Char → Option Int
  | [] => some 0
  | mark :: text =>
    if mark.toLower != 'e' then none
    else
      let (negative, digits) := match text with
        | '-' :: digits => (true, digits)
        | '+' :: digits => (false, digits)
        | digits => (false, digits)
      if digits.isEmpty || !digits.all isDigit then none
      else
        let value : Int := digitsValue digits
        some (if negative then -value else value)

/-- Digits with at most one point and at least one digit, then an optional exponent. -/
def readUnsigned? (negative : Bool) (text : List Char) : Option Binary64 :=
  let whole := text.takeWhile isDigit
  let (fraction, rest) := match text.dropWhile isDigit with
    | '.' :: rest => (rest.takeWhile isDigit, rest.dropWhile isDigit)
    | rest => ([], rest)
  if whole.isEmpty && fraction.isEmpty then none
  else (readExponent? rest).map fun exponent =>
    ofDecimal negative (digitsValue (whole ++ fraction)) (exponent - fraction.length)

def readSpecial? (negative : Bool) (text : List Char) : Option Binary64 :=
  let name := String.ofList (text.map Char.toLower)
  if name == "inf" || name == "infinity" then some (infinity negative)
  else if name == "nan" then some nan
  else none

/-- Reads a decimal number with an optional sign; infinities and not-a-number go by name. -/
def read? (text : List Char) : Option Binary64 :=
  let (negative, unsigned) := match text with
    | '-' :: rest => (true, rest)
    | '+' :: rest => (false, rest)
    | rest => (false, rest)
  (readSpecial? negative unsigned).orElse fun _ => readUnsigned? negative unsigned

/-- The power of ten of the leading digit of `units` units. -/
def leadingPower (units : Nat) : Int :=
  if unitsPerOne ≤ units then ((Nat.toDigits 10 (units / unitsPerOne)).length : Int) - 1
  else
    let zeros := (List.range 330).find? fun zeros =>
      unitsPerOne ≤ units * Nat.pow 10 (zeros + 1)
    .negSucc (zeros.getD 330)

/-- The two neighbours of a number among the multiples of ten to the power `power`: the lower one,
whether the upper one is nearer, and whether both are equally near. -/
def gridBelow (units : Nat) (power : Int) : Nat × Bool × Bool :=
  let numerator := if 0 ≤ power then units else units * Nat.pow 10 (-power).toNat
  let step := if 0 ≤ power then unitsPerOne * Nat.pow 10 power.toNat else unitsPerOne
  let twice := 2 * (numerator % step)
  (numerator / step, step < twice, step == twice)

/-- A power of ten is one digit, however many places the grid has. -/
def onGrid (count digits : Nat) (power : Int) : Nat × Int :=
  if digits = Nat.pow 10 count then (1, power + count) else (digits, power)

/-- The first grid, from `count` digits on, on which a neighbour of the number reads back. -/
def shortestFrom (x : Binary64) : Nat → Nat → Nat × Int
  | 0, count => (x.absoluteUnits / unitsPerOne, count)
  | tries + 1, count =>
    let power := leadingPower x.absoluteUnits + 1 - count
    let (below, upperNearer, tie) := gridBelow x.absoluteUnits power
    let readsBack := fun digits => (ofDecimal false digits power).magnitude == x.magnitude
    let upperFirst := upperNearer || (tie && below % 2 == 1)
    let (first, second) := if upperFirst then (below + 1, below) else (below, below + 1)
    if readsBack first then onGrid count first power
    else if readsBack second then onGrid count second power
    else shortestFrom x tries (count + 1)

/-- The fewest decimal digits that read back as a finite number other than zero, and the power of ten
of the last of them. -/
def shortest (x : Binary64) : Nat × Int := shortestFrom x 17 1

end Binary64

/-- How digits are laid out: positional notation between two decimal exponents, and an exponent
otherwise. -/
structure DecimalLayout where
  lowestPositional : Int
  highestPositional : Int
  plusInExponent : Bool

namespace DecimalLayout

def exponentText (layout : DecimalLayout) (exponent : Int) : String :=
  (if exponent < 0 then "e-" else if layout.plusInExponent then "e+" else "e") ++
    toString exponent.natAbs

/-- Writes `digits` times ten to the power `power`; positional notation has a digit on both sides of
the point. -/
def write (layout : DecimalLayout) (digits : Nat) (power : Int) : String :=
  let text := Nat.toDigits 10 digits
  let exponent : Int := text.length - 1 + power
  let zeros := fun (count : Int) => List.replicate count.toNat '0'
  if layout.lowestPositional ≤ exponent ∧ exponent ≤ layout.highestPositional then
    String.ofList <|
      if 0 ≤ power then text ++ zeros power ++ ['.', '0']
      else if 0 ≤ exponent then
        let (whole, fraction) := text.splitAt (exponent + 1).toNat
        whole ++ '.' :: fraction
      else ['0', '.'] ++ zeros (-exponent - 1) ++ text
  else
    let mantissa := match text with
      | first :: second :: rest => first :: '.' :: second :: rest
      | text => text
    String.ofList mantissa ++ layout.exponentText exponent

/-- The text of a finite number. -/
def render (layout : DecimalLayout) (x : Binary64) : String :=
  let absolute :=
    if x.isZero then "0.0"
    else
      let (digits, power) := x.shortest
      layout.write digits power
  if x.isNegative then "-" ++ absolute else absolute

end DecimalLayout

end PartnerSearch
