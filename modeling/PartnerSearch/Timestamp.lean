import PartnerSearch.Text.Integer

set_option autoImplicit false

/-!
Points in time written as RFC 3339 text, counted in nanoseconds from 1970-01-01T00:00:00Z in the
proleptic Gregorian calendar.
-/

namespace PartnerSearch

open Text (digit?)

namespace Calendar

def isLeap (year : Nat) : Bool := year % 4 == 0 && (year % 100 != 0 || year % 400 == 0)

/-- The days of a month; there are none in a month that does not exist. -/
def monthLength (year month : Nat) : Nat :=
  match month with
  | 1 | 3 | 5 | 7 | 8 | 10 | 12 => 31
  | 4 | 6 | 9 | 11 => 30
  | 2 => if isLeap year then 29 else 28
  | _ => 0

def yearLength (year : Nat) : Nat := if isLeap year then 366 else 365

/-- The multiples of `step` below `year`. -/
def multiplesBelow (step year : Nat) : Nat := (year + (step - 1)) / step

/-- The days from the first day of year 0 to the first day of `year`. -/
def daysBeforeYear (year : Nat) : Nat :=
  365 * year + multiplesBelow 4 year + multiplesBelow 400 year - multiplesBelow 100 year

/-- The days of `year` before its month `month`. -/
def daysBeforeMonth (year : Nat) : Nat → Nat
  | 0 => 0
  | month + 1 => daysBeforeMonth year month + monthLength year month

theorem multiplesBelow_succ {step : Nat} (positive : 0 < step) (year : Nat) :
    multiplesBelow step (year + 1) =
      multiplesBelow step year + if year % step = 0 then 1 else 0 := by
  unfold multiplesBelow
  rw [show year + 1 + (step - 1) = year + step by omega, Nat.add_div_right year positive]
  have parts := Nat.div_add_mod year step
  have small := Nat.mod_lt year positive
  have shift : year + (step - 1) = (year % step + (step - 1)) + step * (year / step) := by omega
  rw [shift, Nat.add_mul_div_left _ _ positive]
  split
  · next zero => simp [zero, Nat.div_eq_of_lt (show step - 1 < step by omega)]
  · next more =>
    have none : (year % step - 1) / step = 0 := Nat.div_eq_of_lt (by omega)
    rw [show year % step + (step - 1) = (year % step - 1) + step by omega,
      Nat.add_div_right _ positive, none]
    omega

theorem daysBeforeYear_succ (year : Nat) :
    daysBeforeYear (year + 1) = daysBeforeYear year + yearLength year := by
  unfold daysBeforeYear yearLength isLeap
  have fewer : multiplesBelow 100 year ≤ 365 * year := by unfold multiplesBelow; omega
  rw [multiplesBelow_succ (by decide), multiplesBelow_succ (by decide),
    multiplesBelow_succ (by decide)]
  generalize multiplesBelow 100 year = centuries at *
  by_cases four : year % 4 = 0 <;> by_cases hundred : year % 100 = 0 <;>
    by_cases fourHundred : year % 400 = 0 <;> simp [four, hundred, fourHundred] <;> omega

/-- The first day of 1970, counted from the first day of year 0. -/
def epochDay : Nat := 719528

theorem daysBeforeYear_epoch : daysBeforeYear 1970 = epochDay := by decide

/-- The day number of a date; the first of January 1970 is day 0. -/
def dayNumber (year month day : Nat) : Int :=
  (daysBeforeYear year + daysBeforeMonth year month + (day - 1) : Nat) - (epochDay : Int)

end Calendar

/-- A date and time of day with its offset from universal time, in minutes. -/
structure Timestamp where
  year : Nat
  month : Nat
  day : Nat
  hour : Nat
  minute : Nat
  second : Nat
  nanosecond : Nat
  offset : Int
  deriving DecidableEq, Repr

namespace Timestamp

/-- The date exists, and the second of the minute may be a leap second. -/
def isValid (time : Timestamp) : Bool :=
  1 ≤ time.day && time.day ≤ Calendar.monthLength time.year time.month && time.hour < 24 &&
    time.minute < 60 && time.second ≤ 60

/-- Nanoseconds since the epoch. A leap second counts as the second after it. -/
def nanoseconds (time : Timestamp) : Int :=
  let seconds := Calendar.dayNumber time.year time.month time.day * 86400 +
    time.hour * 3600 + (time.minute - time.offset) * 60 + time.second
  seconds * 1000000000 + time.nanosecond

/-- Exactly `count` digits. -/
def readDigits? : Nat → Nat → List Char → Option (Nat × List Char)
  | 0, value, rest => some (value, rest)
  | _ + 1, _, [] => none
  | count + 1, value, c :: rest =>
    (digit? c).bind fun digit => readDigits? count (value * 10 + digit) rest

def readChar? (allowed : List Char) : List Char → Option (List Char)
  | [] => none
  | c :: rest => if c ∈ allowed then some rest else none

/-- The digits after the point: the first nine count. -/
def readFraction? (text : List Char) : Option (Nat × List Char) :=
  let digits := text.takeWhile fun c => (digit? c).isSome
  if digits.isEmpty then none
  else
    (readDigits? 9 0 (digits.take 9 ++ List.replicate (9 - digits.length) '0')).map
      fun (value, _) => (value, text.dropWhile fun c => (digit? c).isSome)

/-- The sign of an offset; the typographic minus is one too. -/
def readSign? : List Char → Option (Int × List Char)
  | '+' :: rest => some (1, rest)
  | '-' :: rest => some (-1, rest)
  | '\u2212' :: rest => some (-1, rest)
  | _ => none

def readOffset? (text : List Char) : Option (Int × List Char) :=
  match text with
  | 'Z' :: rest => some (0, rest)
  | 'z' :: rest => some (0, rest)
  | text => do
    let (sign, text) ← readSign? text
    let (hours, text) ← readDigits? 2 0 text
    let text ← readChar? [':'] text
    let (minutes, text) ← readDigits? 2 0 text
    if hours < 24 ∧ minutes < 60 then some (sign * (hours * 60 + minutes : Nat), text) else none

/-- Reads a date, a separator, a time of day and an offset. -/
def read? (text : List Char) : Option Timestamp := do
  let (year, text) ← readDigits? 4 0 text
  let text ← readChar? ['-'] text
  let (month, text) ← readDigits? 2 0 text
  let text ← readChar? ['-'] text
  let (day, text) ← readDigits? 2 0 text
  let text ← readChar? ['T', 't', ' '] text
  let (hour, text) ← readDigits? 2 0 text
  let text ← readChar? [':'] text
  let (minute, text) ← readDigits? 2 0 text
  let text ← readChar? [':'] text
  let (second, text) ← readDigits? 2 0 text
  let (nanosecond, text) ← match text with
    | '.' :: fraction => readFraction? fraction
    | text => some (0, text)
  let (offset, text) ← readOffset? text
  let time : Timestamp := ⟨year, month, day, hour, minute, second, nanosecond, offset⟩
  if text.isEmpty ∧ time.isValid then some time else none

/-- Reads the nanoseconds themselves or the text of an instant that 64 bits can count. -/
def readNanoseconds? (text : List Char) : Option Int64 :=
  match Text.readInt64 text with
  | .ok value => some value
  | .error _ => do
    let value := (← read? text).nanoseconds
    if Int64.minValue.toInt ≤ value ∧ value ≤ Int64.maxValue.toInt then some (Int64.ofInt value)
    else none

end Timestamp

end PartnerSearch
