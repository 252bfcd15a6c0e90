import PartnerSearch.Value

set_option autoImplicit false

/-!
Stored values and their comparison in three-valued logic: a comparison with an unset cell is neither
true nor false.
-/

namespace PartnerSearch.Sql

/-- A truth value; `none` is unknown. -/
abbrev Truth := Option Bool

namespace Truth

def and : Truth → Truth → Truth
  | some false, _ => some false
  | _, some false => some false
  | some true, other => other
  | none, _ => none

def or : Truth → Truth → Truth
  | some true, _ => some true
  | _, some true => some true
  | some false, other => other
  | none, _ => none

def all (truths : List Truth) : Truth := truths.foldr and (some true)

def any (truths : List Truth) : Truth := truths.foldr or (some false)

/-- Only what is true selects a row. -/
def holds (truth : Truth) : Bool := truth == some true

theorem holds_eq_true {truth : Truth} : truth.holds = true ↔ truth = some true := beq_iff_eq

theorem holds_some (decided : Bool) : holds (some decided) = decided := by
  cases decided <;> rfl

@[simp] theorem holds_and (a b : Truth) : (a.and b).holds = (a.holds && b.holds) := by
  rcases a with _ | _ | _ <;> rcases b with _ | _ | _ <;> rfl

@[simp] theorem holds_or (a b : Truth) : (a.or b).holds = (a.holds || b.holds) := by
  rcases a with _ | _ | _ <;> rcases b with _ | _ | _ <;> rfl

@[simp] theorem holds_all (truths : List Truth) : (all truths).holds = truths.all holds := by
  induction truths with
  | nil => rfl
  | cons truth rest ih => simpa [all] using congrArg (truth.holds && ·) ih

@[simp] theorem holds_any (truths : List Truth) : (any truths).holds = truths.any holds := by
  induction truths with
  | nil => rfl
  | cons truth rest ih => simpa [any] using congrArg (truth.holds || ·) ih

end Truth

inductive Cell where
  | null
  | integer (value : Int64)
  | real (value : Binary64)
  | text (value : String)
  deriving DecidableEq, Repr

namespace Cell

/-- A number in units of 2 to the power -1074; text has no size. -/
def units? : Cell → Option Int
  | .integer value => some (value.toInt * Binary64.unitsPerOne)
  | .real value => some value.units
  | _ => none

/-- How two set cells compare: numbers by size and before text, text by code points. -/
def order? : Cell → Cell → Option Ordering
  | .null, _ => none
  | _, .null => none
  | .text a, .text b => some (compareOfLessAndEq a b)
  | .text _, _ => some .gt
  | _, .text _ => some .lt
  | a, b => some (compareOfLessAndEq (a.units?.getD 0) (b.units?.getD 0))

def equal (a b : Cell) : Truth := (a.order? b).map fun order => order == .eq

/-- Two unset cells are the same, and an unset cell differs from every set one. -/
def same (a b : Cell) : Bool :=
  match a.order? b with
  | some order => order == .eq
  | none => a == .null && b == .null

/-- A value as it is stored: truth values are numbers, and what is not a number is unset. -/
def ofValue : Value → Cell
  | .text value => .text value
  | .integer value => .integer value
  | .real value => if value.isNaN then .null else .real value
  | .boolean value => .integer (if value then 1 else 0)

def ofText? (text : Option String) : Cell := text.elim .null .text

end Cell

end PartnerSearch.Sql
