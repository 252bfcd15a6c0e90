import Mathlib.Order.Monotone.Basic
import Mathlib.Tactic.IntervalCases
import PartnerSearch.Timestamp

set_option autoImplicit false

/-!
The day number of a date against a count of the days one by one. The day after a date has the next
number, and different dates have different numbers; so the number of a date is the count of the days
from the first of January 1970 to it, or to that day from it.
-/

namespace PartnerSearch.Calendar

theorem monotone_daysBeforeYear : Monotone daysBeforeYear :=
  monotone_nat_of_le_succ fun year => daysBeforeYear_succ year ▸ Nat.le_add_right _ _

theorem monotone_daysBeforeMonth (year : Nat) : Monotone (daysBeforeMonth year) :=
  monotone_nat_of_le_succ fun _ => Nat.le_add_right _ _

/-- The months of a year make up the year. -/
theorem daysBeforeMonth_thirteen (year : Nat) : daysBeforeMonth year 13 = yearLength year := by
  unfold yearLength
  cases leap : isLeap year <;> simp [daysBeforeMonth, monthLength, leap]

theorem month_of_monthLength_pos {year month : Nat} (days : 0 < monthLength year month) :
    1 ≤ month ∧ month ≤ 12 := by
  unfold monthLength at days
  split at days <;> simp_all

theorem monthLength_pos {year month : Nat} (first : 1 ≤ month) (last : month ≤ 12) :
    0 < monthLength year month := by
  interval_cases month
  case «2» =>
    rw [monthLength]
    split <;> decide
  all_goals exact Nat.succ_pos _

theorem monthLength_le (year month : Nat) : monthLength year month ≤ 31 := by
  unfold monthLength
  split <;> try decide
  split <;> decide

/-- An amount lies between two neighbours of a growing sequence once at most. -/
theorem eq_of_between {bound : Nat → Nat} (grows : Monotone bound) {place other amount : Nat}
    (least : bound place ≤ amount) (most : amount < bound (place + 1))
    (otherLeast : bound other ≤ amount) (otherMost : amount < bound (other + 1)) : place = other := by
  rcases Nat.lt_trichotomy place other with before | same | after
  · have reached : bound (place + 1) ≤ bound other := grows before
    omega
  · exact same
  · have reached : bound (other + 1) ≤ bound place := grows after
    omega

structure Date where
  year : Nat
  month : Nat
  day : Nat
  deriving DecidableEq, Repr

namespace Date

/-- The month has that day. -/
def Exists (date : Date) : Prop := 1 ≤ date.day ∧ date.day ≤ monthLength date.year date.month

instance (date : Date) : Decidable date.Exists :=
  inferInstanceAs (Decidable (1 ≤ date.day ∧ date.day ≤ monthLength date.year date.month))

/-- The date after a date. -/
def next (date : Date) : Date :=
  if date.day < monthLength date.year date.month then { date with day := date.day + 1 }
  else if date.month < 12 then ⟨date.year, date.month + 1, 1⟩
  else ⟨date.year + 1, 1, 1⟩

def number (date : Date) : Int := dayNumber date.year date.month date.day

variable {date other : Date}

theorem Exists.month (known : date.Exists) : 1 ≤ date.month ∧ date.month ≤ 12 :=
  month_of_monthLength_pos (Nat.le_trans known.1 known.2)

theorem Exists.next (known : date.Exists) : date.next.Exists := by
  obtain ⟨first, -⟩ := known
  unfold Date.next
  split
  · next inside => exact ⟨Nat.le_succ_of_le first, inside⟩
  · split
    · next inside => exact ⟨Nat.le_refl 1, monthLength_pos (Nat.le_add_left 1 _) inside⟩
    · exact ⟨Nat.le_refl 1, monthLength_pos (Nat.le_refl 1) (Nat.le_add_left 1 11)⟩

/-- The days of the year before the date. -/
def dayOfYear (date : Date) : Nat := daysBeforeMonth date.year date.month + (date.day - 1)

theorem Exists.dayOfYear_lt_month (known : date.Exists) :
    date.dayOfYear < daysBeforeMonth date.year (date.month + 1) := by
  obtain ⟨first, last⟩ := known
  rw [dayOfYear, daysBeforeMonth]
  omega

theorem Exists.dayOfYear_lt (known : date.Exists) : date.dayOfYear < yearLength date.year := by
  have later : daysBeforeMonth date.year (date.month + 1) ≤ daysBeforeMonth date.year 13 :=
    monotone_daysBeforeMonth date.year (Nat.succ_le_succ known.month.2)
  rw [daysBeforeMonth_thirteen] at later
  exact Nat.lt_of_lt_of_le known.dayOfYear_lt_month later

theorem number_eq (date : Date) :
    date.number = (daysBeforeYear date.year + date.dayOfYear : Nat) - (epochDay : Int) := by
  rw [number, dayNumber, dayOfYear, Nat.add_assoc]

/-- The day after a date has the next number. -/
theorem Exists.number_next (known : date.Exists) : date.next.number = date.number + 1 := by
  have whole := known.month
  obtain ⟨first, last⟩ := known
  rw [number_eq, number_eq]
  unfold Date.next dayOfYear
  split
  · dsimp only
    omega
  · next full =>
    have lastDay : date.day = monthLength date.year date.month := by omega
    split
    · dsimp only
      rw [daysBeforeMonth]
      omega
    · next december =>
      have twelve : date.month = 12 := by omega
      have months := daysBeforeMonth_thirteen date.year
      rw [daysBeforeMonth] at months
      rw [twelve] at lastDay ⊢
      dsimp only
      rw [daysBeforeYear_succ, show daysBeforeMonth (date.year + 1) 1 = 0 by rfl]
      omega

/-- The days before the date, counted from the first day of year 0, do not reach the next year. -/
theorem Exists.lt_daysBeforeYear (known : date.Exists) :
    daysBeforeYear date.year + date.dayOfYear < daysBeforeYear (date.year + 1) := by
  rw [daysBeforeYear_succ]
  exact Nat.add_lt_add_left known.dayOfYear_lt _

/-- Different dates have different numbers. -/
theorem Exists.eq_of_number (known : date.Exists) (also : other.Exists)
    (same : date.number = other.number) : date = other := by
  rw [number_eq, number_eq] at same
  have total : daysBeforeYear date.year + date.dayOfYear =
      daysBeforeYear other.year + other.dayOfYear := by omega
  have years : date.year = other.year :=
    eq_of_between monotone_daysBeforeYear (Nat.le_add_right _ _) known.lt_daysBeforeYear
      (total ▸ Nat.le_add_right _ _) (total ▸ also.lt_daysBeforeYear)
  have days : date.dayOfYear = other.dayOfYear := by
    rw [years] at total
    exact Nat.add_left_cancel total
  have months : date.month = other.month := by
    have most := also.dayOfYear_lt_month
    rw [← days, ← years] at most
    have least : daysBeforeMonth other.year other.month ≤ other.dayOfYear := Nat.le_add_right _ _
    rw [← days, ← years] at least
    exact eq_of_between (monotone_daysBeforeMonth date.year) (Nat.le_add_right _ _)
      known.dayOfYear_lt_month least most
  obtain ⟨year, month, day⟩ := date
  obtain ⟨otherYear, otherMonth, otherDay⟩ := other
  obtain ⟨first, -⟩ := known
  obtain ⟨otherFirst, -⟩ := also
  dsimp only [dayOfYear] at *
  subst years months
  rw [Nat.add_left_cancel_iff] at days
  obtain rfl : day = otherDay := by omega
  rfl

/-- The first of January 1970. -/
def epoch : Date := ⟨1970, 1, 1⟩

theorem exists_epoch : epoch.Exists := by decide

theorem Exists.iterate (known : date.Exists) (days : Nat) : (Date.next^[days] date).Exists := by
  induction days with
  | zero => exact known
  | succ days ih =>
      rw [Function.iterate_succ_apply']
      exact ih.next

theorem Exists.number_iterate (known : date.Exists) (days : Nat) :
    (Date.next^[days] date).number = date.number + days := by
  induction days with
  | zero => exact (Int.add_zero _).symm
  | succ days ih =>
      rw [Function.iterate_succ_apply', (known.iterate days).number_next, ih]
      push_cast
      omega

/-- Counting the days one by one leads from the first of January 1970 to the date, or from the date to
that day; its number is the count, or in the second case the negative count. -/
def IsDay (date : Date) (number : Int) : Prop :=
  date.Exists ∧ ∃ days : Nat,
    Date.next^[days] epoch = date ∧ number = days ∨ Date.next^[days] date = epoch ∧ number = -days

theorem number_epoch : epoch.number = 0 := by decide

/-- The dates that exist are those that can be counted, and their numbers are their counts. -/
theorem isDay_iff {number : Int} : date.IsDay number ↔ date.Exists ∧ date.number = number := by
  constructor
  · intro counted
    obtain ⟨known, days, ⟨same, rfl⟩ | ⟨same, rfl⟩⟩ := counted
    · have after := exists_epoch.number_iterate days
      rw [same, number_epoch, Int.zero_add] at after
      exact ⟨known, after⟩
    · have before := known.number_iterate days
      rw [same, number_epoch] at before
      exact ⟨known, by omega⟩
  · intro numbered
    obtain ⟨known, rfl⟩ := numbered
    refine ⟨known, date.number.natAbs, ?_⟩
    rcases Int.le_total 0 date.number with after | before
    · refine .inl ⟨(exists_epoch.iterate _).eq_of_number known ?_, by omega⟩
      rw [exists_epoch.number_iterate, number_epoch]
      omega
    · refine .inr ⟨(known.iterate _).eq_of_number exists_epoch ?_, by omega⟩
      rw [known.number_iterate, number_epoch]
      omega

/-- Every number from that of the first day of year 0 on is the number of a date. -/
theorem exists_isDay {number : Int} (least : -(epochDay : Int) ≤ number) :
    ∃ date : Date, date.IsDay number := by
  have known : Date.Exists ⟨0, 1, 1⟩ := by decide
  have start : Date.number ⟨0, 1, 1⟩ = -(epochDay : Int) := by decide
  refine ⟨_, isDay_iff.mpr ⟨known.iterate (number + epochDay).toNat, ?_⟩⟩
  rw [known.number_iterate, start]
  omega

/-- A year is bounded by the numbers of its dates. -/
theorem IsDay.year_lt {number : Int} (counted : date.IsDay number) {year : Nat}
    (before : number < daysBeforeYear year - (epochDay : Int)) : date.year < year := by
  obtain ⟨known, rfl⟩ := isDay_iff.mp counted
  by_contra late
  have reached := monotone_daysBeforeYear (Nat.le_of_not_lt late)
  rw [number_eq] at before
  omega

end Date

end PartnerSearch.Calendar
