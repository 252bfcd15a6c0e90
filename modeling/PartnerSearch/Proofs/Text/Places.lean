import Mathlib.Algebra.Order.Group.Nat

set_option autoImplicit false

/-!
Numbers written with a fixed count of digits, the highest first. The digit in front stands for the
quotient by the value of its place, and the others for the remainder.
-/

namespace PartnerSearch.Text

/-- The last `count` digits of a number. -/
def places (base : Nat) (symbol : Nat → Char) : Nat → Nat → List Char
  | 0, _ => []
  | count + 1, number => symbol (number / base ^ count % base) :: places base symbol count number

variable {base : Nat} {symbol : Nat → Char}

@[simp] theorem length_places (count number : Nat) :
    (places base symbol count number).length = count := by
  induction count with
  | zero => rfl
  | succ count ih => rw [places, List.length_cons, ih]

theorem exists_of_mem_places (positive : 0 < base) {count number : Nat} {c : Char}
    (member : c ∈ places base symbol count number) : ∃ digit < base, c = symbol digit := by
  induction count with
  | zero => cases member
  | succ count ih =>
      rcases List.mem_cons.mp member with first | later
      · exact ⟨_, Nat.mod_lt _ positive, first⟩
      · exact ih later

/-- Appending the digit in front and then the others appends the number. -/
theorem append_front_digit (value count number : Nat) :
    (value * base + number / base ^ count) * base ^ count + number % base ^ count =
      value * base ^ (count + 1) + number := by
  calc (value * base + number / base ^ count) * base ^ count + number % base ^ count
      = value * base * base ^ count +
          (base ^ count * (number / base ^ count) + number % base ^ count) := by
        rw [Nat.add_mul, Nat.mul_comm (number / _), Nat.add_assoc]
    _ = value * base ^ (count + 1) + number := by
        rw [Nat.div_add_mod, Nat.pow_succ', Nat.mul_assoc]

theorem places_eq_map_range (count number : Nat) :
    places base symbol count number =
      (List.range count).map fun place => symbol (number / base ^ (count - 1 - place) % base) := by
  induction count with
  | zero => rfl
  | succ count ih =>
      have later (place : Nat) : count + 1 - 1 - (place + 1) = count - 1 - place := by omega
      rw [places, ih, List.range_succ_eq_map, List.map_cons, List.map_map]
      simp only [Function.comp_def, Nat.succ_eq_add_one, later]
      rfl

/-- What stands in higher places does not count. -/
theorem places_mod_pow (count number : Nat) :
    places base symbol count (number % base ^ count) = places base symbol count number := by
  have digit (lower more : Nat) :
      number % base ^ (lower + (more + 1)) / base ^ lower % base = number / base ^ lower % base := by
    rw [Nat.pow_add, Nat.mod_mul_right_div_self,
      Nat.mod_mod_of_dvd _ (Nat.pow_succ base more ▸ Nat.dvd_mul_left base _)]
  rw [places_eq_map_range, places_eq_map_range]
  refine List.map_congr_left fun place member => ?_
  have below := List.mem_range.mp member
  have whole : count = count - 1 - place + (place + 1) := by omega
  have same := digit (count - 1 - place) place
  rw [← whole] at same
  rw [same]

theorem places_succ {count number : Nat} (small : number < base ^ (count + 1)) :
    places base symbol (count + 1) number =
      symbol (number / base ^ count) :: places base symbol count (number % base ^ count) := by
  rw [places, places_mod_pow,
    Nat.mod_eq_of_lt (Nat.div_lt_of_lt_mul (by rwa [Nat.pow_succ] at small))]

/-- The last digit is the remainder by the base, and those before it are the digits of the quotient. -/
theorem places_succ_last (count number : Nat) :
    places base symbol (count + 1) number =
      places base symbol count (number / base) ++ [symbol (number % base)] := by
  induction count generalizing number with
  | zero => rw [places, places, places, Nat.pow_zero, Nat.div_one, List.nil_append]
  | succ count ih =>
      rw [places, ih, places, List.cons_append, Nat.div_div_eq_div_mul, Nat.pow_succ']

/-- The first digits are those of the quotient by the value of the place behind them. -/
theorem places_add (front back number : Nat) :
    places base symbol (front + back) number =
      places base symbol front (number / base ^ back) ++ places base symbol back number := by
  induction back generalizing number with
  | zero => rw [Nat.add_zero, Nat.pow_zero, Nat.div_one, places, List.append_nil]
  | succ back ih =>
      rw [← Nat.add_assoc, places_succ_last, ih, places_succ_last, List.append_assoc,
        Nat.div_div_eq_div_mul, Nat.pow_succ']

theorem places_zero (count : Nat) :
    places base symbol count 0 = List.replicate count (symbol 0) := by
  induction count with
  | zero => rfl
  | succ count ih => rw [places, ih, Nat.zero_div, Nat.zero_mod, List.replicate_succ]

/-- A number with one place more is a digit in front and a number. -/
theorem exists_front_digit {count : Nat} {holds : Nat → Nat → Prop} :
    (∃ digit < base, ∃ rest < base ^ count, holds digit rest) ↔
      ∃ number < base ^ (count + 1), holds (number / base ^ count) (number % base ^ count) := by
  constructor
  · intro split
    obtain ⟨digit, digitSmall, rest, small, held⟩ := split
    have positive : 0 < base ^ count := Nat.lt_of_le_of_lt (Nat.zero_le rest) small
    refine ⟨base ^ count * digit + rest, ?_, ?_⟩
    · calc base ^ count * digit + rest < base ^ count * digit + base ^ count := by omega
        _ = base ^ count * (digit + 1) := (Nat.mul_succ _ _).symm
        _ ≤ base ^ count * base := Nat.mul_le_mul_left _ digitSmall
        _ = base ^ (count + 1) := (Nat.pow_succ ..).symm
    · rwa [Nat.mul_add_div positive, Nat.div_eq_of_lt small, Nat.add_zero, Nat.mul_add_mod,
        Nat.mod_eq_of_lt small]
  · intro whole
    obtain ⟨number, small, held⟩ := whole
    have positive : 0 < base ^ (count + 1) := Nat.lt_of_le_of_lt (Nat.zero_le number) small
    rw [Nat.pow_succ] at small positive
    exact ⟨_, Nat.div_lt_of_lt_mul small, _,
      Nat.mod_lt _ (Nat.pos_of_mul_pos_right positive), held⟩

end PartnerSearch.Text
