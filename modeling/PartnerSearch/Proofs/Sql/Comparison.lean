import PartnerSearch.Proofs.Outcome
import PartnerSearch.Sql.Evaluation
import PartnerSearch.Strategy

set_option autoImplicit false

/-!
How the comparisons of a cell with an operand hang together. A set operand and a cell have an order,
or the cell is unset; every comparison can be read off from that.
-/

namespace PartnerSearch

open Sql

namespace Sql

variable {cell other : Cell}

/-- With a set operand only an unset cell has no order. -/
theorem Cell.order?_eq_none (operand : other ≠ .null) : cell.order? other = none ↔ cell = .null := by
  constructor
  · intro unordered
    cases cell with
    | null => rfl
    | _ =>
        cases other with
        | null => exact absurd rfl operand
        | _ => simp [order?] at unordered
  · intro unset
    rw [unset]
    rfl

/-- A test of the order fails for cells without one. -/
theorem Truth.holds_map_order (test : Ordering → Bool) :
    holds ((cell.order? other).map test) = (cell.order? other).any test := by
  cases cell.order? other with
  | none => rfl
  | some order => cases decided : test order <;> simp [holds, decided]

theorem holds_equal :
    (compare .equal cell other).holds = true ↔ cell.order? other = some .eq := by
  rw [compare, Cell.equal, Truth.holds_map_order, Option.any_eq_true]
  simp

theorem holds_less : (compare .less cell other).holds = true ↔ cell.order? other = some .lt := by
  rw [compare, Truth.holds_map_order, Option.any_eq_true]
  simp

theorem holds_greater :
    (compare .greater cell other).holds = true ↔ cell.order? other = some .gt := by
  rw [compare, Truth.holds_map_order, Option.any_eq_true]
  simp

/-- To differ from a set operand is not to be equal to it, also for an unset cell. -/
theorem holds_notEqual (operand : other ≠ .null) :
    (compare .notEqual cell other).holds = true ↔ cell.order? other ≠ some .eq := by
  have unset : (other == .null) = false := beq_false_of_ne operand
  cases found : cell.order? other with
  | none => simp [compare, Cell.same, found, unset, Truth.holds]
  | some order => simp [compare, Cell.same, found, Truth.holds]

theorem holds_greaterOrEqual :
    (compare .greaterOrEqual cell other).holds = true ↔
      (compare .greater cell other).holds = true ∨ (compare .equal cell other).holds = true := by
  rw [holds_greater, holds_equal, compare, Truth.holds_map_order]
  cases cell.order? other with
  | none => simp
  | some order => cases order <;> simp

theorem holds_lessOrEqual :
    (compare .lessOrEqual cell other).holds = true ↔
      (compare .less cell other).holds = true ∨ (compare .equal cell other).holds = true := by
  rw [holds_less, holds_equal, compare, Truth.holds_map_order]
  cases cell.order? other with
  | none => simp
  | some order => cases order <;> simp

theorem holds_within (values : List Value) :
    (satisfies (.within values) cell).holds = true ↔
      ∃ value ∈ values, (satisfies (.compare .equal value) cell).holds = true := by
  rw [satisfies, Truth.holds_any, List.any_map, List.any_eq_true]
  rfl

end Sql

theorem Binary64.not_isNaN_of_isFinite {number : Binary64} (finite : number.isFinite = true) :
    number.isNaN = false := by
  simp only [isFinite, isNaN, decide_eq_true_eq, decide_eq_false_iff_not] at finite ⊢
  omega

namespace Strategy

variable {strategy : Strategy} {member raw : String} {value : Value}

theorem finite_of_read? {number : Binary64} (read : strategy.read? raw = some (.real number)) :
    number.isFinite = true := by
  cases strategy with
  | real =>
      obtain ⟨found, -, taken⟩ := Option.bind_eq_some_iff.mp read
      split at taken
      · rename_i finite
        cases taken
        exact finite
      · cases taken
  | integer =>
      dsimp only [read?, readInteger?] at read
      split at read <;> cases read
  | boolean =>
      dsimp only [read?, readBoolean?] at read
      split at read <;> cases read
  | enumeration name variants =>
      dsimp only [read?] at read
      split at read <;> cases read
  | text => simp [read?] at read
  | timestamp => simp [read?] at read
  | uuid => simp [read?] at read

theorem eq_text_or_read?_of_convert (converted : strategy.convert member raw = .ok value) :
    value = .text raw ∨ strategy.read? raw = some value := by
  unfold convert at converted
  split at converted
  · rename_i found read
    cases converted
    exact .inr read
  · cases converted
  · cases converted
    exact .inl rfl

/-- What a value converts to is stored as a set cell: no number that is read is undefined. -/
theorem set_of_convert (converted : strategy.convert member raw = .ok value) :
    Cell.ofValue value ≠ .null := by
  cases value with
  | text text => simp [Cell.ofValue]
  | integer number => simp [Cell.ofValue]
  | boolean truth => simp [Cell.ofValue]
  | real number =>
      rcases eq_text_or_read?_of_convert converted with impossible | read
      · cases impossible
      · have defined := Binary64.not_isNaN_of_isFinite (finite_of_read? read)
        simp [Cell.ofValue, defined]

end Strategy

end PartnerSearch
