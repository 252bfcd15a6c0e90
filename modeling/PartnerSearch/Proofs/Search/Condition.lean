import PartnerSearch.Proofs.Search.Compilation
import PartnerSearch.Proofs.Sql.Binds
import PartnerSearch.Proofs.Sql.Text

set_option autoImplicit false

/-!
The condition that a filter puts on a column. The operator and the number of operands decide its
form, and its values are the operands as the strategy reads them.
-/

namespace PartnerSearch

open Sql

namespace Filter

/-- The values that the operator uses. -/
def operands (filter : Filter) : List String :=
  match filter.operator with
  | .set | .notSet => []
  | .within => filter.values
  | .between => [filter.values.headD "", filter.values.getD 1 ""]
  | _ => [filter.values.headD ""]

theorem operator_admits_of_checkValueCount {filter : Filter}
    (counted : filter.checkValueCount = .ok ()) :
    filter.operator.valueCount.admits filter.values.length = true := by
  unfold checkValueCount at counted
  dsimp only at counted
  split at counted
  · assumption
  · cases counted

theorem headD_prefix {values : List String} (some_value : values ≠ []) :
    [values.headD ""] <+: values := by
  cases values with
  | nil => exact absurd rfl some_value
  | cons first rest => exact ⟨rest, rfl⟩

/-- With enough values the operands are values of the filter, the first ones in their order. -/
theorem operands_prefix {filter : Filter} (counted : filter.checkValueCount = .ok ()) :
    filter.operands <+: filter.values := by
  have admitted := operator_admits_of_checkValueCount counted
  have single (one : filter.operator.valueCount = .one) :
      [filter.values.headD ""] <+: filter.values := by
    apply headD_prefix
    intro none
    rw [one, none] at admitted
    cases admitted
  unfold operands
  split
  case h_1 => exact List.nil_prefix
  case h_2 => exact List.nil_prefix
  case h_3 => exact List.prefix_rfl
  case h_4 between =>
      rw [between] at admitted
      have pair : filter.values.length = 2 := by
        simpa [Operator.valueCount, ValueCount.admits] using admitted
      obtain ⟨low, high, same⟩ := List.length_eq_two.mp pair
      rw [same]
      exact List.prefix_rfl
  case h_5 noSet noNotSet noWithin noBetween =>
      apply single
      cases operator : filter.operator with
      | set => exact absurd operator noSet
      | notSet => exact absurd operator noNotSet
      | within => exact absurd operator noWithin
      | between => exact absurd operator noBetween
      | _ => rfl

end Filter

/-- The condition of an operator with that many blank operands. -/
def Operator.bareCondition (operands : Nat) : Operator → Condition
  | .equals => .compare .equal Condition.blank
  | .notEquals => .compare .notEqual Condition.blank
  | .within => .within (List.replicate operands Condition.blank)
  | .greater => .compare .greater Condition.blank
  | .greaterOrEqual => .compare .greaterOrEqual Condition.blank
  | .less => .compare .less Condition.blank
  | .lessOrEqual => .compare .lessOrEqual Condition.blank
  | .contains => .contains ""
  | .set => .set
  | .notSet => .notSet
  | .between => .between Condition.blank Condition.blank

namespace Strategy

/-- What an operand becomes as a bind. -/
def Reads (strategy : Strategy) (filter : Filter) (raw : String) (value : Value) : Prop :=
  if filter.operator = .contains then value = .text (Pattern.containing raw)
  else strategy.convert filter.member raw = .ok value

variable {strategy : Strategy} {filter : Filter} {condition : Condition}

theorem reads_of_convert {raw : String} {value : Value} (other : filter.operator ≠ .contains)
    (read : strategy.convert filter.member raw = .ok value) : strategy.Reads filter raw value := by
  rw [Reads, if_neg other]
  exact read

/-- A condition has the form of its operator, and its values are the operands that were read. -/
theorem condition_ok (success : strategy.condition filter = .ok condition) :
    condition.bare = filter.operator.bareCondition filter.operands.length ∧
      List.Forall₂ (strategy.Reads filter) filter.operands condition.values := by
  have compared {comparison : Comparison}
      (success : strategy.compareFirst filter.member comparison (filter.values.headD "") =
        .ok condition) (other : filter.operator ≠ .contains) :
      condition.bare = .compare comparison Condition.blank ∧
        List.Forall₂ (strategy.Reads filter) [filter.values.headD ""] condition.values := by
    obtain ⟨value, read, rfl⟩ := Outcome.map_eq_ok.mp success
    exact ⟨rfl, .cons (reads_of_convert other read) .nil⟩
  unfold Strategy.condition at success
  unfold Filter.operands
  cases operator : filter.operator with
  | within =>
      rw [operator] at success
      obtain ⟨values, read, rfl⟩ := Outcome.map_eq_ok.mp success
      have each := Outcome.mapM_eq_ok.mp read
      refine ⟨?_, each.imp fun raw value => reads_of_convert (by simp [operator])⟩
      rw [Condition.bare, List.map_const', ← each.length_eq]
      rfl
  | contains =>
      rw [operator] at success
      cases success
      refine ⟨rfl, .cons ?_ .nil⟩
      rw [Reads, if_pos operator]
  | set =>
      rw [operator] at success
      cases success
      exact ⟨rfl, .nil⟩
  | notSet =>
      rw [operator] at success
      cases success
      exact ⟨rfl, .nil⟩
  | between =>
      rw [operator] at success
      simp only [Outcome.bind_eq_ok, Outcome.pure_eq_ok] at success
      obtain ⟨low, readLow, high, readHigh, rfl⟩ := success
      have other : filter.operator ≠ .contains := by simp [operator]
      have lowReads := reads_of_convert other readLow
      have highReads := reads_of_convert other readHigh
      exact ⟨rfl, .cons lowReads (.cons highReads .nil)⟩
  | equals =>
      rw [operator] at success
      exact compared success (by simp [operator])
  | notEquals =>
      rw [operator] at success
      exact compared success (by simp [operator])
  | greater =>
      rw [operator] at success
      exact compared success (by simp [operator])
  | greaterOrEqual =>
      rw [operator] at success
      exact compared success (by simp [operator])
  | less =>
      rw [operator] at success
      exact compared success (by simp [operator])
  | lessOrEqual =>
      rw [operator] at success
      exact compared success (by simp [operator])

end Strategy

end PartnerSearch
