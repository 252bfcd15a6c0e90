import PartnerSearch.Directory.Schema
import PartnerSearch.Proofs.Search.Refusal

set_option autoImplicit false

/-!
A search fails for the first of its filters that fails by itself, wherever in the tree it stands. What
the operator of a filter does not use plays no part in it.
-/

namespace PartnerSearch

variable {registry : Registry} {schema : Schema} {root : Fin schema.size}

/-- The operator uses the value at this position. -/
def Operator.uses (operator : Operator) (position : Nat) : Bool :=
  match operator with
  | .set | .notSet => false
  | .within => true
  | .between => position < 2
  | _ => position == 0

namespace Filter

/-- The filters differ in values that their operator does not use, at most. A range also asks for the
number of its values. -/
structure UsesAlike (filter other : Filter) : Prop where
  member : filter.member = other.member
  operator : filter.operator = other.operator
  values : ∀ position, filter.operator.uses position = true →
    filter.values[position]? = other.values[position]?
  paired : filter.operator = .between → filter.values.length = other.values.length

/-- Compiling looks at values to count them and to read them for the condition. -/
theorem compile_eq_of_values {member : String} {operator : Operator} {values others : List String}
    (counted : (mk member operator values).checkValueCount =
      (mk member operator others).checkValueCount)
    (conditioned : ∀ strategy : Strategy, strategy.condition (mk member operator values) =
      strategy.condition (mk member operator others)) :
    (mk member operator values).compile registry schema root =
      (mk member operator others).compile registry schema root := by
  refine Outcome.bind_congr fun resolved _ => ?_
  cases resolved with
  | column path =>
      refine Outcome.bind_congr fun strategy _ => ?_
      rw [Strategy.build_eq, Strategy.build_eq, counted, conditioned]
  | relation path => rfl

theorem headD_eq_getElem? (values : List String) : values.headD "" = values[0]?.getD "" := by
  cases values <;> rfl

theorem compile_eq_of_usesAlike {filter other : Filter} (alike : filter.UsesAlike other) :
    filter.compile registry schema root = other.compile registry schema root := by
  obtain ⟨member, operator, values⟩ := filter
  obtain ⟨_, _, others⟩ := other
  obtain ⟨rfl, rfl, used, paired⟩ := alike
  dsimp only at used paired
  have counted (one : operator.valueCount = .one) (first : values[0]? = others[0]?) :
      (mk member operator values).checkValueCount = (mk member operator others).checkValueCount := by
    have enough (value : String) (rest : List String) :
        (mk member operator (value :: rest)).checkValueCount = .ok () := by
      rw [checkValueCount_eq_ok]
      simp [one, ValueCount.admits]
    cases values with
    | nil =>
        cases others with
        | nil => rfl
        | cons value rest => cases first
    | cons value rest =>
        cases others with
        | nil => cases first
        | cons other others => rw [enough, enough]
  have single (one : operator.valueCount = .one) (first : operator.uses 0 = true)
      (conditioned : ∀ (strategy : Strategy) (values others : List String),
        values.headD "" = others.headD "" →
        strategy.condition (mk member operator values) =
          strategy.condition (mk member operator others)) :
      (mk member operator values).compile registry schema root =
        (mk member operator others).compile registry schema root := by
    have same := used 0 first
    refine compile_eq_of_values (counted one same) fun strategy =>
      conditioned strategy values others ?_
    rw [headD_eq_getElem?, headD_eq_getElem?, same]
  cases operator with
  | set => exact compile_eq_of_values rfl fun _ => rfl
  | notSet => exact compile_eq_of_values rfl fun _ => rfl
  | within =>
      have same : values = others := List.ext_getElem? fun position => used position rfl
      rw [same]
  | between =>
      have low : values.headD "" = others.headD "" := by
        rw [headD_eq_getElem?, headD_eq_getElem?, used 0 rfl]
      have high : values.getD 1 "" = others.getD 1 "" := congrArg (Option.getD · "") (used 1 rfl)
      refine compile_eq_of_values ?_ fun strategy => ?_
      · simp only [checkValueCount, paired rfl]
      · simp only [Strategy.condition, low, high]
  | _ =>
      refine single rfl rfl fun strategy values others same => ?_
      simp only [Strategy.condition, same]

end Filter

/-- A filter taken alone. -/
def Search.ofFilter (leaf : Filter) : Search := ⟨[.filter leaf]⟩

theorem Search.compile_ofFilter (leaf : Filter) :
    (ofFilter leaf).compile registry schema root = leaf.compile registry schema root :=
  compile_single (.filter leaf)

/-- A search compiles exactly if each of its filters compiles alone. Otherwise it is refused for the
first filter in document order that is refused, by the first step of that filter that fails, and the
error is about its member. Values that the operator does not use change nothing. -/
theorem Search.compile_fails_first (registry : Registry) (schema : Schema)
    (root : Fin schema.size) :
    (∀ search : Search, (∃ predicate, search.compile registry schema root = .ok predicate) ↔
        ∀ leaf ∈ Clause.listLeaves search.filters,
          ∃ predicate, (ofFilter leaf).compile registry schema root = .ok predicate) ∧
      (∀ (search : Search) reason, search.compile registry schema root = .error reason ↔
        ∃ before leaf after, Clause.listLeaves search.filters = before ++ leaf :: after ∧
          (∀ other ∈ before,
            ∃ predicate, (ofFilter other).compile registry schema root = .ok predicate) ∧
          leaf.Fails registry schema root reason ∧ reason.member? = some leaf.member) ∧
      (∀ leaf reason, (ofFilter leaf).compile registry schema root = .error reason ↔
        leaf.Fails registry schema root reason) ∧
      ∀ leaf other : Filter, leaf.UsesAlike other →
        (ofFilter leaf).compile registry schema root =
          (ofFilter other).compile registry schema root := by
  simp only [compile_ofFilter]
  refine ⟨fun search => exists_compile_eq_ok, ?_, fun leaf reason => Filter.compile_eq_error,
    fun leaf other alike => Filter.compile_eq_of_usesAlike alike⟩
  intro search reason
  rw [compile_eq_error]
  constructor
  · intro failed
    obtain ⟨before, leaf, after, cut, earlier, refused⟩ := failed
    have fails := Filter.compile_eq_error.mp refused
    exact ⟨before, leaf, after, cut, earlier, fails, fails.member⟩
  · intro failed
    obtain ⟨before, leaf, after, cut, earlier, fails, -⟩ := failed
    exact ⟨before, leaf, after, cut, earlier, Filter.compile_eq_error.mpr fails⟩

/-- A group that holds anyway does not hide the fault of a filter beside it. -/
example : (Search.mk [.any [.all [], .filter ⟨"tier", .within, ["1", "two", "x"]⟩]]).compile
    Directory.registry Directory.schema Directory.root =
      .error (.invalidValue "tier" "two" .integer) := rfl

end PartnerSearch
