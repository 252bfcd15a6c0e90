import PartnerSearch.Proofs.Directory.Objects
import PartnerSearch.Proofs.Directory.Reachable
import PartnerSearch.Proofs.Directory.Selection
import PartnerSearch.Proofs.Schema.Walk
import PartnerSearch.Proofs.Search.Condition
import PartnerSearch.Proofs.Sql.Comparison

set_option autoImplicit false

/-!
How the operators of a search relate to each other as sets of partners. Without a collection on its
path a filter judges one cell of each partner, and the cell is unset, less than the operand, equal to
it or greater.
-/

namespace PartnerSearch

open Sql

/-- Items related one by one stand for each other in an existential statement. -/
theorem exists_mem_iff_of_forall₂ {α β : Type} {related : α → β → Prop} {here : α → Prop}
    {there : β → Prop} (each : ∀ a b, related a b → (here a ↔ there b)) {items : List α}
    {others : List β} (pairs : List.Forall₂ related items others) :
    (∃ a ∈ items, here a) ↔ ∃ b ∈ others, there b := by
  induction pairs with
  | nil => simp
  | cons first rest ih => simp [each _ _ first, ih]

namespace ColumnPath

/-- The cell at the end of a path that crosses no collection. -/
def reading (tables : Tables) (row : Row) (path : ColumnPath) : Cell :=
  ((Hop.reach tables .optionalObjects path.hops row).head?.map fun target =>
    target path.column).getD .null

theorem truth_of_direct {path : ColumnPath} (direct : path.isQuantified = false)
    (tables : Tables) (row : Row) (condition : Condition) :
    path.truth tables row condition = satisfies condition (path.reading tables row) := by
  rw [truth, direct]
  rfl

/-- To be among some values is to be equal to one of them, for a collection too: the element that is
among them is equal to one. -/
theorem holds_within (path : ColumnPath) (tables : Tables) (row : Row) (values : List Value) :
    (path.truth tables row (.within values)).holds = true ↔
      ∃ value ∈ values, (path.truth tables row (.compare .equal value)).holds = true := by
  cases direct : path.isQuantified with
  | false =>
      simp only [truth_of_direct direct]
      exact Sql.holds_within values
  | true =>
      simp only [truth, direct, ↓reduceIte, Truth.holds_some, List.any_eq_true, Sql.holds_within]
      constructor
      · intro among
        obtain ⟨element, member, value, listed, equal⟩ := among
        exact ⟨value, listed, element, member, equal⟩
      · intro among
        obtain ⟨value, listed, element, member, equal⟩ := among
        exact ⟨element, member, value, listed, equal⟩

end ColumnPath

/-- The comparison that an operator makes with its only operand. -/
def Operator.comparison? : Operator → Option Comparison
  | .equals => some .equal
  | .notEquals => some .notEqual
  | .greater => some .greater
  | .greaterOrEqual => some .greaterOrEqual
  | .less => some .less
  | .lessOrEqual => some .lessOrEqual
  | _ => none

theorem Strategy.condition_of_comparison? {strategy : Strategy} {operator : Operator}
    {comparison : Comparison} (compares : operator.comparison? = some comparison)
    (member raw : String) :
    (Filter.mk member operator [raw]).checkValueCount = .ok () ∧
      strategy.condition ⟨member, operator, [raw]⟩ =
        (strategy.convert member raw).map (.compare comparison) := by
  cases operator <;> cases compares <;> exact ⟨rfl, rfl⟩

theorem Strategy.isOrdered_of_type {strategy : Strategy}
    (comparable : strategy.type ∈ [.text, .integer, .real, .timestamp]) :
    strategy.isOrdered = true := by
  cases strategy with
  | text | integer | real | timestamp => rfl
  | boolean | uuid | enumeration => simp [type] at comparable

theorem Registry.type_of_find? {registry : Registry} {type : FieldType} {strategy : Strategy}
    (found : registry.find? type = some strategy) : strategy.type = type := by
  simpa using List.find?_some found

namespace Directory

/-- A single filter. -/
def test (member : String) (operator : Operator) (values : List String) : Clause :=
  .filter ⟨member, operator, values⟩

/-- The partners that a clause lists by itself. -/
def listed (directory : Directory) (clause : Clause) : Set Partner :=
  directory.rows registry (only clause)

/-- The clause is not refused, and it lists these partners. -/
def Lists (directory : Directory) (clause : Clause) (partners : Set Partner) : Prop :=
  directory.Runs registry (only clause) ∧ directory.listed clause = partners

/-- None of the clauses is refused, no two of them list the same partner, and together they list
all. -/
def Splits (directory : Directory) (clauses : List Clause) : Prop :=
  directory.RunEach registry clauses ∧
    (clauses.map directory.listed).Pairwise (fun one other => one ∩ other = ∅) ∧
    ⋃ clause ∈ clauses, directory.listed clause = directory.everyPartner

/-- The value is one that the strategy of the type accepts. -/
def Converts (type : FieldType) (member raw : String) : Prop :=
  ∃ strategy value, registry.find? type = some strategy ∧ strategy.convert member raw = .ok value

variable {directory : Directory}

/-- The clause lists the partners of which `holds`. -/
def Selects (directory : Directory) (clause : Clause) (holds : Partner → Prop) : Prop :=
  directory.Lists clause {partner ∈ directory.everyPartner | holds partner}

theorem Selects.mem_iff {clause : Clause} {holds : Partner → Prop}
    (selects : directory.Selects clause holds) (partner : Partner) :
    partner ∈ directory.listed clause ↔ partner ∈ directory.everyPartner ∧ holds partner := by
  rw [selects.2]
  exact Set.mem_sep_iff

theorem Selects.congr {clause : Clause} {holds other : Partner → Prop}
    (selects : directory.Selects clause holds) (same : ∀ partner, holds partner ↔ other partner) :
    directory.Selects clause other := by
  have rewritten : holds = other := funext fun partner => propext (same partner)
  rw [← rewritten]
  exact selects

theorem Selects.union {clause first second : Clause} {holds one two : Partner → Prop}
    (either : directory.Selects clause holds) (left : directory.Selects first one)
    (right : directory.Selects second two)
    (same : ∀ partner, holds partner ↔ one partner ∨ two partner) :
    directory.Lists clause (directory.listed first ∪ directory.listed second) := by
  refine ⟨either.1, Set.ext fun partner => ?_⟩
  rw [Set.mem_union, either.mem_iff, left.mem_iff, right.mem_iff, same, and_or_left]

theorem Selects.inter {clause first second : Clause} {holds one two : Partner → Prop}
    (both : directory.Selects clause holds) (left : directory.Selects first one)
    (right : directory.Selects second two)
    (same : ∀ partner, holds partner ↔ one partner ∧ two partner) :
    directory.Lists clause (directory.listed first ∩ directory.listed second) := by
  refine ⟨both.1, Set.ext fun partner => ?_⟩
  rw [Set.mem_inter_iff, both.mem_iff, left.mem_iff, right.mem_iff, same, and_and_left]

section Verdicts

variable {α : Type} {verdict : Partner → α} {clauses : List Clause} {verdicts : List α}

/-- Each clause lists the partners with one of the verdicts. -/
def Decides (directory : Directory) (verdict : Partner → α) (clauses : List Clause)
    (verdicts : List α) : Prop :=
  List.Forall₂ (fun clause outcome => directory.Selects clause fun partner =>
    verdict partner = outcome) clauses verdicts

theorem Decides.mem_iff (decides : directory.Decides verdict clauses verdicts) (partner : Partner) :
    (∃ clause ∈ clauses, partner ∈ directory.listed clause) ↔
      partner ∈ directory.everyPartner ∧ verdict partner ∈ verdicts := by
  rw [exists_mem_iff_of_forall₂ (fun clause outcome selects => selects.mem_iff partner) decides]
  simp [and_comm]

theorem Decides.runEach (decides : directory.Decides verdict clauses verdicts) :
    directory.RunEach registry clauses := by
  induction decides with
  | nil => exact List.forall_mem_nil _
  | cons first rest ih => exact List.forall_mem_cons.mpr ⟨first.1, ih⟩

theorem Decides.disjoint (decides : directory.Decides verdict clauses verdicts)
    (distinct : verdicts.Nodup) :
    (clauses.map directory.listed).Pairwise fun one other => one ∩ other = ∅ := by
  induction decides with
  | nil => exact .nil
  | @cons clause outcome clauses verdicts first rest ih =>
      obtain ⟨fresh, distinct⟩ := List.nodup_cons.mp distinct
      refine .cons ?_ (ih distinct)
      intro others member
      obtain ⟨other, inside, rfl⟩ := List.mem_map.mp member
      apply Set.eq_empty_of_forall_notMem
      intro partner both
      obtain ⟨here, there⟩ := both
      have own : verdict partner = outcome := ((first.mem_iff partner).mp here).2
      have among := ((Decides.mem_iff rest partner).mp ⟨other, inside, there⟩).2
      rw [own] at among
      exact fresh among

/-- Clauses that decide between verdicts split all partners, if each partner has one of the
verdicts. -/
theorem Decides.splits (decides : directory.Decides verdict clauses verdicts)
    (distinct : verdicts.Nodup) (complete : ∀ partner, verdict partner ∈ verdicts) :
    directory.Splits clauses := by
  refine ⟨decides.runEach, decides.disjoint distinct, ?_⟩
  ext partner
  rw [Set.mem_iUnion₂]
  simp only [exists_prop, decides.mem_iff, complete partner, and_true]

end Verdicts

/-- A clause and one that lists the other partners. -/
theorem splits_of_complement {first second : Clause} {holds : Partner → Prop}
    (accepts : directory.Selects first holds)
    (rejects : directory.Selects second fun partner => ¬holds partner) :
    directory.Splits [first, second] := by
  have decides : directory.Decides holds [first, second] [True, False] :=
    .cons (accepts.congr (by simp)) (.cons (rejects.congr (by simp)) .nil)
  exact decides.splits (by simp) (by simp [em])

/-- Every scalar field has a type with a strategy. -/
theorem contains_of_declared {name column : String} {type : FieldType} :
    ∀ position, .scalar name column type ∈ (schema.entity position).fields →
      registry.contains type = true := by
  have checked : ∀ position, (schema.entity position).fields.all (fun field =>
      field.type?.all registry.contains) = true := by
    apply forall_position <;> decide +kernel
  intro position declared
  exact List.all_eq_true.mp (checked position) _ declared

variable {member raw : String} {operator : Operator} {values : List String} {path : ColumnPath}
  {strategy : Strategy}

theorem exists_strategy (resolved : resolve schema root member = .ok (.column path)) :
    ∃ strategy, registry.find? path.type = some strategy := by
  obtain ⟨position, name, -, declared⟩ := walk_of_resolve_column resolved
  exact Option.isSome_iff_exists.mp (contains_of_declared position declared)

/-- A filter that compiles to a predicate lists the partners of which the predicate holds, if it is
executed. -/
theorem selects_of_compile {clause : Clause} {predicate : Predicate}
    (compiled : clause.compile registry schema root = .ok predicate)
    (executes : directory.Executes predicate) :
    directory.Selects clause fun partner =>
      predicate.holds directory.tables partner.row = true := by
  have alone := (compile_only clause).trans compiled
  exact ⟨⟨predicate, alone, executes⟩, Set.ext (mem_rows alone executes)⟩

section Column

variable (resolved : resolve schema root member = .ok (.column path))
  (registered : registry.find? path.type = some strategy)

include resolved registered

theorem compile_test {predicate : Predicate} :
    (test member operator values).compile registry schema root = .ok predicate ↔
      strategy.supports operator = true ∧
        (Filter.mk member operator values).checkValueCount = .ok () ∧
        ∃ condition, strategy.condition ⟨member, operator, values⟩ = .ok condition ∧
          Predicate.column path condition = predicate := by
  have built : (test member operator values).compile registry schema root =
      strategy.build ⟨member, operator, values⟩ path :=
    Filter.compile_of_column resolved registered
  rw [built, Strategy.build_eq_ok]

omit registered in
theorem length_hops : path.hops.length ≤ Path.segmentLimit :=
  (length_hops_of_resolve resolved).1 path rfl

theorem selects_column (operator : Operator) (intact : directory.dropped = [])
    (supported : strategy.supports operator = true)
    (counted : (Filter.mk member operator values).checkValueCount = .ok ()) {condition : Condition}
    (conditioned : strategy.condition ⟨member, operator, values⟩ = .ok condition)
    (few : condition.operandCount ≤ 2) (plain : condition.isTooLong = false) :
    directory.Selects (test member operator values) fun partner =>
      (path.truth directory.tables partner.row condition).holds = true :=
  selects_of_compile
    ((compile_test resolved registered).mpr ⟨supported, counted, condition, conditioned, rfl⟩)
    (executes_column_of_few intact (length_hops resolved) few plain)

theorem selects_comparison (operator : Operator) (intact : directory.dropped = [])
    (supported : strategy.supports operator = true) {comparison : Comparison}
    (compares : operator.comparison? = some comparison) {value : Value}
    (converted : strategy.convert member raw = .ok value) :
    directory.Selects (test member operator [raw]) fun partner =>
      (path.truth directory.tables partner.row (.compare comparison value)).holds = true := by
  obtain ⟨counted, conditioned⟩ := strategy.condition_of_comparison? compares member raw
  rw [converted] at conditioned
  exact selects_column resolved registered operator intact supported counted conditioned
    (Nat.le_succ 1) rfl

theorem compiles_test :
    Compiles registry (only (test member operator values)) ↔
      strategy.supports operator = true ∧
        (Filter.mk member operator values).checkValueCount = .ok () ∧
        ∃ condition, strategy.condition ⟨member, operator, values⟩ = .ok condition := by
  simp only [Compiles, compile_only, compile_test resolved registered]
  constructor
  · intro steps
    obtain ⟨_, supported, counted, condition, conditioned, -⟩ := steps
    exact ⟨supported, counted, condition, conditioned⟩
  · intro steps
    obtain ⟨supported, counted, condition, conditioned⟩ := steps
    exact ⟨_, supported, counted, condition, conditioned, rfl⟩

theorem compiles_equals :
    Compiles registry (only (test member .equals [raw])) ↔
      ∃ value, strategy.convert member raw = .ok value := by
  rw [compiles_test resolved registered]
  constructor
  · intro steps
    obtain ⟨-, -, conditioned⟩ := steps
    exact Outcome.exists_map_eq_ok.mp conditioned
  · intro converts
    exact ⟨rfl, rfl, Outcome.exists_map_eq_ok.mpr converts⟩

/-- A choice of values is not refused if there are any, and each of them converts. -/
theorem compiles_within (nonempty : values ≠ []) :
    Compiles registry (only (test member .within values)) ↔
      ∀ raw ∈ values, ∃ value, strategy.convert member raw = .ok value := by
  have counted : (Filter.mk member .within values).checkValueCount = .ok () := by
    have some_value : 1 ≤ values.length := List.length_pos_iff.mpr nonempty
    simp [Filter.checkValueCount, Operator.valueCount, ValueCount.admits, some_value]
  rw [compiles_test resolved registered, ← Outcome.exists_mapM_eq_ok]
  constructor
  · intro steps
    obtain ⟨-, -, conditioned⟩ := steps
    exact Outcome.exists_map_eq_ok.mp conditioned
  · intro converts
    exact ⟨rfl, counted, Outcome.exists_map_eq_ok.mpr converts⟩

theorem compile_within {predicate : Predicate}
    (compiled : (test member .within values).compile registry schema root = .ok predicate) :
    ∃ results, values.mapM (strategy.convert member) = .ok results ∧
      (Condition.within results).operandCount = values.length ∧
      predicate = .column path (.within results) := by
  obtain ⟨-, -, condition, conditioned, rfl⟩ := (compile_test resolved registered).mp compiled
  obtain ⟨results, converted, rfl⟩ := Outcome.map_eq_ok.mp conditioned
  exact ⟨results, converted, (Outcome.mapM_eq_ok.mp converted).length_eq.symm, rfl⟩

/-- A choice of values that compiles is executed if there are not too many of them. -/
theorem executes_within (intact : directory.dropped = []) {predicate : Predicate}
    (compiled : (test member .within values).compile registry schema root = .ok predicate) :
    directory.Executes predicate ↔ values.length + pagingOperands ≤ operandLimit := by
  obtain ⟨results, -, counted, rfl⟩ := compile_within resolved registered compiled
  have plain : (Condition.within results).isTooLong = false := rfl
  rw [executes_column intact (length_hops resolved), plain, counted]
  simp

theorem refused_within (many : operandLimit < values.length + pagingOperands)
    {predicate : Predicate}
    (compiled : (test member .within values).compile registry schema root = .ok predicate) :
    directory.list predicate none none = .error (.excess .operands) := by
  obtain ⟨results, -, counted, rfl⟩ := compile_within resolved registered compiled
  exact refused_of_operands (counted ▸ many)

theorem runs_within (intact : directory.dropped = []) :
    directory.Runs registry (only (test member .within values)) ↔
      Compiles registry (only (test member .within values)) ∧
        values.length + pagingOperands ≤ operandLimit := by
  simp only [Runs, Compiles, compile_only]
  constructor
  · intro runs
    obtain ⟨predicate, compiled, executes⟩ := runs
    exact ⟨⟨predicate, compiled⟩, (executes_within resolved registered intact compiled).mp executes⟩
  · intro runs
    obtain ⟨⟨predicate, compiled⟩, few⟩ := runs
    exact ⟨predicate, compiled, (executes_within resolved registered intact compiled).mpr few⟩

theorem lists_within (intact : directory.dropped = [])
    (runs : directory.Runs registry (only (test member .within values))) :
    directory.Lists (test member .within values)
      (⋃ raw ∈ values, directory.listed (test member .equals [raw])) := by
  refine ⟨runs, ?_⟩
  obtain ⟨predicate, alone, executes⟩ := runs
  have compiled := (compile_only _).symm.trans alone
  have among := selects_of_compile compiled executes
  obtain ⟨results, converted, -, rfl⟩ := compile_within resolved registered compiled
  have each (raw : String) (value : Value) (partner : Partner)
      (converted : strategy.convert member raw = .ok value) :
      partner ∈ directory.listed (test member .equals [raw]) ↔
        partner ∈ directory.everyPartner ∧
          (path.truth directory.tables partner.row (.compare .equal value)).holds = true :=
    (selects_comparison resolved registered .equals intact rfl rfl converted).mem_iff partner
  ext partner
  rw [among.mem_iff, Predicate.holds, Predicate.truth, path.holds_within, Set.mem_iUnion₂]
  simp only [exists_prop]
  rw [exists_mem_iff_of_forall₂ (fun raw value converted => each raw value partner converted)
    (Outcome.mapM_eq_ok.mp converted)]
  constructor
  · intro selected
    obtain ⟨stored, value, member, equal⟩ := selected
    exact ⟨value, member, stored, equal⟩
  · intro selected
    obtain ⟨value, member, stored, equal⟩ := selected
    exact ⟨stored, value, member, equal⟩

section Direct

variable (intact : directory.dropped = []) (direct : path.isQuantified = false)

include intact direct

theorem selects_direct (operator : Operator) (supported : strategy.supports operator = true)
    {comparison : Comparison} (compares : operator.comparison? = some comparison) {value : Value}
    (converted : strategy.convert member raw = .ok value) :
    directory.Selects (test member operator [raw]) fun partner =>
      (compare comparison (path.reading directory.tables partner.row) (.ofValue value)).holds =
        true := by
  have selects := selects_comparison resolved registered operator intact supported compares converted
  simp only [path.truth_of_direct direct] at selects
  exact selects

/-- Presence tells the partners whose cell is set from the others. -/
theorem splits_presence : directory.Splits [test member .set [], test member .notSet []] := by
  have present : directory.Selects (test member .set []) _ :=
    selects_column resolved registered .set intact rfl rfl rfl (Nat.zero_le _) rfl
  have absent : directory.Selects (test member .notSet []) _ :=
    selects_column resolved registered .notSet intact rfl rfl rfl (Nat.zero_le _) rfl
  simp only [path.truth_of_direct direct, satisfies, Truth.holds_some] at present absent
  exact splits_of_complement present (absent.congr (by simp))

section Compared

variable {value : Value} (converted : strategy.convert member raw = .ok value)

include converted

theorem selects_notSet :
    directory.Selects (test member .notSet []) fun partner =>
      (path.reading directory.tables partner.row).order? (.ofValue value) = none := by
  have absent : directory.Selects (test member .notSet []) _ :=
    selects_column resolved registered .notSet intact rfl rfl rfl (Nat.zero_le _) rfl
  refine absent.congr fun partner => ?_
  rw [path.truth_of_direct direct, Cell.order?_eq_none (strategy.set_of_convert converted)]
  simp [satisfies, Truth.holds_some]

theorem selects_equals :
    directory.Selects (test member .equals [raw]) fun partner =>
      (path.reading directory.tables partner.row).order? (.ofValue value) = some .eq :=
  (selects_direct resolved registered intact direct .equals rfl rfl converted).congr fun _ =>
    holds_equal

/-- Equality tells the partners whose cell is equal to the operand from the others. -/
theorem splits_equality :
    directory.Splits [test member .equals [raw], test member .notEquals [raw]] := by
  have equal := selects_equals resolved registered intact direct converted
  have differs := selects_direct resolved registered intact direct .notEquals rfl rfl converted
  exact splits_of_complement equal
    (differs.congr fun _ => holds_notEqual (strategy.set_of_convert converted))

section Ordered

variable (ordered : strategy.isOrdered = true)

include ordered

theorem selects_less :
    directory.Selects (test member .less [raw]) fun partner =>
      (path.reading directory.tables partner.row).order? (.ofValue value) = some .lt :=
  (selects_direct resolved registered intact direct .less ordered rfl converted).congr fun _ =>
    holds_less

theorem selects_greater :
    directory.Selects (test member .greater [raw]) fun partner =>
      (path.reading directory.tables partner.row).order? (.ofValue value) = some .gt :=
  (selects_direct resolved registered intact direct .greater ordered rfl converted).congr fun _ =>
    holds_greater

/-- A cell is less than the operand, equal to it, greater, or unset. -/
theorem splits_order :
    directory.Splits [test member .less [raw], test member .equals [raw],
      test member .greater [raw], test member .notSet []] := by
  have decides : directory.Decides
      (fun partner => (path.reading directory.tables partner.row).order? (.ofValue value))
      [test member .less [raw], test member .equals [raw], test member .greater [raw],
        test member .notSet []]
      [some .lt, some .eq, some .gt, none] :=
    .cons (selects_less resolved registered intact direct converted ordered) <|
    .cons (selects_equals resolved registered intact direct converted) <|
    .cons (selects_greater resolved registered intact direct converted ordered) <|
    .cons (selects_notSet resolved registered intact direct converted) .nil
  refine decides.splits (by decide) fun partner => ?_
  cases (path.reading directory.tables partner.row).order? (.ofValue value) with
  | none => simp
  | some order => cases order <;> simp

theorem lists_greaterOrEqual :
    directory.Lists (test member .greaterOrEqual [raw])
      (directory.listed (test member .greater [raw]) ∪
        directory.listed (test member .equals [raw])) := by
  have either := selects_direct resolved registered intact direct .greaterOrEqual ordered rfl
    converted
  have greater := selects_direct resolved registered intact direct .greater ordered rfl converted
  have equal := selects_direct resolved registered intact direct .equals rfl rfl converted
  exact either.union greater equal fun partner => holds_greaterOrEqual

theorem lists_lessOrEqual :
    directory.Lists (test member .lessOrEqual [raw])
      (directory.listed (test member .less [raw]) ∪
        directory.listed (test member .equals [raw])) := by
  have either := selects_direct resolved registered intact direct .lessOrEqual ordered rfl
    converted
  have less := selects_direct resolved registered intact direct .less ordered rfl converted
  have equal := selects_direct resolved registered intact direct .equals rfl rfl converted
  exact either.union less equal fun partner => holds_lessOrEqual

/-- A range is what is at least its low end and at most its high end, also if these are exchanged. -/
theorem lists_between {high : String} {highest : Value}
    (above : strategy.convert member high = .ok highest) :
    directory.Lists (test member .between [raw, high])
      (directory.listed (test member .greaterOrEqual [raw]) ∩
        directory.listed (test member .lessOrEqual [high])) := by
  have conditioned : strategy.condition ⟨member, .between, [raw, high]⟩ =
      .ok (.between value highest) := by
    change strategy.convert member raw >>= _ = _
    rw [converted]
    change strategy.convert member high >>= _ = _
    rw [above]
    rfl
  have both := selects_column resolved registered .between intact ordered rfl conditioned
    (Nat.le_refl 2) rfl
  have least := selects_direct resolved registered intact direct .greaterOrEqual ordered rfl
    converted
  have most := selects_direct resolved registered intact direct .lessOrEqual ordered rfl above
  refine both.inter least most fun partner => ?_
  rw [path.truth_of_direct direct, satisfies, Truth.holds_and, Bool.and_eq_true]

end Ordered

end Compared

end Direct

end Column

section Relation

variable (intact : directory.dropped = []) {path : RelationPath}
  (resolved : resolve schema root member = .ok (.relation path)) (values : List String)

include intact resolved

/-- A filter on a relation asks whether any row is reached. -/
theorem selects_relation :
    directory.Selects (test member .set values) (fun partner =>
        Hop.reach directory.tables .required path.hops partner.row ≠ []) ∧
      directory.Selects (test member .notSet values) fun partner =>
        Hop.reach directory.tables .required path.hops partner.row = [] := by
  have compiled (operator : Operator) {predicate : Predicate}
      (presence : (Filter.mk member operator values).presence path = .ok predicate) :
      (test member operator values).compile registry schema root = .ok predicate :=
    Filter.compile_eq_ok.mpr (.inr ⟨path, resolved, presence⟩)
  have executes (wanted : Bool) : directory.Executes (.related path wanted) :=
    executes_related intact ((length_hops_of_resolve resolved).2 path rfl) wanted
  constructor
  · refine (selects_of_compile (compiled .set rfl) (executes true)).congr fun partner => ?_
    simp [Predicate.holds, Predicate.truth, RelationPath.truth, Truth.holds_some]
  · refine (selects_of_compile (compiled .notSet rfl) (executes false)).congr fun partner => ?_
    simp [Predicate.holds, Predicate.truth, RelationPath.truth, Truth.holds_some]

/-- Presence tells the partners with related rows from those without. -/
theorem splits_relation :
    directory.Splits [test member .set values, test member .notSet values] := by
  obtain ⟨present, absent⟩ := selects_relation intact resolved values
  exact splits_of_complement present (absent.congr fun _ => not_not.symm)

end Relation

/-- The operators agree with each other on the partners of every directory that calls lead to. On a
path without a collection equality and presence split all partners in two, and in a type with an
order the operand splits them in three, beside those whose cell is unset; the other comparisons and
ranges are composed of these. On every path a choice of values lists what its values list one by one, if
they are not too many for a statement, and a relation is present or absent. -/
theorem operators_consistent {directory : Directory} (reachable : directory.Reachable)
    (member : String) :
    (∀ path, resolve schema root member = .ok (.column path) →
      (path.isQuantified = false →
        directory.Splits [test member .set [], test member .notSet []] ∧
        (∀ raw, Converts path.type member raw →
          directory.Splits [test member .equals [raw], test member .notEquals [raw]]) ∧
        (path.type ∈ [.text, .integer, .real, .timestamp] →
          (∀ raw, Converts path.type member raw →
            directory.Splits [test member .less [raw], test member .equals [raw],
              test member .greater [raw], test member .notSet []] ∧
            directory.Lists (test member .greaterOrEqual [raw])
              (directory.listed (test member .greater [raw]) ∪
                directory.listed (test member .equals [raw])) ∧
            directory.Lists (test member .lessOrEqual [raw])
              (directory.listed (test member .less [raw]) ∪
                directory.listed (test member .equals [raw]))) ∧
          ∀ low high, Converts path.type member low → Converts path.type member high →
            directory.Lists (test member .between [low, high])
              (directory.listed (test member .greaterOrEqual [low]) ∩
                directory.listed (test member .lessOrEqual [high])))) ∧
      ∀ raws, raws ≠ [] →
        (Compiles registry (only (test member .within raws)) ↔
          ∀ raw ∈ raws, Compiles registry (only (test member .equals [raw]))) ∧
        (directory.Runs registry (only (test member .within raws)) ↔
          Compiles registry (only (test member .within raws)) ∧
            raws.length + pagingOperands ≤ operandLimit) ∧
        (directory.Runs registry (only (test member .within raws)) →
          directory.Lists (test member .within raws)
            (⋃ raw ∈ raws, directory.listed (test member .equals [raw])))) ∧
      ∀ path, resolve schema root member = .ok (.relation path) →
        directory.Splits [test member .set [], test member .notSet []] := by
  have intact := reachable.intact
  refine ⟨?_, fun path resolved => splits_relation intact resolved []⟩
  intro path resolved
  obtain ⟨strategy, registered⟩ := exists_strategy resolved
  have value_of {raw : String} (converts : Converts path.type member raw) :
      ∃ value, strategy.convert member raw = .ok value := by
    obtain ⟨other, value, found, converted⟩ := converts
    rw [registered] at found
    cases found
    exact ⟨value, converted⟩
  constructor
  · intro direct
    refine ⟨splits_presence resolved registered intact direct, ?_, ?_⟩
    · intro raw converts
      obtain ⟨value, converted⟩ := value_of converts
      exact splits_equality resolved registered intact direct converted
    · intro comparable
      have ordered : strategy.isOrdered = true :=
        Strategy.isOrdered_of_type (Registry.type_of_find? registered ▸ comparable)
      constructor
      · intro raw converts
        obtain ⟨value, converted⟩ := value_of converts
        exact ⟨splits_order resolved registered intact direct converted ordered,
          lists_greaterOrEqual resolved registered intact direct converted ordered,
          lists_lessOrEqual resolved registered intact direct converted ordered⟩
      · intro low high convertsLow convertsHigh
        obtain ⟨lowest, convertedLow⟩ := value_of convertsLow
        obtain ⟨highest, convertedHigh⟩ := value_of convertsHigh
        exact lists_between resolved registered intact direct convertedLow ordered convertedHigh
  · intro raws nonempty
    refine ⟨?_, runs_within resolved registered intact, lists_within resolved registered intact⟩
    rw [compiles_within resolved registered nonempty]
    simp only [compiles_equals resolved registered]

theorem reachable_sample : Reachable sample := by
  refine ⟨[.createContact ⟨"c1", "Zoë", none, some "DE"⟩,
    .createPartner ⟨"p1", "Acme", .active, 3, none, true, none, some "c1", 0⟩,
    .createPartner ⟨"p2", "Beta", .prospect, 1, none, false, some "beta.example", none, 0⟩,
    .addAttribute "p1" "gold"], ?_⟩
  decide +kernel

theorem operators_consistent_sample :
    Reachable sample ∧
      sample.Splits [test "contact.country" .less ["DE"], test "contact.country" .equals ["DE"],
        test "contact.country" .greater ["DE"], test "contact.country" .notSet []] ∧
      sample.Lists (test "attributes.attribute" .within ["gold", "silver"])
        (⋃ raw ∈ ["gold", "silver"], sample.listed (test "attributes.attribute" .equals [raw])) ∧
      sample.Splits [test "contact" .set [], test "contact" .notSet []] := by
  have country : resolve schema root "contact.country" = .ok (.column
      ⟨"contact.country", [⟨"contact", "contacts", ⟨"contact_id", "id"⟩, .one⟩], "country",
        .text⟩) := by
    decide +kernel
  have text : resolve schema root "attributes.attribute" = .ok (.column
      ⟨"attributes.attribute",
        [⟨"attributes", "partner_attributes", ⟨"id", "partner_id"⟩, .many⟩], "attribute",
        .text⟩) := by
    decide +kernel
  have contact : resolve schema root "contact" = .ok (.relation
      ⟨"contact", [⟨"contact", "contacts", ⟨"contact_id", "id"⟩, .one⟩]⟩) := by
    decide +kernel
  have german : Converts .text "contact.country" "DE" := ⟨.text, .text "DE", rfl, rfl⟩
  have compared := ((operators_consistent reachable_sample "contact.country").1 _ country).1 rfl
  have chosen := ((operators_consistent reachable_sample "attributes.attribute").1 _ text).2
    ["gold", "silver"] (List.cons_ne_nil _ _)
  have related := (operators_consistent reachable_sample "contact").2 _ contact
  have compiles : Compiles registry (only (test "attributes.attribute" .within ["gold", "silver"])) :=
    ⟨_, rfl⟩
  exact ⟨reachable_sample, ((compared.2.2 (by simp)).1 "DE" german).1,
    chosen.2.2 (chosen.2.1.mpr ⟨compiles, by decide⟩), related⟩

/-- As many times the same name as a statement does not hold. -/
def names : List String := List.replicate 32765 "Acme"

/-- A choice of so many values compiles, and each of them lists a partner, but the choice is refused. -/
theorem operators_overfull :
    Reachable sample ∧
      (∃ predicate, (test "name" .within names).compile registry schema root = .ok predicate ∧
        sample.list predicate none none = .error (.excess .operands)) ∧
      sample.listed (test "name" .within names) ≠
        ⋃ raw ∈ names, sample.listed (test "name" .equals [raw]) := by
  have name : resolve schema root "name" = .ok (.column ⟨"name", [], "name", .text⟩) := by
    decide +kernel
  have registered : registry.find? .text = some .text := rfl
  have count : names.length = 32765 := List.length_replicate
  have some_name : names ≠ [] := List.ne_nil_of_length_pos (by rw [count]; decide)
  have converts : ∀ raw ∈ names, ∃ value, Strategy.text.convert "name" raw = .ok value :=
    fun raw _ => ⟨.text raw, rfl⟩
  obtain ⟨predicate, alone⟩ := (compiles_within name registered some_name).mpr converts
  have compiled := (compile_only _).symm.trans alone
  have many : operandLimit < names.length + pagingOperands := by
    rw [count]
    decide
  have refused : sample.list predicate none none = .error (.excess .operands) :=
    refused_within name registered many compiled
  refine ⟨reachable_sample, ⟨predicate, compiled, refused⟩, fun same => ?_⟩
  have listed : ⟨"p1", "Acme", .active, 3, none, true, none, some "c1", 0⟩ ∈
      sample.listed (test "name" .equals ["Acme"]) :=
    ⟨_, _, rfl, rfl, by decide +kernel⟩
  have chosen : ⟨"p1", "Acme", .active, 3, none, true, none, some "c1", 0⟩ ∈
      sample.listed (test "name" .within names) := by
    rw [same, Set.mem_iUnion₂]
    exact ⟨"Acme", List.mem_replicate.mpr ⟨Nat.succ_ne_zero _, rfl⟩, listed⟩
  rw [Directory.listed, rows_of_refused alone refused] at chosen
  exact chosen

end Directory

end PartnerSearch
