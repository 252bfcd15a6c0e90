import PartnerSearch.Directory.Store
import PartnerSearch.Proofs.Outcome
import PartnerSearch.Proofs.Sql.Truth

set_option autoImplicit false

/-!
Which statements the engine executes. With all tables in place, a condition on one path is refused only
for the number of its operands or for the length of its pattern.
-/

namespace PartnerSearch

open Sql

namespace Sql

theorem takeOperands_eq_ok {used taken : Nat} {condition : Condition} :
    takeOperands used condition = .ok taken ↔
      used + condition.operandCount ≤ operandLimit ∧ used + condition.operandCount = taken := by
  rw [takeOperands, Outcome.refuse_eq_ok, Nat.not_lt, Except.ok.injEq]

/-- Nothing satisfies a condition with a pattern that is too long. -/
theorem holds_of_isTooLong {condition : Condition} (long : condition.isTooLong = true) (cell : Cell) :
    (satisfies condition cell).holds = false := by
  cases condition with
  | contains needle =>
      have refused : like (Pattern.containing needle) cell = none := if_pos long
      rw [satisfies, refused]
      rfl
  | _ => cases long

namespace Formula

variable {tables : Tables} {row : Row}

/-- Items that are tested alike in two databases are refused alike. -/
theorem listOverruns_congr {other : Tables} {scope : Scope} {items : List Formula}
    (each : ∀ item ∈ items, item.overruns tables scope = item.overruns other scope ∧
      (item.eval tables scope).holds = (item.eval other scope).holds) (connective : Connective) :
    listOverruns tables scope connective items = listOverruns other scope connective items := by
  induction items with
  | nil => rfl
  | cons item rest ih =>
      obtain ⟨⟨tested, held⟩, later⟩ := List.forall_mem_cons.mp each
      rw [listOverruns, listOverruns, tested, held, ih later]

theorem listConjuncts_eq_flatMap (items : List Formula) :
    listConjuncts items = items.flatMap conjuncts := by
  induction items with
  | nil => rfl
  | cons item rest ih => rw [listConjuncts, ih, List.flatMap_cons]

theorem mem_tested {formula item : Formula} : item ∈ formula.tested ↔ item ∈ formula.conjuncts := by
  rw [tested, List.partition_eq_filter_filter]
  simp only [List.mem_append, List.mem_filter, ← and_or_left, Function.comp_apply]
  cases item.links.isEmpty <;> simp

/-- A formula that is no conjunction is tested as it is. -/
theorem listOverruns_singleton (scope : Scope) (formula : Formula) :
    listOverruns tables scope .all [formula] = formula.overruns tables scope := by
  rw [listOverruns, listOverruns, Bool.and_false, Bool.or_false]

theorem tested_of_conjuncts {formula : Formula} (single : formula.conjuncts = [formula]) :
    formula.tested = [formula] := by
  rw [tested, single]
  cases plain : formula.links.isEmpty <;> simp [plain]

end Formula

end Sql

/-- A condition at the end of a path is tested if there is a row that it is put on: across a collection
an element, otherwise the column itself, set or not. -/
def ColumnPath.isTested (tables : Tables) (row : Row) (path : ColumnPath) : Bool :=
  !path.isQuantified || !(Hop.reach tables .optionalObjects path.hops row).isEmpty

theorem ColumnPath.holds_truth_of_isTooLong {condition : Condition}
    (long : condition.isTooLong = true) (tables : Tables) (row : Row) (path : ColumnPath) :
    (path.truth tables row condition).holds = false := by
  unfold truth
  dsimp only
  split
  · rw [Truth.holds_some, List.any_eq_false]
    exact fun element _ => Bool.eq_false_iff.mp (holds_of_isTooLong long _)
  · exact holds_of_isTooLong long _

namespace Sql.Formula

variable {tables : Tables} {row : Row}

theorem conjuncts_ofRelation (used : Nat) (path : RelationPath) (wanted : Bool) :
    (ofRelation used path wanted).conjuncts = [ofRelation used path wanted] := by
  unfold ofRelation
  cases wanted <;> rfl

theorem overruns_ofRelation (used : Nat) (path : RelationPath) (wanted : Bool) (scope : Scope) :
    (ofRelation used path wanted).overruns tables scope = false := by
  unfold ofRelation
  cases wanted <;> rfl

section Column

variable (used : Nat) (path : ColumnPath) (condition : Condition)

theorem conjuncts_ofColumn :
    (ofColumn used path condition).conjuncts = [ofColumn used path condition] := by
  unfold ofColumn
  split
  · rfl
  · dsimp only
    split <;> rfl

theorem overruns_ofColumn :
    (ofColumn used path condition).overruns tables (Scope.ofRoot row) =
      (condition.isTooLong && path.isTested tables row) := by
  unfold ofColumn ColumnPath.isTested
  by_cases direct : path.hops = []
  · simp [direct, ColumnPath.isQuantified, overruns]
  · have crossed : path.hops.isEmpty = false := by simpa using direct
    have reached := @Link.map_select_ofHops tables .optionalObjects used path.hops row direct
    simp only [crossed, Bool.false_eq_true, ↓reduceIte]
    cases path.isQuantified with
    | true => simp only [↓reduceIte, overruns, ← reached, List.isEmpty_map, Bool.not_true,
        Bool.false_or]
    | false => simp [overruns]

theorem exists_parse_ofColumn : ∃ height ≤ equalityHeight + 2, ∀ before,
    (ofColumn used path condition).parse before =
      (takeOperands before condition).map (Parsed.mk height) := by
  unfold ofColumn
  split
  · exact ⟨columnHeight + 1, by decide, fun _ => rfl⟩
  · dsimp only
    split
    · exact ⟨equalityHeight + 2, by decide, fun _ => rfl⟩
    · exact ⟨equalityHeight + 2, by decide, fun _ => rfl⟩

theorem links_ofColumn_le : (ofColumn used path condition).links.length ≤ path.hops.length := by
  unfold ofColumn
  split
  · exact Nat.zero_le _
  · dsimp only
    split <;> simp [links]

end Column

/-- The subqueries of a condition on one path are not high. -/
theorem subqueryHeights_ofColumn_le (used : Nat) (path : ColumnPath) (condition : Condition) :
    ∀ inner ∈ (ofColumn used path condition).subqueryHeights,
      inner ≤ equalityHeight + 1 + path.hops.length := by
  unfold ofColumn
  split
  · exact List.forall_mem_nil _
  · dsimp only
    split <;> (simp only [subqueryHeights, List.forall_mem_singleton, Link.length_ofHops]; omega)

theorem subqueryHeights_ofRelation_le (used : Nat) (path : RelationPath) (wanted : Bool) :
    ∀ inner ∈ (ofRelation used path wanted).subqueryHeights,
      inner ≤ equalityHeight + 1 + path.hops.length := by
  unfold ofRelation
  dsimp only
  split <;> (simp only [subqueryHeights, List.forall_mem_singleton, Link.length_ofHops]; omega)

theorem resolve_of_low {formula : Formula} {height bound : Nat}
    (low : ∀ inner ∈ formula.subqueryHeights, inner ≤ bound)
    (within : height + bound ≤ heightLimit) : formula.resolve height = .ok () := by
  rw [resolve, if_neg]
  rw [List.any_eq_true]
  rintro ⟨inner, member, higher⟩
  have := low inner member
  have := of_decide_eq_true higher
  omega

end Sql.Formula

namespace Directory

variable {directory : Directory} {predicate : Predicate}

/-- The partners that a predicate selects are those of which it holds. -/
theorem selected_eq_filter (directory : Directory) (predicate : Predicate) :
    directory.selected predicate = directory.partners.filter fun partner =>
      predicate.holds directory.tables partner.row :=
  List.filter_congr fun _ _ => Formula.selects_formula predicate _ _

theorem requireTables_of_intact (intact : directory.dropped = []) (names : List String) :
    directory.requireTables names = .ok () := by
  induction names with
  | nil => rfl
  | cons name rest ih => simpa [requireTables, intact] using ih

theorem lookUp_of_intact (intact : directory.dropped = []) {before names : List String}
    (few : before.length + names.length ≤ referenceLimit) :
    directory.lookUp before names = .ok () := by
  induction names generalizing before with
  | nil => rfl
  | cons name rest ih =>
      rw [List.length_cons] at few
      have fewer : before.count name < referenceLimit :=
        Nat.lt_of_le_of_lt List.count_le_length (by omega)
      have later : directory.lookUp (name :: before) rest = .ok () :=
        ih (by rw [List.length_cons]; omega)
      rw [lookUp, requireTables_of_intact intact]
      exact (if_neg (Nat.not_le.mpr fewer)).trans later

/-- With all tables in place the engine refuses only what is too much. -/
theorem excess_of_lookUp (intact : directory.dropped = []) {before names : List String}
    {fault : EngineFault} (refused : directory.lookUp before names = .error fault) :
    ∃ kind, fault = .excess kind := by
  induction names generalizing before with
  | nil => cases refused
  | cons name rest ih =>
      rw [lookUp, requireTables_of_intact intact] at refused
      change (if Sql.referenceLimit ≤ before.count name then _ else _) = _ at refused
      split at refused
      · cases refused
        exact ⟨_, rfl⟩
      · exact ih refused

theorem lookUp_congr {other : Directory} (same : directory.dropped = other.dropped)
    (before names : List String) : directory.lookUp before names = other.lookUp before names := by
  have required (names : List String) : directory.requireTables names = other.requireTables names := by
    induction names with
    | nil => rfl
    | cons name rest ih => rw [requireTables, requireTables, same, ih]
  induction names generalizing before with
  | nil => rfl
  | cons name rest ih => rw [lookUp, lookUp, required, ih]

/-- What a statement needs to be prepared are its tables only, not what is in them. -/
theorem prepare_congr {other : Directory} (same : directory.dropped = other.dropped)
    (further : Nat) : directory.prepare predicate further = other.prepare predicate further := by
  rw [prepare, prepare, lookUp_congr same]

theorem excess_of_prepare (intact : directory.dropped = []) {further : Nat} {fault : EngineFault}
    (refused : directory.prepare predicate further = .error fault) :
    ∃ kind, fault = .excess kind := by
  simp only [prepare, Outcome.bind_eq_error, Outcome.mapError_eq_error] at refused
  obtain ⟨kind, -, rfl⟩ | ⟨parsed, -, refused⟩ := refused
  · exact ⟨kind, rfl⟩
  · split at refused
    · cases refused
      exact ⟨_, rfl⟩
    · obtain missing | ⟨_, -, resolving⟩ := Outcome.bind_eq_error.mp refused
      · exact excess_of_lookUp intact missing
      · obtain ⟨kind, -, rfl⟩ := Outcome.mapError_eq_error.mp resolving
        exact ⟨kind, rfl⟩

theorem excess_of_select {fault : EngineFault}
    (refused : directory.select predicate = .error fault) : fault = .excess .pattern := by
  rw [select] at refused
  split at refused
  · cases refused
    rfl
  · cases refused

theorem excess_of_list (intact : directory.dropped = []) {limit offset : Option Int64}
    {fault : EngineFault} (refused : directory.list predicate limit offset = .error fault) :
    ∃ kind, fault = .excess kind := by
  obtain unprepared | ⟨_, -, refused⟩ := Outcome.bind_eq_error.mp refused
  · exact excess_of_prepare intact unprepared
  · split at refused
    · cases refused
    · obtain refused | ⟨_, -, ⟨⟩⟩ := Outcome.bind_eq_error.mp refused
      exact ⟨_, excess_of_select refused⟩

theorem excess_of_count (intact : directory.dropped = []) {fault : EngineFault}
    (refused : directory.count predicate = .error fault) : ∃ kind, fault = .excess kind := by
  obtain unprepared | ⟨_, -, refused⟩ := Outcome.bind_eq_error.mp refused
  · exact excess_of_prepare intact unprepared
  · obtain refused | ⟨_, -, ⟨⟩⟩ := Outcome.bind_eq_error.mp refused
    exact ⟨_, excess_of_select refused⟩

theorem prepare_eq_ok {further : Nat} :
    directory.prepare predicate further = .ok () ↔
      ∃ parsed, predicate.formula.parse 0 = .ok parsed ∧
        parsed.operands + further ≤ operandLimit ∧
        directory.lookUp [] (selectionTables predicate) = .ok () ∧
        predicate.formula.resolve parsed.height = .ok () := by
  simp only [prepare, Outcome.bind_eq_ok, Outcome.mapError_eq_ok, Outcome.refuse_eq_ok, Nat.not_lt]
  constructor
  · rintro ⟨parsed, read, few, ⟨⟩, found, resolved⟩
    exact ⟨parsed, read, few, found, resolved⟩
  · rintro ⟨parsed, read, few, found, resolved⟩
    exact ⟨parsed, read, few, (), found, resolved⟩

theorem prepare_of_le {further fewer : Nat} (less : fewer ≤ further)
    (prepared : directory.prepare predicate further = .ok ()) :
    directory.prepare predicate fewer = .ok () := by
  obtain ⟨parsed, read, few, rest⟩ := prepare_eq_ok.mp prepared
  exact prepare_eq_ok.mpr ⟨parsed, read, Nat.le_trans (Nat.add_le_add_left less _) few, rest⟩

/-- The engine executes what is asked about a predicate. -/
def Executes (directory : Directory) (predicate : Predicate) : Prop :=
  ∃ listed, directory.list predicate none none = .ok listed

theorem executes_iff : directory.Executes predicate ↔
    directory.prepare predicate pagingOperands = .ok () ∧ directory.overruns predicate = false := by
  simp only [Executes, list, select, Outcome.bind_eq_ok, Outcome.pure_eq_ok, Outcome.refuse_eq_ok,
    reduceCtorEq, if_false, Except.ok.injEq, Bool.not_eq_true]
  constructor
  · rintro ⟨_, ⟨⟩, prepared, _, ⟨short, -⟩, -⟩
    exact ⟨prepared, short⟩
  · rintro ⟨prepared, short⟩
    exact ⟨_, (), prepared, _, ⟨short, rfl⟩, rfl⟩

section Executes

variable (executes : directory.Executes predicate)

include executes

theorem Executes.select : directory.select predicate = .ok (directory.selected predicate) := by
  have short := (executes_iff.mp executes).2
  rw [Directory.select, short]
  rfl

/-- What is executed without a limit is executed with any. -/
theorem Executes.list (limit offset : Option Int64) :
    directory.list predicate limit offset = .ok (slice (limit.getD (-1)) (offset.getD 0)
      (ordered listedBefore (directory.selected predicate))) := by
  rw [Directory.list, (executes_iff.mp executes).1, executes.select]
  by_cases none_wanted : limit = some 0
  · subst none_wanted
    have nothing (items : List Partner) : slice 0 (offset.getD 0) items = [] := by
      rw [slice, if_neg (by decide)]
      exact List.take_zero
    exact congrArg Except.ok (nothing _).symm
  · exact if_neg none_wanted

theorem Executes.count :
    directory.count predicate = .ok (directory.selected predicate).length := by
  rw [Directory.count, prepare_of_le (Nat.zero_le _) (executes_iff.mp executes).1, executes.select]
  rfl

end Executes

theorem refused_of_overruns (prepared : directory.prepare predicate pagingOperands = .ok ())
    (overrun : directory.overruns predicate = true) :
    directory.list predicate none none = .error (.excess .pattern) ∧
      directory.count predicate = .error (.excess .pattern) := by
  have refused : directory.select predicate = .error (.excess .pattern) := if_pos overrun
  rw [Directory.list, Directory.count, prepared, prepare_of_le (Nat.zero_le _) prepared, refused]
  exact ⟨rfl, rfl⟩

theorem executes_always (intact : directory.dropped = []) : directory.Executes .always := by
  refine executes_iff.mpr ⟨prepare_eq_ok.mpr ⟨_, rfl, by decide, ?_, rfl⟩, ?_⟩
  · exact lookUp_of_intact intact (by decide)
  · exact List.any_eq_false.mpr fun partner _ => Bool.false_ne_true

section Column

variable {path : ColumnPath} {condition : Condition}

theorem overruns_column : directory.overruns (.column path condition) =
    (condition.isTooLong && directory.partners.any fun partner =>
      path.isTested directory.tables partner.row) := by
  have tested : (Predicate.column path condition).formula.tested =
      [Formula.ofColumn 0 path condition] :=
    Formula.tested_of_conjuncts (Formula.conjuncts_ofColumn 0 path condition)
  simp only [overruns, tested, Formula.listOverruns_singleton, Formula.overruns_ofColumn]
  cases condition.isTooLong <;> simp

/-- More operands are refused, before a table is looked up. -/
theorem refused_of_operands (many : operandLimit < condition.operandCount + pagingOperands) :
    directory.list (.column path condition) none none = .error (.excess .operands) := by
  obtain ⟨height, -, read⟩ := Formula.exists_parse_ofColumn 0 path condition
  have parsed : (Predicate.column path condition).formula.parse 0 = _ := read 0
  have refused : directory.prepare (.column path condition) pagingOperands =
      .error (.excess .operands) := by
    rw [prepare, parsed, takeOperands, Nat.zero_add]
    split
    · rfl
    · exact if_pos many
  rw [list, refused]
  rfl

end Column

section Leaves

variable (intact : directory.dropped = [])

include intact

/-- What is put on one path is prepared, if its operands are not too many. -/
theorem prepare_leaf {height operands further : Nat}
    (read : predicate.formula.parse 0 = .ok ⟨height, operands⟩) (low : height ≤ equalityHeight + 2)
    (few : operands + further ≤ operandLimit)
    (inner : ∀ inner ∈ predicate.formula.subqueryHeights,
      inner ≤ equalityHeight + 1 + Path.segmentLimit)
    (short : predicate.formula.links.length ≤ Path.segmentLimit) :
    directory.prepare predicate further = .ok () := by
  have room : equalityHeight + 2 + (equalityHeight + 1 + Path.segmentLimit) ≤ heightLimit := by
    decide
  have named : (selectionTables predicate).length ≤ referenceLimit := by
    rw [selectionTables, List.length_cons, Formula.tables, List.length_map]
    exact Nat.le_trans (Nat.succ_le_succ short) (by decide)
  have found : directory.lookUp [] (selectionTables predicate) = .ok () :=
    lookUp_of_intact intact (by simpa using named)
  refine prepare_eq_ok.mpr ⟨_, read, few, found, Formula.resolve_of_low inner ?_⟩
  exact Nat.le_trans (Nat.add_le_add_right low _) room

theorem executes_related {path : RelationPath} (short : path.hops.length ≤ Path.segmentLimit)
    (wanted : Bool) : directory.Executes (.related path wanted) := by
  have inner (found : Nat)
      (member : found ∈ (Formula.ofRelation 0 path wanted).subqueryHeights) :
      found ≤ equalityHeight + 1 + Path.segmentLimit :=
    Nat.le_trans (Formula.subqueryHeights_ofRelation_le 0 path wanted found member)
      (Nat.add_le_add_left short _)
  have joined : (Formula.ofRelation 0 path wanted).links.length ≤ Path.segmentLimit := by
    unfold Formula.ofRelation
    cases wanted <;> simpa [Formula.links] using short
  obtain ⟨height, read, low⟩ : ∃ height,
      (Formula.ofRelation 0 path wanted).parse 0 = .ok ⟨height, 0⟩ ∧
        height ≤ equalityHeight + 2 := by
    cases wanted with
    | true => exact ⟨_, rfl, by decide⟩
    | false => exact ⟨_, rfl, by decide⟩
  refine executes_iff.mpr ⟨prepare_leaf intact read low (by decide) inner joined, ?_⟩
  have tested : (Predicate.related path wanted).formula.tested =
      [Formula.ofRelation 0 path wanted] :=
    Formula.tested_of_conjuncts (Formula.conjuncts_ofRelation 0 path wanted)
  simp only [overruns, tested, Formula.listOverruns_singleton, Formula.overruns_ofRelation]
  exact List.any_eq_false.mpr fun partner _ => Bool.false_ne_true

variable {path : ColumnPath} (short : path.hops.length ≤ Path.segmentLimit) {condition : Condition}

include short

theorem prepare_column {further : Nat} :
    directory.prepare (.column path condition) further = .ok () ↔
      condition.operandCount + further ≤ operandLimit := by
  obtain ⟨height, low, read⟩ := Formula.exists_parse_ofColumn 0 path condition
  constructor
  · intro prepared
    obtain ⟨parsed, taken, few, -⟩ := prepare_eq_ok.mp prepared
    obtain ⟨operands, counted, rfl⟩ := Outcome.map_eq_ok.mp ((read 0).symm.trans taken)
    obtain ⟨-, rfl⟩ := takeOperands_eq_ok.mp counted
    rw [Nat.zero_add] at few
    exact few
  · intro few
    have counted : takeOperands 0 condition = .ok condition.operandCount :=
      takeOperands_eq_ok.mpr (by omega)
    have parsed : (Predicate.column path condition).formula.parse 0 =
        .ok ⟨height, condition.operandCount⟩ := (read 0).trans (by rw [counted]; rfl)
    refine prepare_leaf intact parsed low few (fun inner member => ?_)
      (Nat.le_trans (Formula.links_ofColumn_le 0 path condition) short)
    exact Nat.le_trans (Formula.subqueryHeights_ofColumn_le 0 path condition inner member)
      (Nat.add_le_add_left short _)

/-- A condition on one path is executed if it has not too many operands and no row comes to a pattern
that is too long. -/
theorem executes_column : directory.Executes (.column path condition) ↔
    condition.operandCount + pagingOperands ≤ operandLimit ∧
      (condition.isTooLong = true →
        ∀ partner ∈ directory.partners, path.isTested directory.tables partner.row = false) := by
  rw [executes_iff, prepare_column intact short, overruns_column]
  cases condition.isTooLong <;> simp

/-- A condition with one operand or two is executed, if it has no pattern that is too long. -/
theorem executes_column_of_few (few : condition.operandCount ≤ 2)
    (plain : condition.isTooLong = false) : directory.Executes (.column path condition) := by
  have within : 2 + pagingOperands ≤ operandLimit := by decide
  refine (executes_column intact short).mpr ⟨Nat.le_trans (Nat.add_le_add_right few _) within, ?_⟩
  rw [plain]
  exact nofun

/-- A condition that is executed on one path, and holds there of some row, is executed on any other. -/
theorem Executes.elsewhere {other : ColumnPath}
    (shortOther : other.hops.length ≤ Path.segmentLimit)
    (executes : directory.Executes (.column path condition)) {row : Row}
    (held : (path.truth directory.tables row condition).holds = true) :
    directory.Executes (.column other condition) := by
  have plain : condition.isTooLong = false := by
    by_contra long
    rw [Bool.not_eq_false] at long
    rw [path.holds_truth_of_isTooLong long] at held
    cases held
  refine (executes_column intact shortOther).mpr ⟨((executes_column intact short).mp executes).1, ?_⟩
  rw [plain]
  exact nofun

end Leaves

end Directory

end PartnerSearch
