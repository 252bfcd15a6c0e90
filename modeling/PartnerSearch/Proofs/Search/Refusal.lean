import PartnerSearch.Proofs.Schema.Walk
import PartnerSearch.Proofs.Search.Compilation

set_option autoImplicit false

/-!
Why a filter is refused. Its member is resolved, its operator judged, its values counted and then
converted one by one; the first step that fails decides. Every refusal blames the client, but for the
look-up of a strategy, which fails only on a scalar field that a walk reaches.
-/

namespace PartnerSearch

variable {registry : Registry} {schema : Schema} {root : Fin schema.size}

/-- The error is the client's, and it is about the member. -/
def SearchError.Blames (reason : SearchError) (member : String) : Prop :=
  reason.isClientError = true ∧ reason.member? = some member

theorem Path.segments_error_blames {member : String} {reason : SearchError}
    (failed : Path.segments member = .error reason) : reason.Blames member := by
  unfold Path.segments at failed
  dsimp only at failed
  split at failed
  · cases failed
    exact ⟨rfl, rfl⟩
  · split at failed
    · cases failed
      exact ⟨rfl, rfl⟩
    · split at failed
      · cases failed
        exact ⟨rfl, rfl⟩
      · cases failed

theorem Path.walk_error_blames {member : String} {segments : List String}
    {position : Fin schema.size} {crossed : Bool} {reason : SearchError}
    (failed : Path.walk schema member segments position crossed = .error reason) :
    reason.Blames member := by
  induction segments generalizing position crossed with
  | nil => cases failed
  | cons segment rest ih =>
      simp only [Path.walk] at failed
      split at failed
      · cases failed
        exact ⟨rfl, rfl⟩
      · split at failed
        · cases failed
        · cases failed
          exact ⟨rfl, rfl⟩
      · split at failed
        · cases failed
          exact ⟨rfl, rfl⟩
        · exact ih (Outcome.map_eq_error.mp failed)

theorem resolve_error_blames {member : String} {reason : SearchError}
    (failed : resolve schema root member = .error reason) : reason.Blames member := by
  rcases Outcome.bind_eq_error.mp failed with cut | ⟨segments, -, later⟩
  · exact Path.segments_error_blames cut
  · rcases Outcome.bind_eq_error.mp later with walked | ⟨walk, -, impossible⟩
    · exact Path.walk_error_blames walked
    · cases impossible

namespace Registry

theorem get_eq_error {type : FieldType} {member : String} {reason : SearchError} :
    registry.get type member = .error reason ↔
      registry.contains type = false ∧ reason = .unregisteredType member type := by
  unfold get contains
  cases registry.find? type with
  | none => simp [eq_comm]
  | some strategy => simp

theorem contains_of_get_ok {type : FieldType} {member : String}
    {strategy : Strategy} (found : registry.get type member = .ok strategy) :
    registry.contains type = true := by
  rw [contains, find?_of_get_ok found]
  rfl

end Registry

theorem Filter.presence_eq_error {filter : Filter} {path : RelationPath} {reason : SearchError} :
    filter.presence path = .error reason ↔
      filter.operator ≠ .set ∧ filter.operator ≠ .notSet ∧
        reason = .invalidPath filter.member (.relationOperator filter.member filter.operator) := by
  unfold Filter.presence
  cases filter.operator with
  | set => simp
  | notSet => simp
  | _ => simp [eq_comm]

theorem Filter.checkValueCount_eq_error {filter : Filter} {reason : SearchError} :
    filter.checkValueCount = .error reason ↔
      filter.operator.valueCount.admits filter.values.length = false ∧
        reason = .invalidValueCount filter.member filter.operator filter.operator.valueCount
          filter.values.length := by
  unfold Filter.checkValueCount
  dsimp only
  split
  · rename_i admitted
    simp [admitted]
  · rename_i refused
    rw [Bool.not_eq_true] at refused
    rw [Except.error.injEq, and_iff_right refused, eq_comm]

/-- The values that the operator converts, in order. -/
def Filter.converted (filter : Filter) : List String :=
  match filter.operator with
  | .set | .notSet | .contains => []
  | .within => filter.values
  | .between => filter.values.take 2
  | _ => filter.values.take 1

namespace Strategy

variable {strategy : Strategy}

theorem convert_eq_error {member raw : String} {reason : SearchError} :
    strategy.convert member raw = .error reason ↔
      strategy.read? raw = none ∧
        ∃ form, strategy.form = some form ∧ reason = .invalidValue member raw form := by
  unfold convert
  cases strategy.read? raw with
  | some value => simp
  | none =>
      cases strategy.form with
      | none => simp
      | some form => simp [eq_comm]

/-- The condition of a filter with enough values is refused as the conversion of its values is. -/
theorem verdict_condition {filter : Filter}
    (counted : filter.operator.valueCount.admits filter.values.length = true) :
    Outcome.verdict (strategy.condition filter) =
      Outcome.verdict (filter.converted.mapM (strategy.convert filter.member)) := by
  obtain ⟨member, operator, values⟩ := filter
  have single (comparison : Comparison) (some_value : ValueCount.one.admits values.length = true) :
      Outcome.verdict (strategy.compareFirst member comparison (values.headD "")) =
        Outcome.verdict ((values.take 1).mapM (strategy.convert member)) := by
    cases values with
    | nil => cases some_value
    | cons first rest =>
        rw [compareFirst, Outcome.verdict_map]
        exact (Outcome.verdict_mapM_singleton _ first).symm
  cases operator with
  | equals => exact single .equal counted
  | notEquals => exact single .notEqual counted
  | greater => exact single .greater counted
  | greaterOrEqual => exact single .greaterOrEqual counted
  | less => exact single .less counted
  | lessOrEqual => exact single .lessOrEqual counted
  | within => exact Outcome.verdict_map _ _
  | contains => rfl
  | set => rfl
  | notSet => rfl
  | between =>
      obtain ⟨low, high, rfl⟩ := List.length_eq_two.mp (beq_iff_eq.mp counted)
      refine Eq.trans (Outcome.verdict_bind_congr rfl fun value _ => ?_)
        (Outcome.verdict_mapM_cons _ low [high]).symm
      exact (Outcome.verdict_map _ _).trans (Outcome.verdict_mapM_singleton _ high).symm

end Strategy

/-- The filter is refused for this reason: the first step that fails, where all steps before it
succeed. -/
inductive Filter.Fails (registry : Registry) (schema : Schema) (root : Fin schema.size)
    (filter : Filter) : SearchError → Prop
  | unresolved {reason : SearchError} (failed : resolve schema root filter.member = .error reason) :
      Fails registry schema root filter reason
  | relation {path : RelationPath}
      (resolved : resolve schema root filter.member = .ok (.relation path))
      (noSet : filter.operator ≠ .set) (noNotSet : filter.operator ≠ .notSet) :
      Fails registry schema root filter
        (.invalidPath filter.member (.relationOperator filter.member filter.operator))
  | unregistered {path : ColumnPath}
      (resolved : resolve schema root filter.member = .ok (.column path))
      (unknown : registry.contains path.type = false) :
      Fails registry schema root filter (.unregisteredType filter.member path.type)
  | unsupported {path : ColumnPath} {strategy : Strategy}
      (resolved : resolve schema root filter.member = .ok (.column path))
      (registered : registry.find? path.type = some strategy)
      (refused : strategy.supports filter.operator = false) :
      Fails registry schema root filter
        (.unsupportedOperator filter.member filter.operator strategy.type)
  | miscounted {path : ColumnPath} {strategy : Strategy}
      (resolved : resolve schema root filter.member = .ok (.column path))
      (registered : registry.find? path.type = some strategy)
      (supported : strategy.supports filter.operator = true)
      (refused : filter.operator.valueCount.admits filter.values.length = false) :
      Fails registry schema root filter
        (.invalidValueCount filter.member filter.operator filter.operator.valueCount
          filter.values.length)
  | unconverted {path : ColumnPath} {strategy : Strategy} {before after : List String}
      {raw : String} {form : ValueForm}
      (resolved : resolve schema root filter.member = .ok (.column path))
      (registered : registry.find? path.type = some strategy)
      (supported : strategy.supports filter.operator = true)
      (counted : filter.operator.valueCount.admits filter.values.length = true)
      (cut : filter.converted = before ++ raw :: after)
      (earlier : ∀ other ∈ before, ∃ value, strategy.convert filter.member other = .ok value)
      (unread : strategy.read? raw = none) (described : strategy.form = some form) :
      Fails registry schema root filter (.invalidValue filter.member raw form)

namespace Filter

variable {filter : Filter} {reason : SearchError}

theorem checkValueCount_eq_ok :
    filter.checkValueCount = .ok () ↔
      filter.operator.valueCount.admits filter.values.length = true := by
  unfold checkValueCount
  dsimp only
  split
  · rename_i admitted
    exact iff_of_true rfl admitted
  · rename_i refused
    simp [refused]

/-- With enough values, the condition is refused for the first value that does not convert. -/
theorem condition_eq_error {strategy : Strategy}
    (counted : filter.operator.valueCount.admits filter.values.length = true) :
    strategy.condition filter = .error reason ↔
      ∃ before raw after, filter.converted = before ++ raw :: after ∧
        (∀ other ∈ before, ∃ value, strategy.convert filter.member other = .ok value) ∧
        strategy.convert filter.member raw = .error reason := by
  rw [← Outcome.verdict_eq_error, Strategy.verdict_condition counted, Outcome.verdict_eq_error,
    Outcome.mapM_eq_error]

/-- A filter is refused exactly for the first step that fails. -/
theorem compile_eq_error :
    filter.compile registry schema root = .error reason ↔
      filter.Fails registry schema root reason := by
  constructor
  · intro failed
    rcases Outcome.bind_eq_error.mp failed with unresolved | ⟨resolved, found, later⟩
    · exact .unresolved unresolved
    cases resolved with
    | relation path =>
        obtain ⟨noSet, noNotSet, rfl⟩ := presence_eq_error.mp later
        exact .relation found noSet noNotSet
    | column path =>
        rcases Outcome.bind_eq_error.mp later with missing | ⟨strategy, got, built⟩
        · obtain ⟨unknown, rfl⟩ := Registry.get_eq_error.mp missing
          exact .unregistered found unknown
        have registered := Registry.find?_of_get_ok got
        rcases Strategy.build_eq_error.mp built with
          ⟨refused, rfl⟩ | ⟨supported, miscounted | ⟨counted, unconverted⟩⟩
        · exact .unsupported found registered refused
        · obtain ⟨refused, rfl⟩ := checkValueCount_eq_error.mp miscounted
          exact .miscounted found registered supported refused
        · have admitted := checkValueCount_eq_ok.mp counted
          obtain ⟨before, raw, after, cut, earlier, failed⟩ :=
            (condition_eq_error admitted).mp unconverted
          obtain ⟨unread, form, described, rfl⟩ := Strategy.convert_eq_error.mp failed
          exact .unconverted found registered supported admitted cut earlier unread described
  · intro fails
    cases fails with
    | unresolved failed => exact Outcome.bind_eq_error.mpr (.inl failed)
    | relation resolved noSet noNotSet =>
        rw [compile_of_relation resolved]
        exact presence_eq_error.mpr ⟨noSet, noNotSet, rfl⟩
    | unregistered resolved unknown =>
        refine Outcome.bind_eq_error.mpr (.inr ⟨_, resolved, Outcome.bind_eq_error.mpr (.inl ?_)⟩)
        exact Registry.get_eq_error.mpr ⟨unknown, rfl⟩
    | unsupported resolved registered refused =>
        rw [compile_of_column resolved registered]
        exact Strategy.build_eq_error.mpr (.inl ⟨refused, rfl⟩)
    | miscounted resolved registered supported refused =>
        rw [compile_of_column resolved registered]
        refine Strategy.build_eq_error.mpr (.inr ⟨supported, .inl ?_⟩)
        exact checkValueCount_eq_error.mpr ⟨refused, rfl⟩
    | unconverted resolved registered supported counted cut earlier unread described =>
        rw [compile_of_column resolved registered]
        refine Strategy.build_eq_error.mpr
          (.inr ⟨supported, .inr ⟨checkValueCount_eq_ok.mpr counted, ?_⟩⟩)
        refine (condition_eq_error counted).mpr ⟨_, _, _, cut, earlier, ?_⟩
        exact Strategy.convert_eq_error.mpr ⟨unread, _, described, rfl⟩

/-- A refusal that is not the client's doing names a scalar field within reach whose type is not
registered. -/
theorem compile_eq_unregistered {member : String} {type : FieldType}
    (failed : filter.compile registry schema root = .error (.unregisteredType member type)) :
    registry.contains type = false ∧ ∃ names, schema.ScalarAt root names type := by
  cases compile_eq_error.mp failed with
  | unresolved failed => cases (resolve_error_blames failed).1
  | @unregistered path resolved unknown =>
      obtain ⟨position, name, walked, declared⟩ := walk_of_resolve_column resolved
      exact ⟨unknown, _, path.hops, position, name, path.column, walked, declared, rfl⟩

theorem Fails.member {filter : Filter} {reason : SearchError}
    (fails : filter.Fails registry schema root reason) : reason.member? = some filter.member := by
  cases fails with
  | unresolved failed => exact (resolve_error_blames failed).2
  | _ => rfl

end Filter

end PartnerSearch
