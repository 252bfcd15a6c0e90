import PartnerSearch.Proofs.Outcome
import PartnerSearch.Proofs.Predicate.Fold
import PartnerSearch.Search.Compilation

set_option autoImplicit false

/-!
What compiling a search does, one step at a time: a group compiles when all its children do, and a
refusal is always that of the first filter that is refused.
-/

namespace PartnerSearch

variable {registry : Registry} {schema : Schema} {root : Fin schema.size}

namespace Clause

theorem compileList_eq_mapM (clauses : List Clause) :
    compileList registry schema root clauses =
      clauses.mapM fun clause => clause.compile registry schema root := by
  induction clauses with
  | nil => rfl
  | cons clause rest ih => rw [compileList, ih, List.mapM_cons]

theorem compileList_eq_ok {clauses : List Clause} {predicates : List Predicate} :
    compileList registry schema root clauses = .ok predicates ↔
      List.Forall₂ (fun clause predicate => clause.compile registry schema root = .ok predicate)
        clauses predicates := by
  rw [compileList_eq_mapM, Outcome.mapM_eq_ok]

theorem compile_any_eq_ok {children : List Clause} {predicate : Predicate} :
    compile registry schema root (.any children) = .ok predicate ↔
      ∃ predicates, compileList registry schema root children = .ok predicates ∧
        Predicate.fold .any predicates = predicate := by
  rw [compile, Outcome.map_eq_ok]

theorem compile_all_eq_ok {children : List Clause} {predicate : Predicate} :
    compile registry schema root (.all children) = .ok predicate ↔
      ∃ predicates, compileList registry schema root children = .ok predicates ∧
        Predicate.fold .all predicates = predicate := by
  rw [compile, Outcome.map_eq_ok]

theorem forall₂_of_compileList {related : Clause → Predicate → Prop} {children : List Clause}
    {predicates : List Predicate}
    (compiled : compileList registry schema root children = .ok predicates)
    (each : ∀ child ∈ children, ∀ predicate, child.compile registry schema root = .ok predicate →
      related child predicate) :
    List.Forall₂ related children predicates := by
  induction compileList_eq_ok.mp compiled with
  | nil => exact .nil
  | cons first rest ih =>
      obtain ⟨here, later⟩ := List.forall_mem_cons.mp each
      exact .cons (here _ first) (ih (compileList_eq_ok.mpr rest) later)

theorem forall_of_forall₂ {kept : Predicate → Prop} {children : List Clause}
    {predicates : List Predicate}
    (each : List.Forall₂ (fun _ predicate => kept predicate) children predicates) :
    ∀ predicate ∈ predicates, kept predicate := by
  induction each with
  | nil => simp
  | cons here rest ih => exact List.forall_mem_cons.mpr ⟨here, ih⟩

/-- What holds of compiled filters, and of a compiled group if of its children, holds of whatever
compiles. -/
@[elab_as_elim]
theorem compile_induction {motive : Clause → Predicate → Prop}
    (filter : ∀ leaf predicate, leaf.compile registry schema root = .ok predicate →
      motive (.filter leaf) predicate)
    (any : ∀ children predicates, compileList registry schema root children = .ok predicates →
      List.Forall₂ motive children predicates →
      motive (.any children) (.fold .any predicates))
    (all : ∀ children predicates, compileList registry schema root children = .ok predicates →
      List.Forall₂ motive children predicates →
      motive (.all children) (.fold .all predicates))
    {clause : Clause} {predicate : Predicate}
    (compiled : clause.compile registry schema root = .ok predicate) : motive clause predicate := by
  induction clause generalizing predicate with
  | filter leaf => exact filter leaf predicate compiled
  | any children ih =>
      obtain ⟨predicates, each, rfl⟩ := compile_any_eq_ok.mp compiled
      exact any children predicates each
        (forall₂_of_compileList each fun child member _ => ih child member)
  | all children ih =>
      obtain ⟨predicates, each, rfl⟩ := compile_all_eq_ok.mp compiled
      exact all children predicates each
        (forall₂_of_compileList each fun child member _ => ih child member)

/-- A list of clauses is refused as its leaves are, taken one after the other. -/
theorem verdict_compileList {clauses : List Clause}
    (each : ∀ clause ∈ clauses, Outcome.verdict (clause.compile registry schema root) =
      Outcome.verdict (clause.leaves.mapM fun leaf => leaf.compile registry schema root)) :
    Outcome.verdict (compileList registry schema root clauses) =
      Outcome.verdict ((listLeaves clauses).mapM fun leaf => leaf.compile registry schema root) := by
  induction clauses with
  | nil => rfl
  | cons clause rest ih =>
      obtain ⟨first, others⟩ := List.forall_mem_cons.mp each
      calc Outcome.verdict (compileList registry schema root (clause :: rest))
        _ = Outcome.verdict (clause.compile registry schema root >>= fun _ =>
              compileList registry schema root rest) :=
            Outcome.verdict_bind_congr rfl fun _ _ => Outcome.verdict_map _ _
        _ = Outcome.verdict (clause.leaves.mapM (fun leaf => leaf.compile registry schema root) >>=
              fun _ => (listLeaves rest).mapM fun leaf => leaf.compile registry schema root) :=
            Outcome.verdict_bind_congr first fun _ _ => ih others
        _ = _ := (Outcome.verdict_mapM_append _ clause.leaves (listLeaves rest)).symm

/-- No group hides a refusal of its children, nor adds one. -/
theorem verdict_compile (clause : Clause) :
    Outcome.verdict (clause.compile registry schema root) =
      Outcome.verdict (clause.leaves.mapM fun leaf => leaf.compile registry schema root) := by
  induction clause with
  | filter leaf =>
      exact (Outcome.verdict_mapM_singleton (fun leaf : Filter => leaf.compile registry schema root)
        leaf).symm
  | any children ih => exact (Outcome.verdict_map _ _).trans (verdict_compileList ih)
  | all children ih => exact (Outcome.verdict_map _ _).trans (verdict_compileList ih)

end Clause

namespace Search

theorem compileWith_eq_ok {search : Search} {connective : Connective} {predicate : Predicate} :
    search.compileWith connective registry schema root = .ok predicate ↔
      ∃ predicates, Clause.compileList registry schema root search.filters = .ok predicates ∧
        Predicate.fold connective predicates = predicate := by
  rw [compileWith, Outcome.map_eq_ok]

theorem verdict_compile (search : Search) :
    Outcome.verdict (search.compile registry schema root) =
      Outcome.verdict
        ((Clause.listLeaves search.filters).mapM fun leaf => leaf.compile registry schema root) :=
  (Outcome.verdict_map _ _).trans
    (Clause.verdict_compileList fun clause _ => clause.verdict_compile)

/-- A search compiles if all its filters do. -/
theorem exists_compile_eq_ok {search : Search} :
    (∃ predicate, search.compile registry schema root = .ok predicate) ↔
      ∀ leaf ∈ Clause.listLeaves search.filters,
        ∃ predicate, leaf.compile registry schema root = .ok predicate := by
  rw [← Outcome.verdict_eq_ok, verdict_compile, Outcome.verdict_eq_ok,
    Outcome.exists_mapM_eq_ok]

/-- A search is refused for the first of its filters that is refused. -/
theorem compile_eq_error {search : Search} {reason : SearchError} :
    search.compile registry schema root = .error reason ↔
      ∃ before leaf after, Clause.listLeaves search.filters = before ++ leaf :: after ∧
        (∀ other ∈ before, ∃ predicate, other.compile registry schema root = .ok predicate) ∧
        leaf.compile registry schema root = .error reason := by
  rw [← Outcome.verdict_eq_error, verdict_compile, Outcome.verdict_eq_error,
    Outcome.mapM_eq_error]

theorem exists_leaf_of_compile_error {search : Search} {reason : SearchError}
    (failed : search.compile registry schema root = .error reason) :
    ∃ leaf ∈ Clause.listLeaves search.filters,
      leaf.compile registry schema root = .error reason := by
  obtain ⟨before, leaf, after, cut, -, refused⟩ := compile_eq_error.mp failed
  exact ⟨leaf, cut ▸ List.mem_append_right before List.mem_cons_self, refused⟩

/-- A clause alone in a search is compiled as it is. -/
theorem compile_single (clause : Clause) :
    (Search.mk [clause]).compile registry schema root = clause.compile registry schema root := by
  rw [compile, compileWith, Clause.compileList]
  cases clause.compile registry schema root with
  | error reason => rfl
  | ok predicate => exact congrArg Except.ok (Predicate.fold_singleton .all predicate)

end Search

theorem Registry.find?_of_get_ok {type : FieldType} {member : String} {strategy : Strategy}
    (found : registry.get type member = .ok strategy) : registry.find? type = some strategy := by
  unfold get at found
  split at found
  · rename_i other present
    cases found
    exact present
  · cases found

namespace Strategy

theorem build_eq (strategy : Strategy) (filter : Filter) (path : ColumnPath) :
    strategy.build filter path =
      if strategy.supports filter.operator then
        filter.checkValueCount >>= fun _ => (strategy.condition filter).map (.column path)
      else .error (.unsupportedOperator filter.member filter.operator strategy.type) := by
  unfold build
  cases strategy.supports filter.operator with
  | false => rfl
  | true =>
      cases filter.checkValueCount with
      | error reason => rfl
      | ok _ => cases strategy.condition filter <;> rfl

theorem build_eq_ok {strategy : Strategy} {filter : Filter} {path : ColumnPath}
    {predicate : Predicate} :
    strategy.build filter path = .ok predicate ↔
      strategy.supports filter.operator = true ∧ filter.checkValueCount = .ok () ∧
        ∃ condition, strategy.condition filter = .ok condition ∧
          Predicate.column path condition = predicate := by
  rw [build_eq]
  cases strategy.supports filter.operator with
  | false => simp
  | true =>
      simp only [↓reduceIte, Outcome.bind_eq_ok, Outcome.map_eq_ok, true_and]
      constructor
      · intro steps
        obtain ⟨_, counted⟩ := steps
        exact counted
      · intro counted
        exact ⟨(), counted⟩

theorem build_eq_error {strategy : Strategy} {filter : Filter} {path : ColumnPath}
    {reason : SearchError} :
    strategy.build filter path = .error reason ↔
      strategy.supports filter.operator = false ∧
          reason = .unsupportedOperator filter.member filter.operator strategy.type ∨
        strategy.supports filter.operator = true ∧
          (filter.checkValueCount = .error reason ∨
            filter.checkValueCount = .ok () ∧ strategy.condition filter = .error reason) := by
  rw [build_eq]
  cases strategy.supports filter.operator with
  | false => simp [@eq_comm _ reason]
  | true => simp [Outcome.bind_eq_error, Unique.exists_iff]

end Strategy

namespace Filter

variable {filter : Filter}

theorem compile_of_relation {path : RelationPath}
    (resolved : resolve schema root filter.member = .ok (.relation path)) :
    filter.compile registry schema root = filter.presence path := by
  rw [Filter.compile, resolved]
  rfl

theorem compile_of_column {path : ColumnPath} {strategy : Strategy}
    (resolved : resolve schema root filter.member = .ok (.column path))
    (registered : registry.find? path.type = some strategy) :
    filter.compile registry schema root = strategy.build filter path := by
  have got : registry.get path.type filter.member = .ok strategy := by
    rw [Registry.get, registered]
  rw [Filter.compile, resolved]
  change registry.get path.type filter.member >>= _ = _
  rw [got]
  rfl

end Filter

theorem Filter.presence_eq_ok {filter : Filter} {path : RelationPath} {predicate : Predicate} :
    filter.presence path = .ok predicate ↔
      filter.operator = .set ∧ predicate = .related path true ∨
        filter.operator = .notSet ∧ predicate = .related path false := by
  unfold Filter.presence
  cases filter.operator with
  | set => simp [eq_comm]
  | notSet => simp [eq_comm]
  | _ => simp

/-- A filter on a column is built by the strategy of its type, and one on a relation asks for its
presence. -/
theorem Filter.compile_eq_ok {filter : Filter} {predicate : Predicate} :
    filter.compile registry schema root = .ok predicate ↔
      (∃ path strategy, resolve schema root filter.member = .ok (.column path) ∧
        registry.get path.type filter.member = .ok strategy ∧
        strategy.build filter path = .ok predicate) ∨
      ∃ path, resolve schema root filter.member = .ok (.relation path) ∧
        filter.presence path = .ok predicate := by
  rw [Filter.compile, Outcome.bind_eq_ok]
  constructor
  · intro steps
    obtain ⟨resolved, found, built⟩ := steps
    cases resolved with
    | column path =>
        obtain ⟨strategy, registered, built⟩ := Outcome.bind_eq_ok.mp built
        exact .inl ⟨path, strategy, found, registered, built⟩
    | relation path => exact .inr ⟨path, found, built⟩
  · intro ways
    rcases ways with ⟨path, strategy, found, registered, built⟩ | ⟨path, found, built⟩
    · exact ⟨.column path, found, Outcome.bind_eq_ok.mpr ⟨strategy, registered, built⟩⟩
    · exact ⟨.relation path, found, built⟩

/-- A filter becomes a condition on a column or a question for related rows. -/
theorem Filter.column_or_related_of_compile {filter : Filter} {predicate : Predicate}
    (compiled : filter.compile registry schema root = .ok predicate) :
    (∃ path condition, predicate = .column path condition) ∨
      ∃ path wanted, predicate = .related path wanted := by
  rcases compile_eq_ok.mp compiled with ⟨path, strategy, -, -, built⟩ | ⟨path, -, asked⟩
  · obtain ⟨-, -, condition, -, same⟩ := Strategy.build_eq_ok.mp built
    exact .inl ⟨path, condition, same.symm⟩
  · rcases presence_eq_ok.mp asked with ⟨-, same⟩ | ⟨-, same⟩
    · exact .inr ⟨path, true, same⟩
    · exact .inr ⟨path, false, same⟩

end PartnerSearch
