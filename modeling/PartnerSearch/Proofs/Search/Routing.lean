import PartnerSearch.Proofs.Predicate.Fold
import PartnerSearch.Proofs.Schema.Walk
import PartnerSearch.Proofs.Search.Condition

set_option autoImplicit false

/-!
What compiling leaves of a search. Every path follows relations of the schema, over one collection
at most; sets have a value, relations are crossed, and groups have two items or more.
-/

namespace PartnerSearch

inductive Predicate.Routed (schema : Schema) (root : Fin schema.size) : Predicate → Prop
  | always : Routed schema root .always
  | column {path : ColumnPath} {condition : Condition} {goal : Fin schema.size} {name : String}
      (walked : schema.Walk root path.hops goal)
      (declared : .scalar name path.column path.type ∈ (schema.entity goal).fields)
      (few : path.hops.countP Hop.isMany ≤ 1) (some_value : condition ≠ .within []) :
      Routed schema root (.column path condition)
  | related {path : RelationPath} {present : Bool} {goal : Fin schema.size}
      (walked : schema.Walk root path.hops goal) (crossed : path.hops ≠ []) :
      Routed schema root (.related path present)
  | group {connective : Connective} {items : List Predicate} (several : 2 ≤ items.length)
      (each : ∀ item ∈ items, Routed schema root item) :
      Routed schema root (.group connective items)

variable {registry : Registry} {schema : Schema} {root : Fin schema.size}

namespace Predicate

theorem routed_ofItems (connective : Connective) {items : List Predicate}
    (each : ∀ item ∈ items, Routed schema root item) :
    Routed schema root (ofItems connective items) := by
  match items with
  | [] => exact .always
  | [item] => exact each item (List.mem_singleton_self item)
  | first :: second :: rest => exact .group (by simp) each

theorem routed_fold (connective : Connective) {items : List Predicate}
    (each : ∀ item ∈ items, Routed schema root item) :
    Routed schema root (fold connective items) := by
  cases connective with
  | all => exact routed_ofItems .all fun item member => each item (List.mem_filter.mp member).1
  | any =>
      rw [fold]
      split
      · exact .always
      · exact routed_ofItems .any each

end Predicate

namespace Path

theorem segments_ne_nil {member : String} {parts : List String}
    (cut : segments member = .ok parts) : parts ≠ [] := by
  unfold segments at cut
  dsimp only at cut
  split at cut
  · cases cut
  · split at cut
    · cases cut
    · split at cut
      · cases cut
      · cases cut
        intro none
        exact Text.splitOn_ne_nil '.' member.toList (List.map_eq_nil_iff.mp none)

theorem crossed_of_no_scalar {member : String} {segments : List String}
    {position : Fin schema.size} {crossed : Bool} {result : Walk} (some_segment : segments ≠ [])
    (success : walk schema member segments position crossed = .ok result)
    (relation : result.scalar = none) : result.hops ≠ [] := by
  cases segments with
  | nil => exact absurd rfl some_segment
  | cons segment rest =>
      rcases walk_cons_ok success with
        ⟨column, type, -, -, rfl⟩ | ⟨target, cardinality, join, next, -, -, -, rfl⟩
      · cases relation
      · exact List.cons_ne_nil _ _

end Path

theorem Strategy.condition_ne_within_nil {strategy : Strategy} {filter : Filter}
    {condition : Condition} (counted : filter.checkValueCount = .ok ())
    (imposed : strategy.condition filter = .ok condition) : condition ≠ .within [] := by
  rintro rfl
  have admitted := Filter.operator_admits_of_checkValueCount counted
  have form := (condition_ok imposed).1
  cases operator : filter.operator with
  | within =>
      rw [operator, Filter.operands, operator] at form
      have none : filter.values = [] := by
        simpa [Condition.bare, Operator.bareCondition] using form
      rw [operator, none] at admitted
      cases admitted
  | _ =>
      rw [operator] at form
      cases form

theorem Filter.routed_of_compile {filter : Filter} {predicate : Predicate}
    (compiled : filter.compile registry schema root = .ok predicate) :
    predicate.Routed schema root := by
  rcases Filter.compile_eq_ok.mp compiled with
    ⟨path, strategy, found, -, built⟩ | ⟨path, found, asked⟩
  · obtain ⟨-, counted, condition, imposed, rfl⟩ := Strategy.build_eq_ok.mp built
    obtain ⟨goal, name, walked, declared⟩ := walk_of_resolve_column found
    obtain ⟨segments, walk, -, onward, same⟩ := resolve_ok found
    have few := Path.walk_many onward
    rw [(Path.Walk.eq_of_resolved_column same.symm).1] at few
    exact .column walked declared few (Strategy.condition_ne_within_nil counted imposed)
  · obtain ⟨segments, walk, cut, onward, same⟩ := resolve_ok found
    obtain ⟨hops, relation⟩ := Path.Walk.eq_of_resolved_relation same.symm
    obtain ⟨goal, walked, -⟩ := Path.walk_walks onward
    have crossed := Path.crossed_of_no_scalar (Path.segments_ne_nil cut) onward relation
    rw [hops] at walked crossed
    rcases Filter.presence_eq_ok.mp asked with ⟨-, rfl⟩ | ⟨-, rfl⟩
    · exact .related walked crossed
    · exact .related walked crossed

namespace Clause

theorem routed_of_compile {clause : Clause} {predicate : Predicate}
    (compiled : clause.compile registry schema root = .ok predicate) :
    predicate.Routed schema root := by
  refine compile_induction ?filter ?any ?all compiled
  case filter => exact fun leaf predicate => Filter.routed_of_compile
  case any =>
    exact fun children predicates _ each => Predicate.routed_fold .any (forall_of_forall₂ each)
  case all =>
    exact fun children predicates _ each => Predicate.routed_fold .all (forall_of_forall₂ each)

end Clause

/-- Whatever joins its filters, a compiled search is routed. -/
theorem Search.routed_of_compileWith {search : Search} {connective : Connective}
    {predicate : Predicate}
    (compiled : search.compileWith connective registry schema root = .ok predicate) :
    predicate.Routed schema root := by
  obtain ⟨predicates, each, rfl⟩ := Search.compileWith_eq_ok.mp compiled
  exact Predicate.routed_fold connective (Clause.forall_of_forall₂
    ((Clause.compileList_eq_ok.mp each).imp fun _ _ => Clause.routed_of_compile))

end PartnerSearch
