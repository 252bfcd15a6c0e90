import PartnerSearch.Directory.Schema
import PartnerSearch.Proofs.Search.Vacuity
import PartnerSearch.Proofs.Sql.Punctuation

set_option autoImplicit false

/-!
Compiled searches are in normal form and lose no filter. What asks for nothing leaves no trace; every
other filter becomes one condition, in document order.
-/

namespace PartnerSearch

variable {registry : Registry} {schema : Schema} {root : Fin schema.size}

namespace Clause

mutual

/-- The filters of a clause without those in vacuous clauses, in document order. -/
def solidLeaves : Clause → List Filter
  | .filter leaf => [leaf]
  | .any children => if (Clause.any children).isVacuous then [] else listSolidLeaves children
  | .all children => if (Clause.all children).isVacuous then [] else listSolidLeaves children

def listSolidLeaves : List Clause → List Filter
  | [] => []
  | child :: rest => child.solidLeaves ++ listSolidLeaves rest

end

mutual

def hasEmptyGroup : Clause → Bool
  | .filter _ => false
  | .any children => children.isEmpty || listHasEmptyGroup children
  | .all children => children.isEmpty || listHasEmptyGroup children

def listHasEmptyGroup : List Clause → Bool
  | [] => false
  | child :: rest => child.hasEmptyGroup || listHasEmptyGroup rest

end

theorem listHasEmptyGroup_eq_any (clauses : List Clause) :
    listHasEmptyGroup clauses = clauses.any hasEmptyGroup := by
  induction clauses with
  | nil => rfl
  | cons clause rest ih => rw [listHasEmptyGroup, ih, List.any_cons]

theorem listSolidLeaves_eq_listLeaves {clauses : List Clause}
    (each : ∀ clause ∈ clauses, clause.solidLeaves = clause.leaves) :
    listSolidLeaves clauses = listLeaves clauses := by
  induction clauses with
  | nil => rfl
  | cons clause rest ih =>
      obtain ⟨first, others⟩ := List.forall_mem_cons.mp each
      rw [listSolidLeaves, listLeaves, first, ih others]

theorem filled_children {children : List Clause}
    (filled : (children.isEmpty || listHasEmptyGroup children) = false) :
    children ≠ [] ∧ ∀ child ∈ children, child.hasEmptyGroup = false := by
  rw [Bool.or_eq_false_iff, listHasEmptyGroup_eq_any, List.any_eq_false] at filled
  constructor
  · rintro rfl
    cases filled.1
  · intro child member
    simpa using filled.2 child member

/-- Without empty groups nothing is vacuous, and all filters count. -/
theorem solid_of_filled {clause : Clause} (filled : clause.hasEmptyGroup = false) :
    clause.isVacuous = false ∧ clause.solidLeaves = clause.leaves := by
  induction clause with
  | filter leaf => exact ⟨rfl, rfl⟩
  | any children ih =>
      obtain ⟨nonempty, each⟩ := filled_children filled
      have solid := fun child member => ih child member (each child member)
      have proper : (Clause.any children).isVacuous = false := by
        rw [isVacuous, Bool.or_eq_false_iff, anyVacuous_eq_any, List.any_eq_false]
        exact ⟨by simpa using nonempty, fun child member => by simp [solid child member]⟩
      refine ⟨proper, ?_⟩
      rw [solidLeaves, proper, leaves]
      exact listSolidLeaves_eq_listLeaves fun child member => (solid child member).2
  | all children ih =>
      obtain ⟨nonempty, each⟩ := filled_children filled
      have solid := fun child member => ih child member (each child member)
      have proper : (Clause.all children).isVacuous = false := by
        obtain ⟨child, member⟩ := List.exists_mem_of_ne_nil children nonempty
        rw [isVacuous, allVacuous_eq_all, List.all_eq_false]
        exact ⟨child, member, by simp [solid child member]⟩
      refine ⟨proper, ?_⟩
      rw [solidLeaves, proper, leaves]
      exact listSolidLeaves_eq_listLeaves fun child member => (solid child member).2

end Clause

/-- A filter becomes one condition. -/
theorem Filter.shape_of_compile {filter : Filter} {predicate : Predicate}
    (compiled : filter.compile registry schema root = .ok predicate) :
    (∃ path condition, condition ≠ .within [] ∧ predicate = .column path condition) ∨
      ∃ path present, predicate = .related path present := by
  rcases Filter.compile_eq_ok.mp compiled with
    ⟨path, strategy, -, -, built⟩ | ⟨path, -, asked⟩
  · obtain ⟨-, counted, condition, imposed, rfl⟩ := Strategy.build_eq_ok.mp built
    exact .inl ⟨path, condition, Strategy.condition_ne_within_nil counted imposed, rfl⟩
  · rcases Filter.presence_eq_ok.mp asked with ⟨-, rfl⟩ | ⟨-, rfl⟩
    · exact .inr ⟨path, true, rfl⟩
    · exact .inr ⟨path, false, rfl⟩

theorem Filter.normal_of_compile {filter : Filter} {predicate : Predicate}
    (compiled : filter.compile registry schema root = .ok predicate) : predicate.Normal := by
  rcases Filter.shape_of_compile compiled with
    ⟨path, condition, some_value, rfl⟩ | ⟨path, present, rfl⟩
  · exact .column some_value
  · exact .related

theorem Filter.conditions_of_compile {filter : Filter} {predicate : Predicate}
    (compiled : filter.compile registry schema root = .ok predicate) :
    predicate.conditions = [predicate] := by
  rcases Filter.shape_of_compile compiled with ⟨path, condition, -, rfl⟩ | ⟨path, present, rfl⟩
  · rfl
  · rfl

namespace Clause

/-- Each filter compiles to the condition beside it. -/
def CompileTo (registry : Registry) (schema : Schema) (root : Fin schema.size)
    (leaves : List Filter) (conditions : List Predicate) : Prop :=
  List.Forall₂ (fun leaf condition => leaf.compile registry schema root = .ok condition)
    leaves conditions

/-- A compiled clause always holds, or it is in normal form. -/
theorem normal_of_compile {clause : Clause} {predicate : Predicate}
    (compiled : clause.compile registry schema root = .ok predicate) :
    predicate.isAlways = false → predicate.Normal := by
  refine compile_induction ?filter ?any ?all compiled
  case filter => exact fun leaf predicate compiled _ => Filter.normal_of_compile compiled
  case any =>
    exact fun children predicates _ each => Predicate.normal_fold .any (forall_of_forall₂ each)
  case all =>
    exact fun children predicates _ each => Predicate.normal_fold .all (forall_of_forall₂ each)

theorem conditions_of_forall₂ {children : List Clause} {predicates : List Predicate}
    (each : List.Forall₂ (fun child predicate =>
      CompileTo registry schema root child.solidLeaves predicate.conditions) children predicates) :
    CompileTo registry schema root (listSolidLeaves children)
      (Predicate.listConditions predicates) := by
  induction each with
  | nil => exact .nil
  | cons here rest ih => exact List.rel_append here ih

theorem conditions_of_compile {clause : Clause} {predicate : Predicate}
    (compiled : clause.compile registry schema root = .ok predicate) :
    CompileTo registry schema root clause.solidLeaves predicate.conditions := by
  refine compile_induction ?filter ?any ?all compiled
  case filter =>
    intro leaf predicate compiled
    rw [Filter.conditions_of_compile compiled]
    exact .cons compiled .nil
  case any =>
    intro children predicates compiled each
    have vacuous := isAlways_of_compile (compile_any_eq_ok.mpr ⟨predicates, compiled, rfl⟩)
    rw [solidLeaves, ← vacuous, Predicate.conditions_fold]
    split
    · exact .nil
    · exact conditions_of_forall₂ each
  case all =>
    intro children predicates compiled each
    have vacuous := isAlways_of_compile (compile_all_eq_ok.mpr ⟨predicates, compiled, rfl⟩)
    rw [solidLeaves, ← vacuous, Predicate.conditions_fold]
    split
    · exact .nil
    · exact conditions_of_forall₂ each

end Clause

theorem Directory.calm_names : ∀ name ∈ Directory.schema.names, Sql.IsCalm name := by
  decide +kernel

namespace Search

open Sql

/-- A compiled search always holds exactly if its clauses all ask for nothing. Otherwise it is in normal
form. Its conditions are the filters outside of vacuous clauses, compiled one by one in document order,
so that without empty groups each filter counts. Over names without punctuation its text has no empty
parentheses, and the text that always holds is not a part of any other. -/
theorem compile_normal {search : Search} {predicate : Predicate}
    (compiled : search.compile registry schema root = .ok predicate) :
    (predicate = .always ↔ ∀ clause ∈ search.filters, clause.isVacuous = true) ∧
      (predicate ≠ .always → predicate.Normal) ∧
      Clause.CompileTo registry schema root (Clause.listSolidLeaves search.filters)
        predicate.conditions ∧
      ((∀ clause ∈ search.filters, clause.hasEmptyGroup = false) →
        predicate.conditionCount = (Clause.listLeaves search.filters).length) ∧
      ((∀ name ∈ schema.names, IsCalm name) →
        ¬"()".toList <:+: predicate.fragment.sql.toList ∧
        ¬"IN ()".toList <:+: predicate.fragment.sql.toList ∧
        ("1 = 1".toList <:+: predicate.fragment.sql.toList → predicate.fragment.sql = "1 = 1")) := by
  -- a search is compiled as the conjunction of its clauses
  have whole : (Clause.all search.filters).compile registry schema root = .ok predicate := compiled
  have vacuous : predicate = .always ↔ ∀ clause ∈ search.filters, clause.isVacuous = true := by
    have same := Clause.isAlways_of_compile whole
    rw [Clause.isVacuous, Clause.allVacuous_eq_all] at same
    rw [← List.all_eq_true, ← same]
    exact ⟨fun always => always ▸ rfl, Predicate.eq_always_of_isAlways⟩
  have normal : predicate ≠ .always → predicate.Normal := by
    intro proper
    refine Clause.normal_of_compile whole (Bool.eq_false_iff.mpr fun always => ?_)
    exact proper (Predicate.eq_always_of_isAlways always)
  have conditions : Clause.CompileTo registry schema root (Clause.listSolidLeaves search.filters)
      predicate.conditions := by
    obtain ⟨predicates, each, rfl⟩ := compileWith_eq_ok.mp compiled
    rw [Predicate.conditions_fold_all]
    exact Clause.conditions_of_forall₂
      ((Clause.compileList_eq_ok.mp each).imp fun _ _ => Clause.conditions_of_compile)
  refine ⟨vacuous, normal, conditions, ?_, ?_⟩
  · intro filled
    have all := Clause.listSolidLeaves_eq_listLeaves fun clause member =>
      (Clause.solid_of_filled (filled clause member)).2
    rw [Predicate.conditionCount_eq_length, ← conditions.length_eq, all]
  · intro calm
    by_cases always : predicate = .always
    · subst always
      decide
    · have named := fun name member =>
        calm name ((routed_of_compileWith compiled).names_mem name member)
      have absent {part : List Char} := @Predicate.Normal.not_infix _ (normal always) named part
      have empty : ¬"()".toList <:+: predicate.fragment.sql.toList :=
        absent fun mark => by cases mark <;> decide
      refine ⟨empty, fun inside => ?_, fun inside => ?_⟩
      · exact empty (List.IsInfix.trans (by decide) inside)
      · exact absurd (List.IsInfix.trans (by decide) inside)
          (@absent "= 1".toList fun mark => by cases mark <;> decide)

/-- Two filters among clauses that ask for nothing. -/
def lopsided : Search :=
  ⟨[.all [], .any [.filter ⟨"tier", .within, ["1", "2"]⟩,
    .all [.any [], .filter ⟨"attributes", .set, []⟩]]]⟩

theorem compile_normal_lopsided :
    ∃ predicate, lopsided.compile Directory.registry Directory.schema Directory.root =
        .ok predicate ∧
      predicate.Normal ∧ predicate.conditions.length = 2 ∧
      ¬"()".toList <:+: predicate.fragment.sql.toList := by
  have compiled : ∃ predicate,
      lopsided.compile Directory.registry Directory.schema Directory.root = .ok predicate :=
    ⟨_, rfl⟩
  obtain ⟨predicate, compiled⟩ := compiled
  obtain ⟨vacuous, normal, conditions, -, text⟩ := compile_normal compiled
  have proper : predicate ≠ .always := by
    rw [ne_eq, vacuous]
    simp [lopsided, Clause.isVacuous, Clause.anyVacuous, Clause.allVacuous]
  exact ⟨predicate, compiled, normal proper, conditions.length_eq.symm, (text Directory.calm_names).1⟩

end Search

end PartnerSearch
