import PartnerSearch.Proofs.Predicate.Fold
import PartnerSearch.Proofs.Search.Compilation

set_option autoImplicit false

/-!
Clauses that ask for nothing. An empty group does, and so do a disjunction with a child that does
and a conjunction of such children alone; these are the clauses whose predicate always holds.
-/

namespace PartnerSearch

variable {registry : Registry} {schema : Schema} {root : Fin schema.size}

namespace Clause

mutual

def isVacuous : Clause → Bool
  | .filter _ => false
  | .any children => children.isEmpty || anyVacuous children
  | .all children => allVacuous children

def anyVacuous : List Clause → Bool
  | [] => false
  | child :: rest => child.isVacuous || anyVacuous rest

def allVacuous : List Clause → Bool
  | [] => true
  | child :: rest => child.isVacuous && allVacuous rest

end

theorem anyVacuous_eq_any (clauses : List Clause) : anyVacuous clauses = clauses.any isVacuous := by
  induction clauses with
  | nil => rfl
  | cons clause rest ih => rw [anyVacuous, ih, List.any_cons]

theorem allVacuous_eq_all (clauses : List Clause) : allVacuous clauses = clauses.all isVacuous := by
  induction clauses with
  | nil => rfl
  | cons clause rest ih => rw [allVacuous, ih, List.all_cons]

end Clause

theorem Filter.isAlways_of_compile {filter : Filter} {predicate : Predicate}
    (compiled : filter.compile registry schema root = .ok predicate) :
    predicate.isAlways = false := by
  rcases Filter.compile_eq_ok.mp compiled with
    ⟨path, strategy, -, -, built⟩ | ⟨path, -, asked⟩
  · obtain ⟨-, -, condition, -, rfl⟩ := Strategy.build_eq_ok.mp built
    rfl
  · rcases Filter.presence_eq_ok.mp asked with ⟨-, rfl⟩ | ⟨-, rfl⟩
    · rfl
    · rfl

namespace Clause

/-- The judgement of each child carries over to lists of children. -/
theorem vacuous_of_forall₂ {children : List Clause} {predicates : List Predicate}
    (each : List.Forall₂ (fun child predicate => predicate.isAlways = child.isVacuous)
      children predicates) :
    predicates.any Predicate.isAlways = anyVacuous children ∧
      predicates.all Predicate.isAlways = allVacuous children := by
  induction each with
  | nil => exact ⟨rfl, rfl⟩
  | cons here rest ih =>
      obtain ⟨some_always, all_always⟩ := ih
      rw [List.any_cons, List.all_cons, here, some_always, all_always, anyVacuous, allVacuous]
      exact ⟨rfl, rfl⟩

/-- A compiled clause always holds exactly when it asks for nothing. -/
theorem isAlways_of_compile {clause : Clause} {predicate : Predicate}
    (compiled : clause.compile registry schema root = .ok predicate) :
    predicate.isAlways = clause.isVacuous := by
  refine compile_induction ?filter ?any ?all compiled
  case filter => exact fun leaf predicate => Filter.isAlways_of_compile
  case any =>
    intro children predicates _ each
    have empty : predicates.isEmpty = children.isEmpty := by
      rw [Bool.eq_iff_iff, List.isEmpty_iff_length_eq_zero, List.isEmpty_iff_length_eq_zero,
        each.length_eq]
    rw [Predicate.isAlways_fold_any, empty, (vacuous_of_forall₂ each).1, isVacuous]
  case all =>
    intro children predicates _ each
    rw [Predicate.isAlways_fold_all, (vacuous_of_forall₂ each).2, isVacuous]

theorem isAlways_of_compileList {children : List Clause} {predicates : List Predicate}
    (compiled : compileList registry schema root children = .ok predicates) :
    predicates.any Predicate.isAlways = anyVacuous children :=
  (vacuous_of_forall₂ ((compileList_eq_ok.mp compiled).imp fun _ _ => isAlways_of_compile)).1

end Clause

end PartnerSearch
