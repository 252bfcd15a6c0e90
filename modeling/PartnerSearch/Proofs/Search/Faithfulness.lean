import PartnerSearch.Proofs.Directory.Objects
import PartnerSearch.Proofs.Directory.Selection
import PartnerSearch.Proofs.Sql.Reading

set_option autoImplicit false

/-!
The text of a search says what its paths mean. Read as SQL, over tables in which objects are single,
it is true of the rows of the root table from which the chains of related rows lead as asked.
-/

namespace PartnerSearch

open Sql

/-- A row of the root table under its alias. -/
def Sql.Aliases.ofRoot (row : Row) : Aliases :=
  fun label => if label = aliasName 0 then row else Row.unset

theorem Sql.Aliases.scope_ofRoot (row : Row) : (ofRoot row).scope = Scope.ofRoot row := by
  funext slot
  by_cases root : slot = 0
  · subst root
    rfl
  · have other : aliasName slot ≠ aliasName 0 := fun same => root (aliasName_injective same)
    simp [scope, ofRoot, Scope.ofRoot, root, other]

namespace Search

/-- The text of a compiled search over plain names can be read as SQL, with every name in sight of
its table. For single objects it is true of a row of the root table exactly if the predicate means
it. -/
theorem fragment_means {registry : Registry} {schema : Schema} {root : Fin schema.size}
    (plain : schema.IsPlain) {search : Search} {connective : Connective} {predicate : Predicate}
    (compiled : search.compileWith connective registry schema root = .ok predicate) :
    ∃ test, predicate.fragment.read = some test ∧ test.Resolves [aliasName 0] ∧
      ∀ tables, schema.SingleObjects tables → ∀ row ∈ tables (schema.entity root).table,
        ((test.eval tables (.ofRoot row)).holds = true ↔ predicate.Means tables row) := by
  have routed := routed_of_compileWith compiled
  obtain ⟨test, read, resolves, truth⟩ :=
    Formula.read_fragment (Formula.wellFormed_ofPredicate plain routed 0)
  refine ⟨test, read, resolves, ?_⟩
  intro tables single row stored
  rw [truth, Aliases.scope_ofRoot, Formula.eval_ofPredicate]
  exact (Predicate.means_iff_holds single stored routed).symm

/-- Partners without a contact, or of which an attribute belongs to a partner in Germany. -/
def roundabout : Search :=
  ⟨[.any [.filter ⟨"contact", .notSet, []⟩,
    .filter ⟨"attributes.partner.contact.country", .equals, ["DE"]⟩]]⟩

theorem fragment_means_roundabout :
    ∃ predicate test,
      roundabout.compileWith .all Directory.registry Directory.schema Directory.root =
        .ok predicate ∧
      predicate.fragment.read = some test ∧
      ∀ row ∈ Directory.sample.tables "partners",
        ((test.eval Directory.sample.tables (.ofRoot row)).holds = true ↔
          predicate.Means Directory.sample.tables row) := by
  have compiled : ∃ predicate, roundabout.compileWith .all Directory.registry Directory.schema
      Directory.root = .ok predicate := ⟨_, rfl⟩
  obtain ⟨predicate, compiled⟩ := compiled
  obtain ⟨test, read, -, means⟩ := fragment_means Directory.plain_schema compiled
  have unique : Directory.sample.UniqueKeys := ⟨by decide, by decide⟩
  exact ⟨predicate, test, compiled, read, means _ (Directory.singleObjects unique)⟩

end Search

end PartnerSearch
