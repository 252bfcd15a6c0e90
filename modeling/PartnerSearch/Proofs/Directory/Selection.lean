import Mathlib.Data.Set.Lattice
import PartnerSearch.Proofs.Directory.Execution
import PartnerSearch.Proofs.Predicate.Fold
import PartnerSearch.Proofs.Search.Compilation
import PartnerSearch.Proofs.Sql.Truth

set_option autoImplicit false

/-!
What a search selects from a directory. The partners of a group are the common partners of its
children, or all of theirs together; neither the simplification of predicates nor unknown truth
changes that.
-/

namespace PartnerSearch

namespace Predicate

variable {tables : Sql.Tables} {row : Sql.Row}

theorem holds_of_isAlways {item : Predicate} (always : item.isAlways = true) :
    item.holds tables row = true := by
  rw [eq_always_of_isAlways always, holds_always]

theorem holds_ofItems_all (items : List Predicate) :
    (ofItems .all items).holds tables row = items.all (holds tables row) := by
  match items with
  | [] => rfl
  | [item] => simp [ofItems]
  | first :: second :: rest => exact holds_all (first :: second :: rest)

theorem holds_ofItems_any {items : List Predicate} (nonempty : items ≠ []) :
    (ofItems .any items).holds tables row = items.any (holds tables row) := by
  match items with
  | [] => cases nonempty rfl
  | [item] => simp [ofItems]
  | first :: second :: rest => exact holds_any (first :: second :: rest)

/-- Dropping what always holds from a conjunction does not change it. -/
theorem holds_fold_all (items : List Predicate) :
    (fold .all items).holds tables row = items.all (holds tables row) := by
  rw [fold, holds_ofItems_all, List.all_filter]
  congr 1
  funext item
  cases always : item.isAlways with
  | false => rfl
  | true => rw [holds_of_isAlways always]; rfl

/-- A disjunction with an item that always holds may be left undecided by the others. -/
theorem holds_fold_any {items : List Predicate} (nonempty : items ≠ []) :
    (fold .any items).holds tables row = items.any (holds tables row) := by
  rw [fold]
  split
  · rename_i some_always
    obtain ⟨item, member, always⟩ := List.any_eq_true.mp some_always
    exact (List.any_eq_true.mpr ⟨item, member, holds_of_isAlways always⟩).symm
  · exact holds_ofItems_any nonempty

end Predicate

namespace Directory

variable {directory : Directory}

theorem insertOrdered_perm {α : Type} (before : α → α → Bool) (item : α) (items : List α) :
    (insertOrdered before item items).Perm (item :: items) := by
  induction items with
  | nil => exact .refl [item]
  | cons first rest ih =>
      rw [insertOrdered]
      split
      · exact (ih.cons first).trans (.swap item first rest)
      · exact .refl _

theorem ordered_perm {α : Type} (before : α → α → Bool) (items : List α) :
    (ordered before items).Perm items := by
  induction items with
  | nil => exact .refl []
  | cons item rest ih => exact (insertOrdered_perm before item _).trans (ih.cons item)

theorem mem_selected {predicate : Predicate} {partner : Partner} :
    partner ∈ directory.selected predicate ↔
      partner ∈ directory.partners ∧ predicate.holds directory.tables partner.row = true := by
  rw [selected_eq_filter, List.mem_filter]

/-- All partners. -/
def everyPartner (directory : Directory) : Set Partner := {partner | partner ∈ directory.partners}

/-- The partners that a search lists without a limit. -/
def rows (directory : Directory) (registry : Registry) (search : Search) : Set Partner :=
  {partner | ∃ predicate listed, search.compile registry schema root = .ok predicate ∧
    directory.list predicate none none = .ok listed ∧ partner ∈ listed}

/-- The compiler does not refuse the search. -/
def Compiles (registry : Registry) (search : Search) : Prop :=
  ∃ predicate, search.compile registry schema root = .ok predicate

/-- Neither the compiler refuses the search nor the engine its statements. -/
def Runs (directory : Directory) (registry : Registry) (search : Search) : Prop :=
  ∃ predicate, search.compile registry schema root = .ok predicate ∧ directory.Executes predicate

/-- A clause taken alone. -/
def only (clause : Clause) : Search := ⟨[clause]⟩

/-- Each of the clauses runs by itself. -/
def RunEach (directory : Directory) (registry : Registry) (clauses : List Clause) : Prop :=
  ∀ clause ∈ clauses, directory.Runs registry (only clause)

variable {registry : Registry}

theorem compile_only (clause : Clause) :
    (only clause).compile registry schema root = clause.compile registry schema root :=
  Search.compile_single clause

theorem Runs.compiles {search : Search} (runs : directory.Runs registry search) :
    Compiles registry search := by
  obtain ⟨predicate, compiled, -⟩ := runs
  exact ⟨predicate, compiled⟩

theorem Runs.executes {search : Search} {predicate : Predicate}
    (runs : directory.Runs registry search)
    (compiled : search.compile registry schema root = .ok predicate) :
    directory.Executes predicate := by
  obtain ⟨other, same, executes⟩ := runs
  cases compiled.symm.trans same
  exact executes

theorem mem_rows {search : Search} {predicate : Predicate}
    (compiled : search.compile registry schema root = .ok predicate)
    (executes : directory.Executes predicate) (partner : Partner) :
    partner ∈ directory.rows registry search ↔
      partner ∈ directory.everyPartner ∧
        predicate.holds directory.tables partner.row = true := by
  have listed := executes.list none none
  constructor
  · intro listed_among
    obtain ⟨other, found, same, list, member⟩ := listed_among
    cases compiled.symm.trans same
    cases listed.symm.trans list
    exact mem_selected.mp ((ordered_perm _ _).mem_iff.mp member)
  · intro held
    exact ⟨predicate, _, compiled, listed, (ordered_perm _ _).mem_iff.mpr (mem_selected.mpr held)⟩

/-- A search that the engine refuses lists nothing. -/
theorem rows_of_refused {search : Search} {predicate : Predicate} {fault : EngineFault}
    (compiled : search.compile registry schema root = .ok predicate)
    (refused : directory.list predicate none none = .error fault) :
    directory.rows registry search = ∅ := by
  apply Set.eq_empty_of_forall_notMem
  rintro partner ⟨other, listed, again, found, -⟩
  cases compiled.symm.trans again
  cases refused.symm.trans found

theorem mem_rows_only {clause : Clause} {predicate : Predicate}
    (compiled : clause.compile registry schema root = .ok predicate)
    (runs : directory.Runs registry (only clause)) {partner : Partner}
    (stored : partner ∈ directory.everyPartner) :
    partner ∈ directory.rows registry (only clause) ↔
      predicate.holds directory.tables partner.row = true := by
  have alone := (compile_only clause).trans compiled
  rw [mem_rows alone (runs.executes alone), and_iff_right stored]

section Clauses

variable {clauses : List Clause} {predicates : List Predicate}
  (compiled : Clause.compileList registry schema root clauses = .ok predicates)

include compiled

theorem compiles_only : ∀ clause ∈ clauses, Compiles registry (only clause) := by
  induction Clause.compileList_eq_ok.mp compiled with
  | nil => simp
  | cons first rest ih =>
      rw [List.forall_mem_cons]
      exact ⟨⟨_, (compile_only _).trans first⟩, ih (Clause.compileList_eq_ok.mpr rest)⟩

variable (run : directory.RunEach registry clauses)

include run

theorem all_holds_iff {partner : Partner} (stored : partner ∈ directory.everyPartner) :
    predicates.all (Predicate.holds directory.tables partner.row) = true ↔
      ∀ clause ∈ clauses, partner ∈ directory.rows registry (only clause) := by
  induction Clause.compileList_eq_ok.mp compiled with
  | nil => simp
  | cons first rest ih =>
      obtain ⟨here, later⟩ := List.forall_mem_cons.mp run
      rw [List.all_cons, Bool.and_eq_true, ← mem_rows_only first here stored,
        List.forall_mem_cons, ih (Clause.compileList_eq_ok.mpr rest) later]

theorem any_holds_iff {partner : Partner} (stored : partner ∈ directory.everyPartner) :
    predicates.any (Predicate.holds directory.tables partner.row) = true ↔
      ∃ clause ∈ clauses, partner ∈ directory.rows registry (only clause) := by
  induction Clause.compileList_eq_ok.mp compiled with
  | nil => simp
  | cons first rest ih =>
      obtain ⟨here, later⟩ := List.forall_mem_cons.mp run
      rw [List.any_cons, Bool.or_eq_true, ← mem_rows_only first here stored,
        ih (Clause.compileList_eq_ok.mpr rest) later]
      simp

/-- A search whose predicate is the conjunction of those of some clauses. -/
theorem rows_all {search : Search}
    (folded : search.compile registry schema root = .ok (Predicate.fold .all predicates))
    (executes : directory.Executes (Predicate.fold .all predicates)) :
    directory.rows registry search =
      directory.everyPartner ∩ ⋂ clause ∈ clauses, directory.rows registry (only clause) := by
  ext partner
  rw [mem_rows folded executes, Predicate.holds_fold_all, Set.mem_inter_iff, Set.mem_iInter₂]
  exact and_congr_right fun stored => all_holds_iff compiled run stored

/-- A search whose predicate is the disjunction of those of some clauses. -/
theorem rows_any {search : Search}
    (folded : search.compile registry schema root = .ok (Predicate.fold .any predicates))
    (executes : directory.Executes (Predicate.fold .any predicates)) (nonempty : clauses ≠ []) :
    directory.rows registry search = ⋃ clause ∈ clauses, directory.rows registry (only clause) := by
  have same := (Clause.compileList_eq_ok.mp compiled).length_eq
  have some_predicate : predicates ≠ [] := by
    rw [← List.length_pos_iff, ← same, List.length_pos_iff]
    exact nonempty
  have stored_of_mem {clause : Clause} (member : clause ∈ clauses) {partner : Partner}
      (selected : partner ∈ directory.rows registry (only clause)) :
      partner ∈ directory.everyPartner := by
    obtain ⟨predicate, own, executes⟩ := run clause member
    exact ((mem_rows own executes partner).mp selected).1
  ext partner
  rw [mem_rows folded executes, Predicate.holds_fold_any some_predicate, Set.mem_iUnion₂]
  constructor
  · intro both
    obtain ⟨stored, held⟩ := both
    obtain ⟨clause, member, selected⟩ := (any_holds_iff compiled run stored).mp held
    exact ⟨clause, member, selected⟩
  · intro inside
    obtain ⟨clause, member, selected⟩ := inside
    have stored := stored_of_mem member selected
    exact ⟨stored, (any_holds_iff compiled run stored).mpr ⟨clause, member, selected⟩⟩

end Clauses

/-- A filter by itself lists the partners of which its condition is true, neither false nor unknown. -/
theorem rows_filter {leaf : Filter} (runs : directory.Runs registry (only (.filter leaf))) :
    (∃ path condition, leaf.compile registry schema root = .ok (.column path condition) ∧
        directory.rows registry (only (.filter leaf)) = {partner ∈ directory.everyPartner |
          path.truth directory.tables partner.row condition = some true}) ∨
      ∃ path wanted, leaf.compile registry schema root = .ok (.related path wanted) ∧
        directory.rows registry (only (.filter leaf)) = {partner ∈ directory.everyPartner |
          path.truth directory.tables partner.row wanted = some true} := by
  obtain ⟨predicate, compiled, executes⟩ := runs
  have alone := (compile_only (.filter leaf)).symm.trans compiled
  have listed : directory.rows registry (only (.filter leaf)) = {partner ∈ directory.everyPartner |
      predicate.truth directory.tables partner.row = some true} := by
    ext partner
    rw [mem_rows compiled executes, Predicate.holds, Sql.Truth.holds_eq_true]
    rfl
  rcases Filter.column_or_related_of_compile alone with ⟨path, condition, rfl⟩ | ⟨path, wanted, rfl⟩
  · exact .inl ⟨path, condition, alone, listed⟩
  · exact .inr ⟨path, wanted, alone, listed⟩

/-- One partner with a contact but no website, and one with a website but no contact. -/
def sample : Directory where
  contacts := [⟨"c1", "Zoë", none, some "DE"⟩]
  partners := [
    ⟨"p1", "Acme", .active, 3, none, true, none, some "c1", 0⟩,
    ⟨"p2", "Beta", .prospect, 1, none, false, some "beta.example", none, 0⟩]
  attributes := [⟨"p1", "gold"⟩]
  dropped := []

def inGermany : Clause := .filter ⟨"contact.country", .equals, ["DE"]⟩

def withoutAttributes : Clause := .filter ⟨"attributes", .notSet, []⟩

def namedAcme : Clause := .filter ⟨"name", .equals, ["Acme"]⟩

/-- Many filters for one name, side by side. -/
def crowd : Search := ⟨List.replicate 999 namedAcme⟩

end Directory

end PartnerSearch
