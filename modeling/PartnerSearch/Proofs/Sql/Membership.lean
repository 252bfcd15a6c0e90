import PartnerSearch.Proofs.Sql.Meaning

set_option autoImplicit false

/-!
What a predicate says of a row depends on which rows the tables have, not on their order nor on how
often they stand there.
-/

namespace PartnerSearch

open Sql

/-- Every table has the same rows, in whatever order and however often. -/
def Sql.SameRows (tables other : Tables) : Prop := ∀ name row, row ∈ tables name ↔ row ∈ other name

variable {tables other : Tables}

namespace Hop

theorem mem_related {hop : Hop} {row next : Row} :
    next ∈ hop.related tables row ↔
      next ∈ tables hop.table ∧ ((next hop.join.remote).equal (row hop.join.home)).holds = true := by
  rw [related, List.mem_filter]

theorem isEmpty_related_congr (same : SameRows tables other) (hop : Hop) (row : Row) :
    (hop.related tables row).isEmpty = (hop.related other row).isEmpty := by
  rw [Bool.eq_iff_iff, List.isEmpty_iff, List.isEmpty_iff, List.eq_nil_iff_forall_not_mem,
    List.eq_nil_iff_forall_not_mem]
  simp only [mem_related, same hop.table]

theorem mem_joined_congr (same : SameRows tables other) {kind : JoinKind} {hop : Hop}
    {row next : Row} : next ∈ hop.joined tables kind row ↔ next ∈ hop.joined other kind row := by
  cases kind with
  | inner => rw [joined, joined, mem_related, mem_related, same]
  | left =>
      rw [joined, joined, isEmpty_related_congr same]
      split
      · rfl
      · rw [mem_related, mem_related, same]

theorem mem_reachFurther_congr (same : SameRows tables other) (mode : JoinMode) {hops : List Hop}
    {row target : Row} :
    target ∈ reachFurther tables mode hops row ↔ target ∈ reachFurther other mode hops row := by
  induction hops generalizing row with
  | nil => rfl
  | cons hop rest ih => simp only [reachFurther, List.mem_flatMap, mem_joined_congr same, ih]

theorem mem_reach_congr (same : SameRows tables other) (mode : JoinMode) {hops : List Hop}
    {row target : Row} : target ∈ reach tables mode hops row ↔ target ∈ reach other mode hops row := by
  cases hops with
  | nil => rfl
  | cons hop rest =>
      simp only [reach, List.mem_flatMap, mem_related, same hop.table, mem_reachFurther_congr same]

theorem chain_congr (same : SameRows tables other) {hops : List Hop} {row target : Row} :
    Chain tables hops row target ↔ Chain other hops row target := by
  induction hops generalizing row with
  | nil => rw [chain_nil, chain_nil]
  | cons hop rest ih =>
      rw [chain_cons, chain_cons]
      refine exists_congr fun next => and_congr ?_ ih
      rw [mem_related, mem_related, same]

theorem arrives_congr (same : SameRows tables other) {hops : List Hop} {row : Row}
    {arrival : Option Row} : Arrives tables hops row arrival ↔ Arrives other hops row arrival := by
  cases arrival with
  | some target => exact chain_congr same
  | none => exact forall_congr' fun target => not_congr (chain_congr same)

theorem reads_congr (same : SameRows tables other) {hops : List Hop} {row : Row} {column : String}
    {cell : Cell} : Reads tables hops row column cell ↔ Reads other hops row column cell :=
  exists_congr fun _ => and_congr_left fun _ => arrives_congr same

end Hop

theorem ColumnPath.means_congr (same : SameRows tables other) (row : Row) (path : ColumnPath)
    (condition : Condition) :
    path.Means tables row condition ↔ path.Means other row condition := by
  simp only [Means, Hop.chain_congr same, Hop.reads_congr same]

theorem RelationPath.means_congr (same : SameRows tables other) (row : Row) (path : RelationPath)
    (wanted : Bool) : path.Means tables row wanted ↔ path.Means other row wanted := by
  simp only [Means, Hop.chain_congr same]

theorem Predicate.means_congr (same : SameRows tables other) (row : Row) (predicate : Predicate) :
    predicate.Means tables row ↔ predicate.Means other row := by
  induction predicate with
  | always => rfl
  | column path condition => exact path.means_congr same row condition
  | related path wanted => exact path.means_congr same row wanted
  | group connective items ih =>
      cases connective with
      | all =>
          rw [Means, Means, allMean_iff, allMean_iff]
          exact forall₂_congr ih
      | any =>
          rw [Means, Means, anyMeans_iff, anyMeans_iff]
          exact exists_congr fun item => and_congr_right (ih item)

end PartnerSearch
