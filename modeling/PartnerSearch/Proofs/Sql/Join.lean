import PartnerSearch.Sql.Evaluation

set_option autoImplicit false

/-!
Joins without aliases. What the links of a path select depends only on the rows along its hops, not
on the numbers of the aliases under which they are joined.
-/

namespace PartnerSearch

open Sql

namespace Hop

/-- The rows of the hop's table that belong to a row. -/
def related (tables : Tables) (hop : Hop) (row : Row) : List Row :=
  (tables hop.table).filter fun other => ((other hop.join.remote).equal (row hop.join.home)).holds

/-- The rows that a join over the hop continues with. -/
def joined (tables : Tables) (kind : JoinKind) (hop : Hop) (row : Row) : List Row :=
  match kind with
  | .inner => hop.related tables row
  | .left => if (hop.related tables row).isEmpty then [Row.unset] else hop.related tables row

/-- The rows that further hops end in, one for each way over the rows between. -/
def reachFurther (tables : Tables) (mode : JoinMode) : List Hop → Row → List Row
  | [], row => [row]
  | hop :: rest, row =>
      (hop.joined tables (mode.kind hop.cardinality) row).flatMap (reachFurther tables mode rest)

/-- The rows that hops from a root end in. The first hop keeps no row without a partner. -/
def reach (tables : Tables) (mode : JoinMode) : List Hop → Row → List Row
  | [], row => [row]
  | hop :: rest, row => (hop.related tables row).flatMap (reachFurther tables mode rest)

end Hop

namespace Sql

namespace Link

variable {tables : Tables}

theorem belongs_bind (kind : JoinKind) {parent slot : Nat} (hop : Hop) (scope : Scope) (row : Row)
    (differs : parent ≠ slot) :
    (ofHop kind parent slot hop).belongs (scope.bind slot row) =
      ((row hop.join.remote).equal (scope parent hop.join.home)).holds := by
  simp only [belongs, ofHop, Scope.bind_same, Scope.bind_other scope row differs]

/-- A join binds the alias of its link to the related rows of the row under the alias before. -/
theorem join_ofHop (kind : JoinKind) {parent slot : Nat} (hop : Hop) (scope : Scope)
    (differs : parent ≠ slot) :
    (ofHop kind parent slot hop).join tables scope =
      (hop.joined tables kind (scope parent)).map (scope.bind slot) := by
  have found : ((ofHop kind parent slot hop).rows tables scope).filter
      (ofHop kind parent slot hop).belongs = (hop.related tables (scope parent)).map
        (scope.bind slot) := by
    rw [rows, List.filter_map, Hop.related]
    congr 1
    apply List.filter_congr
    intro row _
    exact belongs_bind kind hop scope row differs
  unfold join Hop.joined
  rw [found]
  cases kind with
  | inner => rfl
  | left =>
      dsimp only [ofHop]
      rw [List.isEmpty_map]
      split <;> rfl

/-- Every scope is joined for itself. -/
theorem joinAll_eq_flatMap (links : List Link) (scopes : List Scope) :
    joinAll tables links scopes = scopes.flatMap fun scope => joinAll tables links [scope] := by
  induction links generalizing scopes with
  | nil => simp [joinAll]
  | cons link rest ih =>
      have single (scope : Scope) : joinAll tables (link :: rest) [scope] =
          (link.join tables scope).flatMap fun next => joinAll tables rest [next] := by
        rw [joinAll, List.flatMap_singleton, ih]
      simp only [single]
      rw [joinAll, ih, List.flatMap_assoc]

theorem joinAll_cons (link : Link) (rest : List Link) (scope : Scope) :
    joinAll tables (link :: rest) [scope] =
      (link.join tables scope).flatMap fun next => joinAll tables rest [next] := by
  rw [joinAll, List.flatMap_singleton, joinAll_eq_flatMap]

/-- Joining further hops leaves the aliases taken so far alone. -/
theorem joinAll_frame {mode : JoinMode} {hops : List Hop} {used slot : Nat} {scope found : Scope}
    (member : found ∈ joinAll tables (ofFurtherHops mode used hops) [scope])
    (taken : slot ≤ used) : found slot = scope slot := by
  induction hops generalizing used scope with
  | nil =>
      cases List.mem_singleton.mp member
      rfl
  | cons hop rest ih =>
      rw [ofFurtherHops, joinAll_cons, join_ofHop _ hop scope (by omega)] at member
      obtain ⟨next, bound, member⟩ := List.mem_flatMap.mp member
      obtain ⟨row, -, rfl⟩ := List.mem_map.mp bound
      rw [ih member (by omega), Scope.bind_other scope row (by omega)]

theorem map_joinAll_ofFurtherHops (mode : JoinMode) (hops : List Hop) (used : Nat)
    (scope : Scope) :
    (joinAll tables (ofFurtherHops mode used hops) [scope]).map
        (fun found => found (used + hops.length)) =
      Hop.reachFurther tables mode hops (scope used) := by
  induction hops generalizing used scope with
  | nil => rfl
  | cons hop rest ih =>
      have last : used + (hop :: rest).length = used + 1 + rest.length := by
        rw [List.length_cons]
        omega
      rw [ofFurtherHops, joinAll_cons, join_ofHop _ hop scope (by omega), List.map_flatMap,
        List.flatMap_map, Hop.reachFurther, last]
      congr 1
      funext row
      rw [ih, Scope.bind_same]

/-- Filtering what comes of items by a test of the item itself filters the items. -/
theorem filter_flatMap_of_const {α β : Type} (items : List α) (next : α → List β) (test : β → Bool)
    (origin : α → Bool) (const : ∀ item ∈ items, ∀ found ∈ next item, test found = origin item) :
    (items.flatMap next).filter test = (items.filter origin).flatMap next := by
  induction items with
  | nil => rfl
  | cons item rest ih =>
      have later := ih fun other member => const other (List.mem_cons_of_mem item member)
      have here := const item List.mem_cons_self
      rw [List.flatMap_cons, List.filter_append, later]
      cases kept : origin item with
      | true =>
          rw [List.filter_cons_of_pos kept, List.flatMap_cons]
          congr 1
          exact List.filter_eq_self.mpr fun found member => (here found member).trans kept
      | false =>
          rw [List.filter_cons_of_neg (by simp [kept])]
          have none_kept : (next item).filter test = [] :=
            List.filter_eq_nil_iff.mpr fun found member => by simp [here found member, kept]
          rw [none_kept, List.nil_append]

/-- The first link may as well be joined by what ties it to the row outside. -/
theorem select_ofHops_cons (mode : JoinMode) (used : Nat) (hop : Hop) (rest : List Hop)
    (scope : Scope) :
    select tables scope (ofHops mode used (hop :: rest)) =
      joinAll tables (ofHops mode used (hop :: rest)) [scope] := by
  rw [ofHops, select, joinAll_cons, joinAll_eq_flatMap]
  have inner : (ofHop .inner 0 (used + 1) hop).join tables scope =
      ((ofHop .inner 0 (used + 1) hop).rows tables scope).filter
        (ofHop .inner 0 (used + 1) hop).belongs := rfl
  rw [inner]
  apply filter_flatMap_of_const
  intro next bound found member
  have own : found (used + 1) = next (used + 1) := joinAll_frame member (by omega)
  have outer : found 0 = next 0 := joinAll_frame member (by omega)
  simp only [belongs, ofHop, own, outer]

/-- The rows at the end of the links of a path, whatever the aliases. -/
theorem map_select_ofHops (mode : JoinMode) (used : Nat) {hops : List Hop} (row : Row)
    (crossed : hops ≠ []) :
    (select tables (Scope.ofRoot row) (ofHops mode used hops)).map
        (fun found => found (used + hops.length)) = Hop.reach tables mode hops row := by
  cases hops with
  | nil => cases crossed rfl
  | cons hop rest =>
      have last : used + (hop :: rest).length = used + 1 + rest.length := by
        rw [List.length_cons]
        omega
      rw [select_ofHops_cons, ofHops, joinAll_cons, join_ofHop _ hop _ (by omega),
        List.map_flatMap, List.flatMap_map, Hop.reach, last]
      congr 1
      funext next
      rw [map_joinAll_ofFurtherHops, Scope.bind_same]

end Link

end Sql

end PartnerSearch
