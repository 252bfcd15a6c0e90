import PartnerSearch.Proofs.Search.Routing
import PartnerSearch.Proofs.Sql.Truth

set_option autoImplicit false

/-!
What a predicate says of a row, told by the chains of related rows that its paths follow. On tables
in which an object is one row at most, this is its truth.
-/

namespace PartnerSearch

open Sql

namespace Hop

/-- Existing rows, one for each hop, each belonging to the row before. -/
inductive Chain (tables : Tables) : List Hop → Row → Row → Prop
  | here (row : Row) : Chain tables [] row row
  | cross {hop : Hop} {rest : List Hop} {row next target : Row}
      (related : next ∈ hop.related tables row) (onward : Chain tables rest next target) :
      Chain tables (hop :: rest) row target

/-- The row at the end of a chain, or none if there is no chain. -/
def Arrives (tables : Tables) (hops : List Hop) (row : Row) : Option Row → Prop
  | some target => Chain tables hops row target
  | none => ∀ target, ¬Chain tables hops row target

/-- The cell of a column at the end of the hops, unset if an object on the way is absent. -/
def Reads (tables : Tables) (hops : List Hop) (row : Row) (column : String) (cell : Cell) : Prop :=
  ∃ arrival, Arrives tables hops row arrival ∧ cell = arrival.elim .null fun target => target column

end Hop

/-- Whether the column that is reached satisfies the condition. A path over a collection asks for an
element of it from which the column is read. -/
def ColumnPath.Means (tables : Tables) (row : Row) (path : ColumnPath) (condition : Condition) :
    Prop :=
  if path.isQuantified then
    ∃ before collection after element cell,
      path.hops = before ++ collection :: after ∧ collection.isMany = true ∧
      Hop.Chain tables (before ++ [collection]) row element ∧
      Hop.Reads tables after element path.column cell ∧ (satisfies condition cell).holds = true
  else
    ∃ cell, Hop.Reads tables path.hops row path.column cell ∧
      (satisfies condition cell).holds = true

/-- Whether rows are there, or not there if they are not wanted. -/
def RelationPath.Means (tables : Tables) (row : Row) (path : RelationPath) (wanted : Bool) : Prop :=
  wanted = true ↔ ∃ target, Hop.Chain tables path.hops row target

namespace Predicate

mutual

/-- What the predicate says of a row of the root table. -/
def Means (tables : Tables) (row : Row) : Predicate → Prop
  | .always => True
  | .column path condition => path.Means tables row condition
  | .related path wanted => path.Means tables row wanted
  | .group .all items => AllMean tables row items
  | .group .any items => AnyMeans tables row items

def AllMean (tables : Tables) (row : Row) : List Predicate → Prop
  | [] => True
  | item :: rest => item.Means tables row ∧ AllMean tables row rest

def AnyMeans (tables : Tables) (row : Row) : List Predicate → Prop
  | [] => False
  | item :: rest => item.Means tables row ∨ AnyMeans tables row rest

end

end Predicate

/-- Every object is one related row at most. -/
def Schema.SingleObjects (schema : Schema) (tables : Tables) : Prop :=
  ∀ position name target join, .relation name target .one join ∈ (schema.entity position).fields →
    ∀ row ∈ tables (schema.entity position).table,
      (Hop.related tables ⟨name, (schema.entity target).table, join, .one⟩ row).length ≤ 1

namespace Hop

variable {tables : Tables}

theorem chain_nil {row target : Row} : Chain tables [] row target ↔ target = row := by
  constructor
  · rintro ⟨⟩
    rfl
  · rintro rfl
    exact .here _

theorem chain_cons {hop : Hop} {rest : List Hop} {row target : Row} :
    Chain tables (hop :: rest) row target ↔
      ∃ next ∈ hop.related tables row, Chain tables rest next target := by
  constructor
  · intro chain
    cases chain with
    | cross related onward => exact ⟨_, related, onward⟩
  · intro step
    obtain ⟨next, related, onward⟩ := step
    exact .cross related onward

theorem exists_chain_cons {hop : Hop} {rest : List Hop} {row : Row} {ends : Row → Prop} :
    (∃ element, Chain tables (hop :: rest) row element ∧ ends element) ↔
      ∃ next ∈ hop.related tables row,
        ∃ element, Chain tables rest next element ∧ ends element := by
  constructor
  · intro reached
    obtain ⟨element, chain, below⟩ := reached
    obtain ⟨next, related, onward⟩ := chain_cons.mp chain
    exact ⟨next, related, element, onward, below⟩
  · intro step
    obtain ⟨next, related, element, onward, below⟩ := step
    exact ⟨element, .cross related onward, below⟩

/-- Nothing is equal to an unset cell, so no row belongs to an absent object. -/
theorem related_unset (hop : Hop) : hop.related tables Row.unset = [] := by
  rw [related, List.filter_eq_nil_iff]
  intro row _
  cases row hop.join.remote <;> simp [Row.unset, Cell.equal, Cell.order?, Truth.holds]

theorem no_chain_unset {hops : List Hop} (crossed : hops ≠ []) (target : Row) :
    ¬Chain tables hops Row.unset target := by
  cases hops with
  | nil => exact absurd rfl crossed
  | cons hop rest =>
      rw [chain_cons, related_unset]
      intro step
      obtain ⟨next, related, -⟩ := step
      cases related

/-- With every object required, the rows reached are the ends of chains. -/
theorem mem_reachFurther_required {hops : List Hop} {row target : Row} :
    target ∈ reachFurther tables .required hops row ↔ Chain tables hops row target := by
  induction hops generalizing row with
  | nil => rw [reachFurther, List.mem_singleton, chain_nil]
  | cons hop rest ih =>
      rw [reachFurther, List.mem_flatMap, chain_cons]
      simp only [ih]
      rfl

theorem mem_reach_required {hops : List Hop} {row target : Row} :
    target ∈ reach tables .required hops row ↔ Chain tables hops row target := by
  cases hops with
  | nil => rw [reach, List.mem_singleton, chain_nil]
  | cons hop rest =>
      rw [reach, List.mem_flatMap, chain_cons]
      simp only [mem_reachFurther_required]

/-- A join adds at most an absent row to the related ones. -/
theorem exists_mem_joined {kind : JoinKind} {hop : Hop} {row : Row} {holds : Row → Prop}
    (absent : ¬holds Row.unset) :
    (∃ next ∈ hop.joined tables kind row, holds next) ↔
      ∃ next ∈ hop.related tables row, holds next := by
  cases kind with
  | inner => rfl
  | left =>
      unfold joined
      dsimp only
      split
      · rename_i nothing
        rw [List.isEmpty_iff.mp nothing]
        simp [absent]
      · rfl

/-- Rows reached over a collection come from its elements; where an object before it is absent there
are none. -/
theorem mem_reachFurther_collection {before after : List Hop} {collection : Hop}
    (many : collection.isMany = true) {row found : Row} :
    found ∈ reachFurther tables .optionalObjects (before ++ collection :: after) row ↔
      ∃ element, Chain tables (before ++ [collection]) row element ∧
        found ∈ reachFurther tables .optionalObjects after element := by
  induction before generalizing row with
  | nil =>
      have cardinality : collection.cardinality = .many := by simpa [isMany] using many
      have inner : JoinMode.kind .optionalObjects collection.cardinality = .inner := by
        rw [cardinality]
        rfl
      rw [List.nil_append, List.nil_append, reachFurther, inner, joined, List.mem_flatMap]
      simp only [chain_cons, chain_nil, exists_eq_right']
  | cons hop rest ih =>
      have absent : ¬∃ element, Chain tables (rest ++ [collection]) Row.unset element ∧
          found ∈ reachFurther tables .optionalObjects after element := by
        intro found_there
        obtain ⟨element, chain, -⟩ := found_there
        exact no_chain_unset (by simp) element chain
      rw [List.cons_append, List.cons_append, reachFurther, List.mem_flatMap]
      simp only [ih]
      rw [exists_mem_joined absent, exists_chain_cons]

theorem mem_reach_collection {before after : List Hop} {collection : Hop}
    (many : collection.isMany = true) {row found : Row} :
    found ∈ reach tables .optionalObjects (before ++ collection :: after) row ↔
      ∃ element, Chain tables (before ++ [collection]) row element ∧
        found ∈ reachFurther tables .optionalObjects after element := by
  cases before with
  | nil =>
      rw [List.nil_append, List.nil_append, reach, List.mem_flatMap]
      simp only [chain_cons, chain_nil, exists_eq_right']
  | cons hop rest =>
      rw [List.cons_append, List.cons_append, reach, List.mem_flatMap,
        exists_chain_cons]
      simp only [mem_reachFurther_collection many]

/-- An object hop continues from the related row, or from an absent one. -/
theorem joined_object {hop : Hop} (object : hop.isMany = false) (row : Row) :
    hop.joined tables (JoinMode.kind .optionalObjects hop.cardinality) row =
      if (hop.related tables row).isEmpty then [Row.unset] else hop.related tables row := by
  have cardinality : hop.cardinality = .one := by
    cases same : hop.cardinality with
    | one => rfl
    | many => simp [isMany, same] at object
  rw [cardinality]
  rfl

theorem reachFurther_unset {hops : List Hop} (objects : ∀ hop ∈ hops, hop.isMany = false) :
    reachFurther tables .optionalObjects hops Row.unset = [Row.unset] := by
  induction hops with
  | nil => rfl
  | cons hop rest ih =>
      rw [reachFurther, joined_object (objects hop List.mem_cons_self), related_unset]
      have later := ih fun other member => objects other (List.mem_cons_of_mem hop member)
      simpa using later

end Hop

section Rows

variable {schema : Schema} {tables : Tables} {start goal : Fin schema.size} {row : Row}

theorem Schema.Walk.split {before after : List Hop}
    (walked : schema.Walk start (before ++ after) goal) :
    ∃ middle, schema.Walk start before middle ∧ schema.Walk middle after goal := by
  induction before generalizing start with
  | nil => exact ⟨start, .here start, walked⟩
  | cons hop rest ih =>
      rw [List.cons_append] at walked
      cases walked with
      | cross declared onward =>
          obtain ⟨middle, first, second⟩ := ih onward
          exact ⟨middle, .cross declared first, second⟩

/-- A chain along a walk ends in a row of the entity that the walk arrives at. -/
theorem Hop.Chain.stored {hops : List Hop} {target : Row} (chain : Hop.Chain tables hops row target)
    (walked : schema.Walk start hops goal) (stored : row ∈ tables (schema.entity start).table) :
    target ∈ tables (schema.entity goal).table := by
  induction chain generalizing start with
  | here row =>
      cases walked with
      | here => exact stored
  | cross related onward ih =>
      cases walked with
      | cross declared further => exact ih further (List.mem_filter.mp related).1

/-- Over objects alone there is one way to arrive, which further joins follow. -/
theorem arrives_of_objects (single : schema.SingleObjects tables) {hops : List Hop}
    (objects : ∀ hop ∈ hops, hop.isMany = false) (walked : schema.Walk start hops goal)
    (stored : row ∈ tables (schema.entity start).table) :
    ∃ arrival, (∀ other, Hop.Arrives tables hops row other ↔ other = arrival) ∧
      Hop.reachFurther tables .optionalObjects hops row = [arrival.getD Row.unset] := by
  induction walked generalizing row with
  | here position =>
      refine ⟨some row, ?_, rfl⟩
      intro other
      cases other with
      | none => simp [Hop.Arrives, Hop.chain_nil]
      | some target => simp [Hop.Arrives, Hop.chain_nil]
  | @cross position target goal name cardinality join hops declared onward ih =>
      have object := objects _ List.mem_cons_self
      have further := fun hop member => objects hop (List.mem_cons_of_mem _ member)
      have one : cardinality = .one := by
        cases cardinality with
        | one => rfl
        | many => cases object
      subst one
      have few := single position name target join declared row stored
      rw [Hop.reachFurther, Hop.joined_object object]
      cases found : Hop.related tables ⟨name, (schema.entity target).table, join, .one⟩ row with
      | nil =>
          refine ⟨none, ?_, ?_⟩
          · intro other
            cases other with
            | none => simp [Hop.Arrives, Hop.chain_cons, found]
            | some target => simp [Hop.Arrives, Hop.chain_cons, found]
          · simpa using Hop.reachFurther_unset further
      | cons next others =>
          have alone : others = [] := by
            rw [found, List.length_cons] at few
            exact List.eq_nil_of_length_eq_zero (by omega)
          subst alone
          have member : next ∈ tables (schema.entity target).table := by
            have related : next ∈ Hop.related tables
                ⟨name, (schema.entity target).table, join, .one⟩ row := by simp [found]
            exact (List.mem_filter.mp related).1
          obtain ⟨arrival, unique, reached⟩ := ih further member
          refine ⟨arrival, ?_, ?_⟩
          · intro other
            rw [← unique other]
            cases other with
            | none => simp [Hop.Arrives, Hop.chain_cons, found]
            | some target => simp [Hop.Arrives, Hop.chain_cons, found]
          · simpa using reached

theorem cell_getD (arrival : Option Row) (column : String) :
    arrival.getD Row.unset column = arrival.elim .null fun target => target column := by
  cases arrival <;> rfl

/-- The cell read over objects alone is that of the only row that further joins end in. -/
theorem exists_reads_iff (single : schema.SingleObjects tables) {hops : List Hop}
    (objects : ∀ hop ∈ hops, hop.isMany = false) (walked : schema.Walk start hops goal)
    (stored : row ∈ tables (schema.entity start).table) (column : String) (holds : Cell → Prop) :
    (∃ cell, Hop.Reads tables hops row column cell ∧ holds cell) ↔
      ∃ found ∈ Hop.reachFurther tables .optionalObjects hops row, holds (found column) := by
  obtain ⟨arrival, unique, reached⟩ := arrives_of_objects single objects walked stored
  simp only [Hop.Reads, unique, exists_eq_left, reached, List.mem_singleton, cell_getD]

/-- The first hop drops an absent object where a further one keeps it; the cell read is the same. -/
theorem Hop.read_reach {hops : List Hop} (objects : ∀ hop ∈ hops, hop.isMany = false) {found : Row}
    (reached : reachFurther tables .optionalObjects hops row = [found]) (column : String) :
    ((reach tables .optionalObjects hops row).head?.map fun target => target column).getD .null =
      found column := by
  cases hops with
  | nil =>
      cases List.singleton_inj.mp reached
      rfl
  | cons hop rest =>
      rw [reachFurther, joined_object (objects hop List.mem_cons_self)] at reached
      rw [reach]
      cases empty : (hop.related tables row).isEmpty with
      | true =>
          rw [empty, if_pos rfl, List.flatMap_singleton,
            reachFurther_unset fun other member => objects other (List.mem_cons_of_mem hop member)]
            at reached
          cases List.singleton_inj.mp reached
          rw [List.isEmpty_iff.mp empty]
          rfl
      | false =>
          rw [empty, if_neg Bool.false_ne_true] at reached
          rw [reached]
          rfl

theorem ColumnPath.means_iff (single : schema.SingleObjects tables) {path : ColumnPath}
    (walked : schema.Walk start path.hops goal) (few : path.hops.countP Hop.isMany ≤ 1)
    (stored : row ∈ tables (schema.entity start).table) (condition : Condition) :
    path.Means tables row condition ↔ (path.truth tables row condition).holds = true := by
  unfold Means truth
  cases quantified : path.isQuantified with
  | true =>
      -- Any collection on the path splits it; the hops after it are objects.
      have beyond {before after : List Hop} {collection : Hop}
          (cut : path.hops = before ++ collection :: after) (many : collection.isMany = true)
          {element : Row} (chain : Hop.Chain tables (before ++ [collection]) row element) :
          (∃ cell, Hop.Reads tables after element path.column cell ∧
              (satisfies condition cell).holds = true) ↔
            ∃ found ∈ Hop.reachFurther tables .optionalObjects after element,
              (satisfies condition (found path.column)).holds = true := by
        have objects : ∀ hop ∈ after, hop.isMany = false := by
          rw [cut, List.countP_append, List.countP_cons_of_pos many] at few
          have none_many : after.countP Hop.isMany = 0 := by omega
          simpa using List.countP_eq_zero.mp none_many
        have together : path.hops = (before ++ [collection]) ++ after := by simp [cut]
        rw [together] at walked
        obtain ⟨middle, first, second⟩ := walked.split
        exact exists_reads_iff single objects second (chain.stored first stored) path.column _
      simp only [↓reduceIte]
      rw [Truth.holds_some, List.any_eq_true]
      constructor
      · intro meant
        obtain ⟨before, collection, after, element, cell, cut, many, chain, meant⟩ := meant
        obtain ⟨found, member, satisfied⟩ := (beyond cut many chain).mp ⟨cell, meant⟩
        refine ⟨found, ?_, satisfied⟩
        rw [cut, Hop.mem_reach_collection many]
        exact ⟨element, chain, member⟩
      · intro found
        obtain ⟨found, member, satisfied⟩ := found
        obtain ⟨collection, crossed, many⟩ := List.any_eq_true.mp quantified
        obtain ⟨before, after, cut⟩ := List.append_of_mem crossed
        rw [cut, Hop.mem_reach_collection many] at member
        obtain ⟨element, chain, below⟩ := member
        obtain ⟨cell, meant⟩ := (beyond cut many chain).mpr ⟨found, below, satisfied⟩
        exact ⟨before, collection, after, element, cell, cut, many, chain, meant⟩
  | false =>
      have objects : ∀ hop ∈ path.hops, hop.isMany = false := by
        simpa [ColumnPath.isQuantified] using quantified
      obtain ⟨arrival, -, reached⟩ := arrives_of_objects single objects walked stored
      simp only [Bool.false_eq_true, ↓reduceIte]
      rw [exists_reads_iff single objects walked stored path.column fun cell =>
        (satisfies condition cell).holds = true, Hop.read_reach objects reached, reached]
      simp

theorem RelationPath.means_iff (path : RelationPath) (wanted : Bool) :
    path.Means tables row wanted ↔ (path.truth tables row wanted).holds = true := by
  have chains : (Hop.reach tables .required path.hops row).isEmpty = false ↔
      ∃ target, Hop.Chain tables path.hops row target := by
    simp only [List.isEmpty_eq_false_iff_exists_mem, Hop.mem_reach_required]
  unfold Means truth
  rw [← chains, Truth.holds_some]
  cases wanted <;> simp

end Rows

namespace Predicate

variable {schema : Schema} {root : Fin schema.size} {tables : Tables} {row : Row}

theorem allMean_iff (items : List Predicate) :
    AllMean tables row items ↔ ∀ item ∈ items, item.Means tables row := by
  induction items with
  | nil => simp [AllMean]
  | cons item rest ih => rw [AllMean, ih, List.forall_mem_cons]

theorem anyMeans_iff (items : List Predicate) :
    AnyMeans tables row items ↔ ∃ item ∈ items, item.Means tables row := by
  induction items with
  | nil => simp [AnyMeans]
  | cons item rest ih => simp [AnyMeans, ih]

/-- On tables with single objects a compiled predicate holds of the rows of which it says so. -/
theorem means_iff_holds (single : schema.SingleObjects tables)
    (stored : row ∈ tables (schema.entity root).table) {predicate : Predicate}
    (routed : predicate.Routed schema root) :
    predicate.Means tables row ↔ predicate.holds tables row = true := by
  induction routed with
  | always => simp [Means]
  | column walked declared few some_value =>
      exact ColumnPath.means_iff single walked few stored _
  | related walked crossed => exact RelationPath.means_iff _ _
  | @group connective items several each ih =>
      cases connective with
      | all =>
          rw [Means, allMean_iff, holds_all, List.all_eq_true]
          exact forall₂_congr ih
      | any =>
          rw [Means, anyMeans_iff, holds_any, List.any_eq_true]
          exact exists_congr fun item => and_congr_right fun member => ih item member

end Predicate

end PartnerSearch
