import PartnerSearch.Predicate

set_option autoImplicit false

/-!
Predicates over relational tables. Every hop of a path becomes a link to a table under an alias of
its own; the aliases are numbered through the whole formula, and the root is alias 0.
-/

namespace PartnerSearch.Sql

/-- A column of the table under the alias `slot`. -/
structure ColumnRef where
  slot : Nat
  column : String
  deriving DecidableEq, Repr

/-- Whether a row without a partner is dropped or kept with an absent one. -/
inductive JoinKind where
  | inner
  | left
  deriving DecidableEq, Repr

/-- A table under the alias `slot`, and the columns by which its rows belong to the row of
`parent`. -/
structure Link where
  kind : JoinKind
  table : String
  slot : Nat
  remote : String
  parent : Nat
  home : String
  deriving DecidableEq, Repr

/-- What a condition is put on: a column of the root, or a column at the end of links. -/
inductive Operand where
  | column (reference : ColumnRef)
  | subquery (reference : ColumnRef) (links : List Link)
  deriving DecidableEq, Repr

inductive Formula where
  | always
  | test (operand : Operand) (condition : Condition)
  | existsWhere (links : List Link) (reference : ColumnRef) (condition : Condition)
  | present (links : List Link)
  | absent (links : List Link)
  | group (connective : Connective) (items : List Formula)

/-- Whether an object may be missing on the way to a column. -/
inductive JoinMode where
  | optionalObjects
  | required
  deriving DecidableEq, Repr

def JoinMode.kind : JoinMode → Cardinality → JoinKind
  | .optionalObjects, .one => .left
  | .optionalObjects, .many => .inner
  | .required, _ => .inner

namespace Link

def ofHop (kind : JoinKind) (parent slot : Nat) (hop : Hop) : Link :=
  ⟨kind, hop.table, slot, hop.join.remote, parent, hop.join.home⟩

/-- The links of further hops, each joined to the one before; `used` is the last alias taken. -/
def ofFurtherHops (mode : JoinMode) (used : Nat) : List Hop → List Link
  | [] => []
  | hop :: rest =>
    ofHop (mode.kind hop.cardinality) used (used + 1) hop :: ofFurtherHops mode (used + 1) rest

/-- The links of a path from the root. Rows of the first link belong to the row of the root. -/
def ofHops (mode : JoinMode) (used : Nat) : List Hop → List Link
  | [] => []
  | hop :: rest => ofHop .inner 0 (used + 1) hop :: ofFurtherHops mode (used + 1) rest

theorem forall_ofFurtherHops {motive : Link → Prop} {hops : List Hop}
    (each : ∀ hop ∈ hops, ∀ kind parent slot, motive (ofHop kind parent slot hop))
    (mode : JoinMode) (used : Nat) : ∀ link ∈ ofFurtherHops mode used hops, motive link := by
  induction hops generalizing used with
  | nil => simp [ofFurtherHops]
  | cons hop rest ih =>
      rw [ofFurtherHops, List.forall_mem_cons]
      have others := fun other member => each other (List.mem_cons_of_mem hop member)
      exact ⟨each hop List.mem_cons_self _ _ _, ih others (used + 1)⟩

/-- What holds of every hop under any alias holds of the links of a path. -/
theorem forall_ofHops {motive : Link → Prop} {hops : List Hop}
    (each : ∀ hop ∈ hops, ∀ kind parent slot, motive (ofHop kind parent slot hop))
    (mode : JoinMode) (used : Nat) : ∀ link ∈ ofHops mode used hops, motive link := by
  cases hops with
  | nil => simp [ofHops]
  | cons hop rest =>
      rw [ofHops, List.forall_mem_cons]
      have others := fun other member => each other (List.mem_cons_of_mem hop member)
      exact ⟨each hop List.mem_cons_self _ _ _, forall_ofFurtherHops others mode (used + 1)⟩

@[simp] theorem length_ofFurtherHops (mode : JoinMode) (used : Nat) (hops : List Hop) :
    (ofFurtherHops mode used hops).length = hops.length := by
  induction hops generalizing used with
  | nil => rfl
  | cons hop rest ih => simp [ofFurtherHops, ih]

@[simp] theorem length_ofHops (mode : JoinMode) (used : Nat) (hops : List Hop) :
    (ofHops mode used hops).length = hops.length := by
  cases hops <;> simp [ofHops]

end Link

end PartnerSearch.Sql

namespace PartnerSearch.Predicate

mutual

/-- The hops of all conditions. -/
def hopCount : Predicate → Nat
  | .always => 0
  | .column path _ => path.hops.length
  | .related path _ => path.hops.length
  | .group _ items => listHopCount items

def listHopCount : List Predicate → Nat
  | [] => 0
  | item :: rest => item.hopCount + listHopCount rest

end

end PartnerSearch.Predicate

namespace PartnerSearch.Sql.Formula

/-- A condition on a column. Across a collection some element has to satisfy it; otherwise there is
at most one row, and the column is unset where an object is absent. -/
def ofColumn (used : Nat) (path : ColumnPath) (condition : Condition) : Formula :=
  if path.hops.isEmpty then .test (.column ⟨0, path.column⟩) condition
  else
    let links := Link.ofHops .optionalObjects used path.hops
    let reference : ColumnRef := ⟨used + path.hops.length, path.column⟩
    if path.isQuantified then .existsWhere links reference condition
    else .test (.subquery reference links) condition

def ofRelation (used : Nat) (path : RelationPath) (wanted : Bool) : Formula :=
  let links := Link.ofHops .required used path.hops
  if wanted then .present links else .absent links

mutual

/-- The formula of a predicate, with aliases after the first `used`. -/
def ofPredicate (used : Nat) : Predicate → Formula
  | .always => .always
  | .column path condition => ofColumn used path condition
  | .related path wanted => ofRelation used path wanted
  | .group connective items => .group connective (ofPredicates used items)

def ofPredicates (used : Nat) : List Predicate → List Formula
  | [] => []
  | item :: rest => ofPredicate used item :: ofPredicates (used + item.hopCount) rest

end

theorem forall_mem_ofPredicates {motive : Formula → Prop} {items : List Predicate}
    (each : ∀ item ∈ items, ∀ slots, motive (ofPredicate slots item)) (used : Nat) :
    ∀ formula ∈ ofPredicates used items, motive formula := by
  induction items generalizing used with
  | nil => simp [ofPredicates]
  | cons item rest ih =>
      have others := fun other member => each other (List.mem_cons_of_mem item member)
      rw [ofPredicates, List.forall_mem_cons]
      exact ⟨each item List.mem_cons_self used, ih others (used + item.hopCount)⟩

/-- What does not depend on where the aliases start is had of each item alone. -/
theorem map_ofPredicates {α : Type} {ofFormula : Formula → α} {ofItem : Predicate → α}
    {items : List Predicate}
    (each : ∀ item ∈ items, ∀ slots, ofFormula (ofPredicate slots item) = ofItem item)
    (used : Nat) : (ofPredicates used items).map ofFormula = items.map ofItem := by
  induction items generalizing used with
  | nil => rfl
  | cons item rest ih =>
      have others := fun other member => each other (List.mem_cons_of_mem item member)
      rw [ofPredicates, List.map_cons, List.map_cons, each item List.mem_cons_self used,
        ih others (used + item.hopCount)]

mutual

/-- The links in the order of the text. -/
def links : Formula → List Link
  | .always => []
  | .test (.column _) _ => []
  | .test (.subquery _ links) _ => links
  | .existsWhere links _ _ => links
  | .present links => links
  | .absent links => links
  | .group _ items => listLinks items

def listLinks : List Formula → List Link
  | [] => []
  | item :: rest => item.links ++ listLinks rest

end

/-- The tables that are named, in the order of the text. -/
def tables (formula : Formula) : List String := formula.links.map Link.table

end PartnerSearch.Sql.Formula
