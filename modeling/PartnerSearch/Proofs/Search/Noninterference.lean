import PartnerSearch.Directory.Schema
import PartnerSearch.Proofs.Search.Condition
import PartnerSearch.Proofs.Search.Vacuity

set_option autoImplicit false

/-!
Values never reach the text of a search. The text is that of the search's outline, which has the
groups, where the members lead, the operators and the numbers of operands; the operands become the
binds, in their order, each as its strategy reads it.
-/

namespace PartnerSearch

/-- The filter with blank values, as many of them as before in a set and none otherwise. -/
def Filter.skeleton (filter : Filter) : Filter :=
  { filter with
    values := if filter.operator = .within then filter.values.map fun _ => "" else [] }

namespace Clause

mutual

def skeleton : Clause → Clause
  | .filter leaf => .filter leaf.skeleton
  | .any children => .any (listSkeleton children)
  | .all children => .all (listSkeleton children)

def listSkeleton : List Clause → List Clause
  | [] => []
  | child :: rest => child.skeleton :: listSkeleton rest

end

end Clause

/-- A search without its values: what is left are the groups, the members, the operators and the
sizes of sets. -/
def Search.skeleton (search : Search) : Search := ⟨Clause.listSkeleton search.filters⟩

theorem Filter.operands_skeleton (filter : Filter) :
    filter.skeleton.operands = filter.operands.map fun _ => "" := by
  unfold operands skeleton
  cases filter.operator <;> rfl

/-- A relation as it is joined. -/
structure Crossing where
  table : String
  join : Join
  cardinality : Cardinality
  deriving DecidableEq, Repr

def Hop.crossing (hop : Hop) : Crossing := ⟨hop.table, hop.join, hop.cardinality⟩

def Crossing.hop (crossing : Crossing) : Hop :=
  ⟨"", crossing.table, crossing.join, crossing.cardinality⟩

/-- Where a member leads: over relations, and to a column unless it ends in rows. -/
structure Route where
  crossings : List Crossing
  column : Option String
  deriving DecidableEq, Repr

def Resolved.route : Resolved → Route
  | .column path => ⟨path.hops.map Hop.crossing, some path.column⟩
  | .relation path => ⟨path.hops.map Hop.crossing, none⟩

def route? (schema : Schema) (root : Fin schema.size) (member : String) : Option Route :=
  (resolve schema root member).toOption.map Resolved.route

/-- What the text of a clause depends on. Every operator but that of a set fixes the number of its
operands. -/
inductive Outline where
  | filter (route : Option Route) (operator : Operator) (operands : Nat)
  | any (children : List Outline)
  | all (children : List Outline)

namespace Clause

mutual

def outline (schema : Schema) (root : Fin schema.size) : Clause → Outline
  | .filter leaf => .filter (route? schema root leaf.member) leaf.operator leaf.operands.length
  | .any children => .any (listOutline schema root children)
  | .all children => .all (listOutline schema root children)

def listOutline (schema : Schema) (root : Fin schema.size) : List Clause → List Outline
  | [] => []
  | child :: rest => child.outline schema root :: listOutline schema root rest

end

end Clause

/-- The bare predicate of a filter that leads along the route. -/
def Route.predicate (route : Route) (operator : Operator) (operands : Nat) : Predicate :=
  let hops := route.crossings.map Crossing.hop
  match route.column with
  | some column => .column ⟨"", hops, column, .text⟩ (operator.bareCondition operands)
  | none => .related ⟨"", hops⟩ (operator == .set)

namespace Outline

mutual

def predicate : Outline → Predicate
  | .filter none _ _ => .always
  | .filter (some route) operator operands => route.predicate operator operands
  | .any children => .fold .any (listPredicate children)
  | .all children => .fold .all (listPredicate children)

def listPredicate : List Outline → List Predicate
  | [] => []
  | child :: rest => child.predicate :: listPredicate rest

end

/-- The text of all clauses with this outline. -/
def sql (outline : Outline) : String := outline.predicate.fragment.sql

/-- The number of placeholders in that text. -/
def placeholders (outline : Outline) : Nat := outline.predicate.fragment.binds.length

end Outline

section Outline

variable {registry : Registry} {schema : Schema} {root : Fin schema.size}

theorem Clause.outline_skeleton (clause : Clause) :
    clause.skeleton.outline schema root = clause.outline schema root := by
  have list (children : List Clause)
      (ih : ∀ child ∈ children, child.skeleton.outline schema root = child.outline schema root) :
      listOutline schema root (listSkeleton children) = listOutline schema root children := by
    induction children with
    | nil => rfl
    | cons child rest later =>
        rw [listSkeleton, listOutline, listOutline, ih child List.mem_cons_self,
          later fun other member => ih other (List.mem_cons_of_mem child member)]
  induction clause with
  | filter leaf =>
      rw [skeleton, outline, outline, Filter.operands_skeleton, List.length_map]
      rfl
  | any children ih => rw [skeleton, outline, outline, list children ih]
  | all children ih => rw [skeleton, outline, outline, list children ih]

theorem Hop.hop_crossing (hops : List Hop) :
    (hops.map crossing).map Crossing.hop = hops.map bare := by
  rw [List.map_map]
  rfl

/-- Compiling a filter leaves no more than its route, its operator and its operands. -/
theorem Filter.bare_of_compile {filter : Filter} {predicate : Predicate}
    (compiled : filter.compile registry schema root = .ok predicate) :
    predicate.bare =
      (Outline.filter (route? schema root filter.member) filter.operator
        filter.operands.length).predicate := by
  rcases Filter.compile_eq_ok.mp compiled with
    ⟨path, strategy, found, -, built⟩ | ⟨path, found, asked⟩
  · obtain ⟨-, -, condition, imposed, rfl⟩ := Strategy.build_eq_ok.mp built
    have form := (Strategy.condition_ok imposed).1
    rw [route?, found, Predicate.bare, form, ColumnPath.bare, ← Hop.hop_crossing]
    rfl
  · rw [route?, found]
    rcases Filter.presence_eq_ok.mp asked with ⟨set, rfl⟩ | ⟨notSet, rfl⟩
    · rw [Predicate.bare, RelationPath.bare, ← Hop.hop_crossing, set]
      rfl
    · rw [Predicate.bare, RelationPath.bare, ← Hop.hop_crossing, notSet]
      rfl

namespace Clause

theorem bare_of_forall₂ {children : List Clause} {predicates : List Predicate}
    (each : List.Forall₂ (fun child predicate =>
      predicate.bare = (child.outline schema root).predicate) children predicates) :
    predicates.map Predicate.bare = Outline.listPredicate (listOutline schema root children) := by
  induction each with
  | nil => rfl
  | cons here rest ih =>
      rw [List.map_cons, here, ih]
      rfl

/-- The bare predicate of a compiled clause is that of its outline. -/
theorem bare_of_compile {clause : Clause} {predicate : Predicate}
    (compiled : clause.compile registry schema root = .ok predicate) :
    predicate.bare = (clause.outline schema root).predicate := by
  refine compile_induction ?filter ?any ?all compiled
  case filter => exact fun leaf predicate => Filter.bare_of_compile
  case any =>
    intro children predicates _ each
    rw [Predicate.bare_fold, bare_of_forall₂ each]
    rfl
  case all =>
    intro children predicates _ each
    rw [Predicate.bare_fold, bare_of_forall₂ each]
    rfl

theorem sql_of_compile {clause : Clause} {predicate : Predicate}
    (compiled : clause.compile registry schema root = .ok predicate) :
    predicate.fragment.sql = (clause.outline schema root).sql := by
  rw [← Predicate.sql_fragment_bare, bare_of_compile compiled]
  rfl

theorem length_binds_of_compile {clause : Clause} {predicate : Predicate}
    (compiled : clause.compile registry schema root = .ok predicate) :
    predicate.fragment.binds.length = (clause.outline schema root).placeholders := by
  rw [← Predicate.length_binds_fragment_bare, bare_of_compile compiled]
  rfl

end Clause

end Outline

namespace Clause

mutual

theorem isVacuous_skeleton (clause : Clause) : clause.skeleton.isVacuous = clause.isVacuous := by
  cases clause with
  | filter leaf => rfl
  | any children =>
      have empty : (listSkeleton children).isEmpty = children.isEmpty := by cases children <;> rfl
      rw [skeleton, isVacuous, isVacuous, empty, anyVacuous_skeleton]
  | all children => rw [skeleton, isVacuous, isVacuous, allVacuous_skeleton]

theorem anyVacuous_skeleton (children : List Clause) :
    anyVacuous (listSkeleton children) = anyVacuous children := by
  cases children with
  | nil => rfl
  | cons child rest =>
      rw [listSkeleton, anyVacuous, anyVacuous, isVacuous_skeleton, anyVacuous_skeleton]

theorem allVacuous_skeleton (children : List Clause) :
    allVacuous (listSkeleton children) = allVacuous children := by
  cases children with
  | nil => rfl
  | cons child rest =>
      rw [listSkeleton, allVacuous, allVacuous, isVacuous_skeleton, allVacuous_skeleton]

end

mutual

/-- The operands that the text has placeholders for, each with its filter. A disjunction that asks
for nothing has no text for its children. -/
def operands : Clause → List (Filter × String)
  | .filter leaf => leaf.operands.map fun raw => (leaf, raw)
  | .any children => if anyVacuous children then [] else listOperands children
  | .all children => listOperands children

def listOperands : List Clause → List (Filter × String)
  | [] => []
  | child :: rest => child.operands ++ listOperands rest

end

end Clause

/-- What a bind is to an operand: the pattern of the texts that contain it, or what the strategy of
the column's type reads. -/
def Filter.Binds (registry : Registry) (schema : Schema) (root : Fin schema.size)
    (operand : Filter × String) (value : Value) : Prop :=
  operand.2 ∈ operand.1.values ∧
    ∃ path strategy, resolve schema root operand.1.member = .ok (.column path) ∧
      registry.find? path.type = some strategy ∧
      if operand.1.operator = .contains then value = .text (Sql.Pattern.containing operand.2)
      else strategy.convert operand.1.member operand.2 = .ok value

section Operands

variable {registry : Registry} {schema : Schema} {root : Fin schema.size}

theorem Filter.binds_of_compile {filter : Filter} {predicate : Predicate}
    (compiled : filter.compile registry schema root = .ok predicate) :
    List.Forall₂ (Filter.Binds registry schema root) (filter.operands.map fun raw => (filter, raw))
      predicate.values := by
  rcases Filter.compile_eq_ok.mp compiled with
    ⟨path, strategy, found, registered, built⟩ | ⟨path, found, asked⟩
  · obtain ⟨-, counted, condition, imposed, rfl⟩ := Strategy.build_eq_ok.mp built
    have read := (Strategy.condition_ok imposed).2
    have own := (filter.operands_prefix counted).subset
    have known := Registry.find?_of_get_ok registered
    rw [List.forall₂_map_left_iff]
    apply List.forall₂_iff_zip.mpr
    refine ⟨read.length_eq, ?_⟩
    intro raw value pair
    have member := own (List.of_mem_zip pair).1
    exact ⟨member, path, strategy, found, known, (List.forall₂_iff_zip.mp read).2 pair⟩
  · unfold Filter.operands
    rcases Filter.presence_eq_ok.mp asked with ⟨set, rfl⟩ | ⟨notSet, rfl⟩
    · rw [set]
      exact .nil
    · rw [notSet]
      exact .nil

namespace Clause

theorem binds_of_forall₂ {children : List Clause} {predicates : List Predicate}
    (each : List.Forall₂ (fun child predicate =>
      List.Forall₂ (Filter.Binds registry schema root) child.operands predicate.values)
      children predicates) :
    List.Forall₂ (Filter.Binds registry schema root) (listOperands children)
      (Predicate.listValues predicates) := by
  induction each with
  | nil => exact .nil
  | cons here rest ih => exact List.rel_append here ih

/-- The binds of a compiled clause are what its operands become, in their order. -/
theorem binds_of_compile {clause : Clause} {predicate : Predicate}
    (compiled : clause.compile registry schema root = .ok predicate) :
    List.Forall₂ (Filter.Binds registry schema root) clause.operands predicate.values := by
  refine compile_induction ?filter ?any ?all compiled
  case filter => exact fun leaf predicate => Filter.binds_of_compile
  case any =>
    intro children predicates compiled each
    rw [Predicate.values_fold_any, isAlways_of_compileList compiled, operands]
    split
    · exact .nil
    · exact binds_of_forall₂ each
  case all =>
    intro children predicates _ each
    rw [Predicate.values_fold_all, operands]
    exact binds_of_forall₂ each

/-- What the operands belong to can be told without their values. -/
theorem operands_skeleton (clause : Clause) :
    clause.skeleton.operands = clause.operands.map fun operand => (operand.1.skeleton, "") := by
  have list (children : List Clause)
      (ih : ∀ child ∈ children, child.skeleton.operands =
        child.operands.map fun operand => (operand.1.skeleton, "")) :
      listOperands (listSkeleton children) =
        (listOperands children).map fun operand => (operand.1.skeleton, "") := by
    induction children with
    | nil => rfl
    | cons child rest later =>
        rw [listSkeleton, listOperands, listOperands, List.map_append, ih child List.mem_cons_self,
          later fun other member => ih other (List.mem_cons_of_mem child member)]
  induction clause with
  | filter leaf =>
      rw [skeleton, operands, operands, Filter.operands_skeleton, List.map_map, List.map_map]
      rfl
  | any children ih =>
      rw [skeleton, operands, operands, anyVacuous_skeleton]
      split
      · rfl
      · exact list children ih
  | all children ih => exact list children ih

end Clause

end Operands

namespace Search

/-- The search as a group of its filters. -/
def clause (search : Search) : Connective → Clause
  | .all => .all search.filters
  | .any => .any search.filters

theorem compileWith_eq (search : Search) (connective : Connective) (registry : Registry)
    (schema : Schema) (root : Fin schema.size) :
    search.compileWith connective registry schema root =
      (search.clause connective).compile registry schema root := by
  cases connective <;> rfl

theorem clause_skeleton (search : Search) (connective : Connective) :
    search.skeleton.clause connective = (search.clause connective).skeleton := by
  cases connective <;> rfl

/-- Searches that differ in their values alone have the same text with the same placeholders, which
belong to the same members and operators; each bind is what the operand in its place becomes. The
text is that of the outline, in which there are no values. -/
theorem text_noninterference (registry : Registry) (schema : Schema) (root : Fin schema.size)
    (connective : Connective) :
    (∀ (search other : Search) (predicate second : Predicate),
        search.skeleton = other.skeleton →
        search.compileWith connective registry schema root = .ok predicate →
        other.compileWith connective registry schema root = .ok second →
        predicate.fragment.sql = second.fragment.sql ∧
        predicate.fragment.binds.length = second.fragment.binds.length ∧
        (search.clause connective).operands.map (fun operand => operand.1.skeleton) =
          (other.clause connective).operands.map fun operand => operand.1.skeleton) ∧
      (∀ (search : Search) (predicate : Predicate),
        search.compileWith connective registry schema root = .ok predicate →
        List.Forall₂ (Filter.Binds registry schema root) (search.clause connective).operands
          predicate.fragment.binds) ∧
      ∀ (search : Search) (predicate : Predicate),
        search.compileWith connective registry schema root = .ok predicate →
        predicate.fragment.sql = ((search.clause connective).outline schema root).sql ∧
        predicate.fragment.binds.length =
          ((search.clause connective).outline schema root).placeholders := by
  simp only [compileWith_eq]
  refine ⟨?_, ?_, ?_⟩
  · intro search other predicate second same first later
    have skeletons : (search.clause connective).skeleton = (other.clause connective).skeleton := by
      rw [← clause_skeleton, ← clause_skeleton, same]
    have outlines : (search.clause connective).outline schema root =
        (other.clause connective).outline schema root := by
      rw [← Clause.outline_skeleton, skeletons, Clause.outline_skeleton]
    have filters (clause : Clause) : clause.operands.map (fun operand => operand.1.skeleton) =
        clause.skeleton.operands.map Prod.fst := by
      rw [Clause.operands_skeleton, List.map_map]
      rfl
    refine ⟨?_, ?_, ?_⟩
    · rw [Clause.sql_of_compile first, Clause.sql_of_compile later, outlines]
    · rw [Clause.length_binds_of_compile first, Clause.length_binds_of_compile later, outlines]
    · rw [filters, filters, skeletons]
  · intro search predicate compiled
    rw [Predicate.binds_fragment]
    exact Clause.binds_of_compile compiled
  · intro search predicate compiled
    exact ⟨Clause.sql_of_compile compiled, Clause.length_binds_of_compile compiled⟩

/-- A search for a name, and one with a quote and a comment for its values. -/
def harmless : Search :=
  ⟨[.any [.filter ⟨"name", .contains, ["Acme"]⟩,
    .filter ⟨"contact.country", .within, ["DE", "FR"]⟩]]⟩

def hostile : Search :=
  ⟨[.any [.filter ⟨"name", .contains, ["' OR 1 = 1 --"]⟩,
    .filter ⟨"contact.country", .within, ["?", "')"]⟩]]⟩

theorem text_hostile :
    harmless.skeleton = hostile.skeleton ∧
      ∃ predicate second,
        harmless.compileWith .all Directory.registry Directory.schema Directory.root =
          .ok predicate ∧
        hostile.compileWith .all Directory.registry Directory.schema Directory.root = .ok second ∧
        predicate.fragment.sql = second.fragment.sql ∧ second.fragment.binds.length = 3 := by
  have same : harmless.skeleton = hostile.skeleton := rfl
  obtain ⟨text, -⟩ := text_noninterference Directory.registry Directory.schema Directory.root .all
  exact ⟨same, _, _, rfl, rfl, (text harmless hostile _ _ same rfl rfl).1, rfl⟩

end Search

end PartnerSearch
