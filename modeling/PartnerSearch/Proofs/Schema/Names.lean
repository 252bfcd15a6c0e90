import PartnerSearch.Proofs.Search.Routing

set_option autoImplicit false

/-!
The tables and columns that a predicate names. Those of a compiled search are names of the schema.
-/

namespace PartnerSearch

/-- The columns that a field names. -/
def Field.columns {size : Nat} : Field size → List String
  | .scalar _ column _ => [column]
  | .relation _ _ _ join => [join.home, join.remote]

def Entity.names {size : Nat} (entity : Entity size) : List String :=
  entity.table :: entity.fields.flatMap Field.columns

/-- All tables and columns of a schema. -/
def Schema.names (schema : Schema) : List String :=
  (List.finRange schema.size).flatMap fun position => (schema.entity position).names

def Hop.names (hop : Hop) : List String := [hop.table, hop.join.remote, hop.join.home]

namespace Predicate

mutual

/-- The tables and columns that stand in the text of a predicate. -/
def names : Predicate → List String
  | .always => []
  | .column path _ => path.column :: path.hops.flatMap Hop.names
  | .related path _ => path.hops.flatMap Hop.names
  | .group _ items => listNames items

def listNames : List Predicate → List String
  | [] => []
  | item :: rest => item.names ++ listNames rest

end

theorem mem_listNames {name : String} {items : List Predicate} :
    name ∈ listNames items ↔ ∃ item ∈ items, name ∈ item.names := by
  induction items with
  | nil => simp [listNames]
  | cons item rest ih => simp [listNames, ih]

end Predicate

variable {schema : Schema} {root : Fin schema.size}

namespace Schema

theorem table_mem_names (position : Fin schema.size) :
    (schema.entity position).table ∈ schema.names :=
  List.mem_flatMap.mpr ⟨position, List.mem_finRange position, List.mem_cons_self⟩

theorem column_mem_names {position : Fin schema.size} {field : Field schema.size}
    (declared : field ∈ (schema.entity position).fields) {column : String}
    (named : column ∈ field.columns) : column ∈ schema.names :=
  List.mem_flatMap.mpr ⟨position, List.mem_finRange position,
    List.mem_cons_of_mem _ (List.mem_flatMap.mpr ⟨field, declared, named⟩)⟩

theorem Walk.names_mem {start goal : Fin schema.size} {hops : List Hop}
    (walked : schema.Walk start hops goal) :
    ∀ name ∈ hops.flatMap Hop.names, name ∈ schema.names := by
  induction walked with
  | here position => simp
  | @cross position target goal name cardinality join hops declared onward ih =>
      intro other member
      rw [List.flatMap_cons, List.mem_append] at member
      rcases member with here | later
      · rcases List.mem_cons.mp here with rfl | joined
        · exact table_mem_names target
        · refine column_mem_names declared ?_
          simpa [Field.columns, or_comm] using joined
      · exact ih other later

end Schema

/-- A compiled predicate names what the schema names. -/
theorem Predicate.Routed.names_mem {predicate : Predicate} (routed : predicate.Routed schema root) :
    ∀ name ∈ predicate.names, name ∈ schema.names := by
  induction routed with
  | always => simp [Predicate.names]
  | column walked declared few some_value =>
      rw [Predicate.names, List.forall_mem_cons]
      exact ⟨Schema.column_mem_names declared List.mem_cons_self, walked.names_mem⟩
  | related walked crossed => exact walked.names_mem
  | @group connective items several each ih =>
      intro name member
      obtain ⟨item, inside, named⟩ := Predicate.mem_listNames.mp member
      exact ih item inside name named

end PartnerSearch
