import PartnerSearch.Text.Quoted

set_option autoImplicit false

/-!
Field graphs. An entity lists the fields that a path may name; a scalar field is a column of the
entity's table, and a relation leads to another entity of the same schema, possibly back to itself.
-/

namespace PartnerSearch

open Text (quoted)

/-- What the values of a scalar field are; an enumeration goes by its name. -/
inductive FieldType where
  | text
  | integer
  | real
  | boolean
  | timestamp
  | uuid
  | enumeration (name : String)
  deriving DecidableEq, Repr

def FieldType.label : FieldType → String
  | .text => "text"
  | .integer => "integer"
  | .real => "real"
  | .boolean => "boolean"
  | .timestamp => "timestamp"
  | .uuid => "uuid"
  | .enumeration name => "enum " ++ name

/-- How many rows a relation may lead to. -/
inductive Cardinality where
  | one
  | many
  deriving DecidableEq, Repr

/-- A row is related to the rows whose column `remote` equals its own column `home`. -/
structure Join where
  home : String
  remote : String
  deriving DecidableEq, Repr

/-- A field of an entity in a schema of `size` entities. -/
inductive Field (size : Nat) where
  | scalar (name : String) (column : String) (type : FieldType)
  | relation (name : String) (target : Fin size) (cardinality : Cardinality) (join : Join)
  deriving DecidableEq, Repr

namespace Field

variable {size : Nat}

def name : Field size → String
  | .scalar name _ _ => name
  | .relation name _ _ _ => name

def type? : Field size → Option FieldType
  | .scalar _ _ type => some type
  | .relation _ _ _ _ => none

def target? : Field size → Option (Fin size)
  | .scalar _ _ _ => none
  | .relation _ target _ _ => some target

def isCollection : Field size → Bool
  | .relation _ _ .many _ => true
  | _ => false

end Field

structure Entity (size : Nat) where
  name : String
  table : String
  fields : List (Field size)

namespace Entity

variable {size : Nat}

/-- The first field of that name. -/
def field? (entity : Entity size) (name : String) : Option (Field size) :=
  entity.fields.find? fun field => field.name == name

/-- The entities that the relations lead to, in field order. -/
def targets (entity : Entity size) : List (Fin size) := entity.fields.filterMap Field.target?

def describe (entity : Entity size) : String :=
  "EntityDescriptor \x7b name: " ++ quoted entity.name ++ ", table: " ++ quoted entity.table ++
    ", fields: [" ++ String.intercalate ", " (entity.fields.map fun field => quoted field.name) ++
    "] \x7d"

theorem name_of_field? {entity : Entity size} {name : String} {field : Field size}
    (found : entity.field? name = some field) : field.name = name := by
  simpa using List.find?_some found

theorem mem_of_field? {entity : Entity size} {name : String} {field : Field size}
    (found : entity.field? name = some field) : field ∈ entity.fields :=
  List.mem_of_find?_eq_some found

end Entity

structure Schema where
  size : Nat
  entity : Fin size → Entity size

/-- A field whose relation names its target. -/
inductive FieldDeclaration where
  | scalar (name : String) (column : String) (type : FieldType)
  | relation (name : String) (target : String) (cardinality : Cardinality) (join : Join)

structure EntityDeclaration where
  name : String
  table : String
  fields : List FieldDeclaration

namespace Schema

variable {size : Nat}

/-- The first entity of that name. -/
def find? (schema : Schema) (name : String) : Option (Fin schema.size) :=
  (List.finRange schema.size).find? fun entity => (schema.entity entity).name == name

def indexOf? (entities : Vector EntityDeclaration size) (name : String) : Option (Fin size) :=
  (List.finRange size).find? fun entity => entities[entity].name == name

def linkField? (entities : Vector EntityDeclaration size) : FieldDeclaration → Option (Field size)
  | .scalar name column type => some (.scalar name column type)
  | .relation name target cardinality join =>
    (indexOf? entities target).map fun target => .relation name target cardinality join

def linkEntity? (entities : Vector EntityDeclaration size) (entity : EntityDeclaration) :
    Option (Entity size) :=
  (entity.fields.mapM (linkField? entities)).map fun fields => ⟨entity.name, entity.table, fields⟩

/-- The schema of the declared entities, if every relation names one of them. -/
def ofDeclarations? (declarations : List EntityDeclaration) : Option Schema :=
  let entities := declarations.toArray.toVector
  (entities.mapM (linkEntity? entities)).map fun linked => ⟨_, fun entity => linked[entity]⟩

end Schema

end PartnerSearch
