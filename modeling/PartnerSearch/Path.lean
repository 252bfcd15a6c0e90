import PartnerSearch.Search.Error
import PartnerSearch.Text.Blank
import PartnerSearch.Text.Split

set_option autoImplicit false

/-!
Member paths. A path names fields from the root on; relations lead from entity to entity, with at
most one collection among them, and a scalar field ends the path.
-/

namespace PartnerSearch

/-- One relation that a path crosses. -/
structure Hop where
  field : String
  table : String
  join : Join
  cardinality : Cardinality
  deriving DecidableEq, Repr

/-- A column reached from the root. -/
structure ColumnPath where
  path : String
  hops : List Hop
  column : String
  type : FieldType
  deriving DecidableEq, Repr

/-- Related rows reached from the root. -/
structure RelationPath where
  path : String
  hops : List Hop
  deriving DecidableEq, Repr

def Hop.isMany (hop : Hop) : Bool := hop.cardinality == .many

/-- A path across a collection stands for any of its elements. -/
def ColumnPath.isQuantified (path : ColumnPath) : Bool := path.hops.any Hop.isMany

inductive Resolved where
  | column (path : ColumnPath)
  | relation (path : RelationPath)
  deriving DecidableEq, Repr

namespace Path

/-- The most segments that a path may have. -/
def segmentLimit : Nat := 8

def isLetter (c : Char) : Bool := ('A' ≤ c && c ≤ 'Z') || ('a' ≤ c && c ≤ 'z') || c == '_'

def isLetterOrDigit (c : Char) : Bool := isLetter c || ('0' ≤ c && c ≤ '9')

/-- An ASCII identifier. -/
def isFieldName (segment : List Char) : Bool :=
  match segment with
  | [] => false
  | first :: rest => isLetter first && rest.all isLetterOrDigit

theorem all_isLetterOrDigit_of_isFieldName {segment : List Char}
    (identifier : isFieldName segment = true) : segment.all isLetterOrDigit = true := by
  cases segment with
  | nil => rfl
  | cons first rest =>
    rw [isFieldName, Bool.and_eq_true] at identifier
    rw [List.all_cons, isLetterOrDigit, identifier.1, identifier.2]
    rfl

/-- The segments of a path that is worth walking. -/
def segments (member : String) : Except SearchError (List String) :=
  let parts := Text.split '.' member
  if Text.isBlankText member then .error (.invalidPath member .blank)
  else if segmentLimit < parts.length then
    .error (.invalidPath member (.tooLong parts.length segmentLimit))
  else
    match parts.find? fun part => !isFieldName part.toList with
    | some part => .error (.invalidPath member (.badSegment part))
    | none => .ok parts

/-- The relations crossed, and the scalar field at the end if there is one. -/
structure Walk where
  hops : List Hop
  scalar : Option (String × FieldType)
  deriving DecidableEq, Repr

def Walk.through (hop : Hop) (walk : Walk) : Walk := { walk with hops := hop :: walk.hops }

/-- Follows the segments from an entity; `crossed` tells that a collection lies behind. -/
def walk (schema : Schema) (member : String) :
    List String → Fin schema.size → Bool → Except SearchError Walk
  | [], _, _ => .ok ⟨[], none⟩
  | segment :: rest, position, crossed =>
    let entity := schema.entity position
    match entity.field? segment with
    | none => .error (.fieldNotFound member segment entity.name)
    | some (.scalar _ column type) =>
      if rest.isEmpty then .ok ⟨[], some (column, type)⟩
      else .error (.invalidPath member (.scalarHasNoMembers segment))
    | some (.relation name target cardinality join) =>
      if crossed && cardinality == .many then .error (.nestedCollection member segment)
      else
        let hop : Hop := ⟨name, (schema.entity target).table, join, cardinality⟩
        (walk schema member rest target (crossed || cardinality == .many)).map (·.through hop)

def Walk.resolved (walk : Walk) (member : String) : Resolved :=
  match walk.scalar with
  | some (column, type) => .column ⟨member, walk.hops, column, type⟩
  | none => .relation ⟨member, walk.hops⟩

end Path

/-- What a member path denotes, seen from an entity. -/
def resolve (schema : Schema) (root : Fin schema.size) (member : String) :
    Except SearchError Resolved := do
  let segments ← Path.segments member
  let walk ← Path.walk schema member segments root false
  return walk.resolved member

end PartnerSearch
