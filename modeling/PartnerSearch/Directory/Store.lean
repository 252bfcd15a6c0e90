import PartnerSearch.Directory.Schema
import PartnerSearch.Sql.Fragment
import PartnerSearch.Sql.Limits
import PartnerSearch.Text.Bytes

set_option autoImplicit false

/-!
The partner directory: three tables with their keys and references, and what can be done to them.
A statement that names a dropped table fails and changes nothing.
-/

namespace PartnerSearch

open Text (bytes isBlankText trim)

/-- What the database engine refuses. -/
inductive EngineFault where
  | missingTable (name : String)
  | duplicateKey (column : String)
  | danglingReference
  | excess (kind : Sql.Excess)
  deriving DecidableEq, Repr

namespace EngineFault

/-- The refusal with its code. -/
def detail : EngineFault → String
  | .missingTable name => "(code: 1) no such table: " ++ name
  | .duplicateKey column => "(code: 1555) UNIQUE constraint failed: " ++ column
  | .danglingReference => "(code: 787) FOREIGN KEY constraint failed"
  | .excess kind => "(code: 1) " ++ kind.message

def message (fault : EngineFault) : String :=
  "error returned from database: " ++ fault.detail

/-- The refusal with its cause, as it is logged. -/
def chain (fault : EngineFault) : String := fault.message ++ ": " ++ fault.detail

end EngineFault

namespace Directory

/-- The longest attribute, in bytes. -/
def attributeLimit : Nat := 50

/-- Why a record is not written. -/
inductive WriteFault where
  | contactNameRequired
  | partnerNameRequired
  | ratingNotFinite
  | attributeEmpty
  | attributeTooLong
  | engine (fault : EngineFault)
  deriving DecidableEq, Repr

def WriteFault.message : WriteFault → String
  | .contactNameRequired => "Contact name is required"
  | .partnerNameRequired => "Partner name is required"
  | .ratingNotFinite => "Partner rating must be a finite number"
  | .attributeEmpty => "Attribute cannot be empty"
  | .attributeTooLong =>
    "Attribute is too long (max " ++ toString attributeLimit ++ " characters)"
  | .engine fault => fault.message

end Directory

structure Directory where
  contacts : List Contact
  partners : List Partner
  attributes : List Attribute
  dropped : List Directory.Table
  deriving DecidableEq, Repr

namespace Directory

def empty : Directory := ⟨[], [], [], []⟩

/-- The rows of every table by its name. -/
def tables (directory : Directory) : Sql.Tables := fun name =>
  match Table.ofName? name with
  | some .contacts => directory.contacts.map Contact.row
  | some .partners => directory.partners.map Partner.row
  | some .attributes => directory.attributes.map Attribute.row
  | none => []

/-- Fails at the first table that has been dropped. -/
def requireTables (directory : Directory) : List String → Except EngineFault Unit
  | [] => .ok ()
  | name :: rest =>
    if directory.dropped.any fun table => table.name == name then .error (.missingTable name)
    else directory.requireTables rest

/-- A table that is referred to has to exist when the referring one is written. -/
def requireReferenced (directory : Directory) (table : Table) : Except EngineFault Unit :=
  if table ∈ directory.dropped then .error (.missingTable ("main." ++ table.name)) else .ok ()

def hasContact (directory : Directory) (id : String) : Bool :=
  directory.contacts.any fun contact => contact.id == id

def hasPartner (directory : Directory) (id : String) : Bool :=
  directory.partners.any fun partner => partner.id == id

def insertContact (directory : Directory) (contact : Contact) : Except EngineFault Directory := do
  directory.requireTables [Table.contacts.name]
  if directory.hasContact contact.id then .error (.duplicateKey "contacts.id")
  else return { directory with contacts := directory.contacts ++ [contact] }

/-- The reference to a contact is empty or names one. -/
def referenceHolds (directory : Directory) (contactId : Option String) : Bool :=
  contactId.all directory.hasContact

def insertPartner (directory : Directory) (partner : Partner) : Except EngineFault Directory := do
  directory.requireTables [Table.partners.name]
  directory.requireReferenced .contacts
  if directory.hasPartner partner.id then .error (.duplicateKey "partners.id")
  else if directory.referenceHolds partner.contactId then
    return { directory with partners := directory.partners ++ [partner] }
  else .error .danglingReference

/-- A pair that is there already is left alone. -/
def insertAttribute (directory : Directory) (entry : Attribute) :
    Except EngineFault Directory := do
  directory.requireTables [Table.attributes.name]
  directory.requireReferenced .partners
  if entry ∈ directory.attributes then return directory
  else if directory.hasPartner entry.partnerId then
    return { directory with attributes := directory.attributes ++ [entry] }
  else .error .danglingReference

/-- Adds a contact, which must have a name. -/
def createContact (directory : Directory) (contact : Contact) : Except WriteFault Directory :=
  if isBlankText contact.name then .error .contactNameRequired
  else (directory.insertContact contact).mapError .engine

/-- A rating is a finite number; negative zero is stored as zero. -/
def storedRating (rating : Option Binary64) : Option Binary64 :=
  rating.map Binary64.withoutNegativeZero

/-- Adds a partner, which must have a name and, if it is rated, a finite rating. -/
def createPartner (directory : Directory) (partner : Partner) : Except WriteFault Directory :=
  if isBlankText partner.name then .error .partnerNameRequired
  else if partner.rating.any fun rating => !rating.isFinite then .error .ratingNotFinite
  else
    (directory.insertPartner { partner with rating := storedRating partner.rating }).mapError
      .engine

/-- Adds an attribute without the blanks at its ends. -/
def addAttribute (directory : Directory) (partnerId text : String) :
    Except WriteFault Directory :=
  let trimmed := trim text
  if trimmed.isEmpty then .error .attributeEmpty
  else if attributeLimit < (bytes trimmed).length then .error .attributeTooLong
  else (directory.insertAttribute ⟨partnerId, trimmed⟩).mapError .engine

/-- Removes a partner with its attributes, and tells how many there were. -/
def deletePartner (directory : Directory) (id : String) : Except EngineFault (Nat × Directory) := do
  directory.requireTables [Table.partners.name]
  directory.requireReferenced .contacts
  let (gone, kept) := directory.partners.partition fun partner => partner.id == id
  let attributes := directory.attributes.filter fun entry => entry.partnerId != id
  return (gone.length, { directory with partners := kept, attributes := attributes })

/-- Removes a contact; the partners that name it keep none. -/
def deleteContact (directory : Directory) (id : String) : Except EngineFault (Nat × Directory) := do
  directory.requireTables [Table.contacts.name]
  let (gone, kept) := directory.contacts.partition fun contact => contact.id == id
  let partners := directory.partners.map fun partner => partner.withoutContact id
  return (gone.length, { directory with contacts := kept, partners := partners })

/-- Removes a table with its rows. What refers to them stays as it is. -/
def dropTable (directory : Directory) (table : Table) : Except EngineFault Directory := do
  directory.requireTables [table.name]
  let directory := { directory with dropped := table :: directory.dropped }
  match table with
  | .contacts => return { directory with contacts := [] }
  | .partners => return { directory with partners := [] }
  | .attributes => return { directory with attributes := [] }

section Ordering

variable {α : Type}

/-- Inserts before the first item that is not to stand before it. -/
def insertOrdered (before : α → α → Bool) (item : α) : List α → List α
  | [] => [item]
  | first :: rest =>
    if before first item then first :: insertOrdered before item rest else item :: first :: rest

def ordered (before : α → α → Bool) (items : List α) : List α :=
  items.foldr (insertOrdered before) []

end Ordering

/-- The order of a listing: by name, then by id. -/
def listedBefore (a b : Partner) : Bool :=
  decide (a.name < b.name) || (a.name == b.name && decide (a.id < b.id))

/-- Skips `offset` items and keeps `limit`; negative numbers skip nothing and keep all. -/
def slice {α : Type} (limit offset : Int64) (items : List α) : List α :=
  let rest := items.drop offset.toInt.toNat
  if limit < 0 then rest else rest.take limit.toInt.toNat

/-- The partners that a predicate selects, in the order of their creation. -/
def selected (directory : Directory) (predicate : Predicate) : List Partner :=
  directory.partners.filter fun partner => predicate.formula.selects directory.tables partner.row

/-- The tables that a selection of partners names. -/
def selectionTables (predicate : Predicate) : List String :=
  Table.partners.name :: predicate.formula.tables

/-- Looks up the tables of a statement, after those that it has named `before`. -/
def lookUp (directory : Directory) (before : List String) : List String → Except EngineFault Unit
  | [] => .ok ()
  | name :: rest => do
    directory.requireTables [name]
    if Sql.referenceLimit ≤ before.count name then .error (.excess (.references name))
    else directory.lookUp (name :: before) rest

/-- Prepares a selection of partners that has so many operands behind its condition. -/
def prepare (directory : Directory) (predicate : Predicate) (further : Nat) :
    Except EngineFault Unit := do
  let parsed ← (predicate.formula.parse 0).mapError .excess
  if Sql.operandLimit < parsed.operands + further then .error (.excess .operands)
  else
    directory.lookUp [] (selectionTables predicate)
    (predicate.formula.resolve parsed.height).mapError .excess

/-- Whether a partner comes to a pattern that is too long. -/
def overruns (directory : Directory) (predicate : Predicate) : Bool :=
  directory.partners.any fun partner =>
    Sql.Formula.listOverruns directory.tables (Sql.Scope.ofRoot partner.row) .all
      predicate.formula.tested

/-- Tests every partner. -/
def select (directory : Directory) (predicate : Predicate) : Except EngineFault (List Partner) :=
  if directory.overruns predicate then .error (.excess .pattern)
  else .ok (directory.selected predicate)

/-- The limit and the offset of a listing. -/
def pagingOperands : Nat := 2

/-- Without a limit all matching partners are listed; no partner is tested for a limit of zero. -/
def list (directory : Directory) (predicate : Predicate) (limit offset : Option Int64) :
    Except EngineFault (List Partner) := do
  directory.prepare predicate pagingOperands
  if limit = some 0 then return []
  else
    let found ← directory.select predicate
    return slice (limit.getD (-1)) (offset.getD 0) (ordered listedBefore found)

def count (directory : Directory) (predicate : Predicate) : Except EngineFault Nat := do
  directory.prepare predicate 0
  let found ← directory.select predicate
  return found.length

def get? (directory : Directory) (id : String) : Except EngineFault (Option Partner) := do
  directory.requireTables [Table.partners.name]
  return directory.partners.find? fun partner => partner.id == id

def contactOf? (directory : Directory) (partner : Partner) :
    Except EngineFault (Option Contact) :=
  match partner.contactId with
  | none => .ok none
  | some id => do
    directory.requireTables [Table.contacts.name]
    return directory.contacts.find? fun contact => contact.id == id

/-- The texts of the attributes of a partner in ascending order. -/
def attributesOf (directory : Directory) (id : String) : List String :=
  ordered (fun a b => decide (a < b)) <|
    (directory.attributes.filter fun entry => entry.partnerId == id).map Attribute.text

def details? (directory : Directory) (id : String) :
    Except EngineFault (Option PartnerDetails) := do
  match ← directory.get? id with
  | none => return none
  | some partner =>
    let contact ← directory.contactOf? partner
    directory.requireTables [Table.attributes.name]
    return some ⟨partner, contact, directory.attributesOf partner.id⟩

end Directory

end PartnerSearch
