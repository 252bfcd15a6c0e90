import PartnerSearch.Directory.Record
import PartnerSearch.Registry

set_option autoImplicit false

/-! What can be searched in a partner directory: three entities that lead to each other. -/

namespace PartnerSearch.Directory

inductive Table where
  | contacts
  | partners
  | attributes
  deriving DecidableEq, Repr

namespace Table

def name : Table → String
  | .contacts => "contacts"
  | .partners => "partners"
  | .attributes => "partner_attributes"

def all : List Table := [.contacts, .partners, .attributes]

def ofName? (name : String) : Option Table := all.find? fun table => table.name == name

theorem ofName?_name (table : Table) : ofName? table.name = some table := by
  cases table <;> decide

end Table

/-- The name of the enumeration of partner statuses. -/
def statusEnumeration : String := "partner_status"

def partnerPosition : Fin 3 := 0
def contactPosition : Fin 3 := 1
def attributePosition : Fin 3 := 2

def partnerEntity : Entity 3 where
  name := "Partner"
  table := Table.partners.name
  fields := [
    .scalar "id" "id" .uuid,
    .scalar "name" "name" .text,
    .scalar "status" "status" (.enumeration statusEnumeration),
    .scalar "tier" "tier" .integer,
    .scalar "rating" "rating" .real,
    .scalar "verified" "verified" .boolean,
    .scalar "website" "website" .text,
    .scalar "created_at" "created_at_ns" .timestamp,
    .relation "contact" contactPosition .one ⟨"contact_id", "id"⟩,
    .relation "attributes" attributePosition .many ⟨"id", "partner_id"⟩]

def contactEntity : Entity 3 where
  name := "Contact"
  table := Table.contacts.name
  fields := [
    .scalar "id" "id" .uuid,
    .scalar "name" "name" .text,
    .scalar "email" "email" .text,
    .scalar "country" "country" .text]

def attributeEntity : Entity 3 where
  name := "PartnerAttribute"
  table := Table.attributes.name
  fields := [
    .scalar "attribute" "attribute" .text,
    .relation "partner" partnerPosition .one ⟨"partner_id", "id"⟩]

def schema : Schema where
  size := 3
  entity
    | 0 => partnerEntity
    | 1 => contactEntity
    | 2 => attributeEntity

/-- Partners are what a search selects. -/
def root : Fin schema.size := partnerPosition

/-- A strategy for every type in the schema. -/
def strategies : List Strategy :=
  [.text, .integer, .real, .boolean, .timestamp, .uuid,
    .enumeration statusEnumeration Status.vocabulary]

def registry : Registry := .ofList strategies

end PartnerSearch.Directory
