import PartnerSearch.Number.Binary64
import PartnerSearch.Sql.Evaluation
import PartnerSearch.Token

set_option autoImplicit false

/-! The records of a partner directory, and their rows as a search sees them. -/

namespace PartnerSearch

inductive Status where
  | prospect
  | active
  | suspended
  deriving DecidableEq, Repr

namespace Status

def token : Status → String
  | .prospect => "prospect"
  | .active => "active"
  | .suspended => "suspended"

def all : List Status := [.prospect, .active, .suspended]

def vocabulary : List String := all.map token

def ofToken? (token : String) : Option Status := all.find? fun status => status.token == token

def parse (token : String) : Except UnknownToken Status :=
  match ofToken? token with
  | some status => .ok status
  | none => .error ⟨token, vocabulary⟩

theorem ofToken?_token (status : Status) : ofToken? status.token = some status := by
  cases status <;> decide

end Status

structure Contact where
  id : String
  name : String
  email : Option String
  country : Option String
  deriving DecidableEq, Repr

/-- A partner; `createdAt` counts nanoseconds since the epoch. -/
structure Partner where
  id : String
  name : String
  status : Status
  tier : Int64
  rating : Option Binary64
  verified : Bool
  website : Option String
  contactId : Option String
  createdAt : Int64
  deriving DecidableEq, Repr

/-- The same partner without a contact, if the contact is the one named. -/
def Partner.withoutContact (partner : Partner) (id : String) : Partner :=
  if partner.contactId = some id then { partner with contactId := none } else partner

/-- An attribute of a partner. -/
structure Attribute where
  partnerId : String
  text : String
  deriving DecidableEq, Repr

/-- A partner with its contact and the texts of its attributes. -/
structure PartnerDetails where
  partner : Partner
  contact : Option Contact
  attributes : List String
  deriving DecidableEq, Repr

open Sql (Cell Row)

def Contact.row (contact : Contact) : Row
  | "id" => .text contact.id
  | "name" => .text contact.name
  | "email" => .ofText? contact.email
  | "country" => .ofText? contact.country
  | _ => .null

def Partner.row (partner : Partner) : Row
  | "id" => .text partner.id
  | "name" => .text partner.name
  | "status" => .text partner.status.token
  | "tier" => .integer partner.tier
  | "rating" => partner.rating.elim .null .real
  | "verified" => .integer (if partner.verified then 1 else 0)
  | "website" => .ofText? partner.website
  | "contact_id" => .ofText? partner.contactId
  | "created_at_ns" => .integer partner.createdAt
  | _ => .null

def Attribute.row (entry : Attribute) : Row
  | "partner_id" => .text entry.partnerId
  | "attribute" => .text entry.text
  | _ => .null

end PartnerSearch
