import PartnerSearch.Proofs.Directory.Objects
import PartnerSearch.Proofs.Directory.Reachable
import PartnerSearch.Proofs.Directory.Selection

set_option autoImplicit false

/-!
The rows that belong to a partner: the contact that it names, one at most, and its attributes. These
are the rows that the first hop of a path from a partner leads to.
-/

namespace PartnerSearch

open Sql

/-- The only record with a key is the one that is found by it. -/
theorem filter_key_eq_toList {α : Type} {key : α → String} {records : List α}
    (unique : (records.map key).Nodup) (wanted : String) :
    records.filter (fun record => key record == wanted) =
      (records.find? fun record => key record == wanted).toList := by
  induction records with
  | nil => rfl
  | cons record rest ih =>
      obtain ⟨fresh, unique⟩ := List.nodup_cons.mp unique
      by_cases here : key record = wanted
      · have none_later : rest.filter (fun other => key other == wanted) = [] := by
          rw [List.filter_eq_nil_iff]
          intro other member same
          have clash : key other = key record := (beq_iff_eq.mp same).trans here.symm
          exact fresh (clash ▸ List.mem_map_of_mem member)
        simp [here, none_later]
      · simp [here, ih unique]

theorem Sql.Cell.holds_equal_text {text : String} {cell : Cell} :
    (cell.equal (.text text)).holds = true ↔ cell = .text text := by
  cases cell with
  | null => simp [equal, order?, Truth.holds]
  | integer value => simp [equal, order?, Truth.holds]
  | real value => simp [equal, order?, Truth.holds]
  | text other => simp [equal, order?, Truth.holds, compareOfLessAndEq_eq_eq]

theorem Sql.Cell.holds_equal_texts {stored text : String} :
    ((Cell.text stored).equal (.text text)).holds = true ↔ stored = text := by
  rw [holds_equal_text, Cell.text.injEq]

theorem Sql.Cell.ofText?_eq_text {stored : Option String} {text : String} :
    Cell.ofText? stored = .text text ↔ stored = some text := by
  cases stored <;> simp [Cell.ofText?]

theorem Sql.Cell.ofText?_eq_null {stored : Option String} :
    Cell.ofText? stored = .null ↔ stored = none := by
  cases stored <;> simp [Cell.ofText?]

theorem Sql.Cell.not_holds_equal_null (cell : Cell) : (cell.equal .null).holds = false := by
  cases cell <;> rfl

/-- Over a single hop the rows reached are the related ones. -/
theorem Hop.reach_single (tables : Tables) (mode : JoinMode) (hop : Hop) (row : Row) :
    Hop.reach tables mode [hop] row = hop.related tables row :=
  List.flatMap_singleton' _

namespace Directory

variable {directory : Directory}

/-- The rows with a text in a column are those of the records that have it there. -/
theorem filter_equal_text {α : Type} (row : α → Row) (key : α → String) {column : String}
    (stored : ∀ record, row record column = .text (key record)) (records : List α)
    (text : String) :
    (records.map row).filter (fun other => ((other column).equal (.text text)).holds) =
      (records.filter fun record => key record == text).map row := by
  rw [List.filter_map]
  congr 2
  funext record
  rw [Bool.eq_iff_iff, Function.comp_apply, stored, Cell.holds_equal_texts, beq_iff_eq]

def contactHop : Hop := ⟨"contact", Table.contacts.name, ⟨"contact_id", "id"⟩, .one⟩

def attributesHop : Hop := ⟨"attributes", Table.attributes.name, ⟨"id", "partner_id"⟩, .many⟩

/-- The contact that a partner names. -/
def contactOf (directory : Directory) (partner : Partner) : Option Contact :=
  partner.contactId.bind fun id => directory.contacts.find? fun contact => contact.id == id

theorem contactOf?_intact (intact : directory.dropped = []) (partner : Partner) :
    directory.contactOf? partner = .ok (directory.contactOf partner) := by
  unfold contactOf? contactOf
  cases partner.contactId with
  | none => rfl
  | some id =>
      rw [requireTables_of_intact intact]
      rfl

theorem related_contact (unique : (directory.contacts.map Contact.id).Nodup) (partner : Partner) :
    contactHop.related directory.tables partner.row =
      ((directory.contactOf partner).map Contact.row).toList := by
  change (directory.contacts.map Contact.row).filter (fun other =>
    ((other "id").equal (partner.row "contact_id")).holds) = _
  rw [contactOf]
  cases named : partner.contactId with
  | none =>
      have unset : partner.row "contact_id" = .null := Cell.ofText?_eq_null.mpr named
      rw [unset]
      simp [Cell.not_holds_equal_null]
  | some id =>
      have set : partner.row "contact_id" = .text id := Cell.ofText?_eq_text.mpr named
      rw [set, filter_equal_text Contact.row Contact.id fun _ => rfl, filter_key_eq_toList unique,
        Option.bind_some, Option.toList_map]

theorem related_attributes (directory : Directory) (partner : Partner) :
    attributesHop.related directory.tables partner.row =
      (directory.attributes.filter fun entry => entry.partnerId == partner.id).map
        Attribute.row :=
  filter_equal_text Attribute.row Attribute.partnerId (fun _ => rfl) directory.attributes partner.id

/-- What a directory keeps of its references: a partner that names a contact has one. -/
theorem WellFormed.id_contactOf (wellFormed : directory.WellFormed) {partner : Partner}
    (stored : partner ∈ directory.partners) :
    (directory.contactOf partner).map Contact.id = partner.contactId := by
  rw [contactOf]
  cases named : partner.contactId with
  | none => rfl
  | some id =>
      obtain ⟨contact, there, same⟩ := wellFormed.contactThere partner stored id named
      rw [Option.bind_some]
      cases found : directory.contacts.find? fun contact => contact.id == id with
      | none =>
          have absent := List.find?_eq_none.mp found contact there
          exact absurd (beq_iff_eq.mpr same) absent
      | some other =>
          have key := List.find?_some found
          exact congrArg some (beq_iff_eq.mp key)

theorem mem_of_mem_contactOf {partner : Partner} {contact : Contact}
    (named : contact ∈ directory.contactOf partner) : contact ∈ directory.contacts := by
  obtain ⟨id, -, found⟩ := Option.bind_eq_some_iff.mp named
  exact List.mem_of_find?_eq_some found

end Directory

end PartnerSearch
