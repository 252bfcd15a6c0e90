import PartnerSearch.Proofs.Directory.Identity
import PartnerSearch.Proofs.Directory.Operators
import PartnerSearch.Proofs.Directory.Ordering
import PartnerSearch.Proofs.Directory.Related
import PartnerSearch.Proofs.Uuid.Spelling

set_option autoImplicit false

/-!
What the details of a partner say and what searches tell of it. The details look its references up;
a search follows them as joins. Both see the same contact and the same attributes.
-/

namespace PartnerSearch.Directory

open Sql
open Text (bytes bytes_lt_bytes)

variable {directory : Directory} {partner : Partner}

/-- The details are of that partner, with the contact that it names and all its attributes in
ascending order. -/
structure Describes (directory : Directory) (details : PartnerDetails) (partner : Partner) :
    Prop where
  row : details.partner = partner
  contactId : details.contact.map Contact.id = partner.contactId
  contactThere : ∀ contact ∈ details.contact, contact ∈ directory.contacts
  ordered : details.attributes.Pairwise fun a b => bytes a < bytes b
  attributes : ∀ text, text ∈ details.attributes ↔ ⟨partner.id, text⟩ ∈ directory.attributes

def detailsOf (directory : Directory) (partner : Partner) : PartnerDetails :=
  ⟨partner, directory.contactOf partner, directory.attributesOf partner.id⟩

theorem find?_partner (unique : (directory.partners.map Partner.id).Nodup)
    (stored : partner ∈ directory.partners) :
    directory.partners.find? (fun other => other.id == partner.id) = some partner := by
  have found := filter_key_eq_toList unique partner.id
  have member : partner ∈ directory.partners.filter fun other => other.id == partner.id := by
    simp [stored]
  rw [found] at member
  exact Option.mem_toList.mp member

theorem details?_intact (intact : directory.dropped = []) (id : String) :
    directory.details? id =
      .ok ((directory.partners.find? fun partner => partner.id == id).map directory.detailsOf) := by
  have got : directory.get? id =
      .ok (directory.partners.find? fun partner => partner.id == id) := by
    rw [get?, requireTables_of_intact intact]
    rfl
  rw [details?, got]
  cases directory.partners.find? fun partner => partner.id == id with
  | none => rfl
  | some partner =>
      simp only [contactOf?_intact intact, requireTables_of_intact intact]
      rfl

theorem details?_stored (intact : directory.dropped = [])
    (unique : (directory.partners.map Partner.id).Nodup) (stored : partner ∈ directory.partners) :
    directory.details? partner.id = .ok (some (directory.detailsOf partner)) := by
  rw [details?_intact intact, find?_partner unique stored, Option.map_some]

theorem mem_attributesOf {id text : String} :
    text ∈ directory.attributesOf id ↔ ⟨id, text⟩ ∈ directory.attributes := by
  rw [attributesOf, (ordered_perm _ _).mem_iff, List.mem_map]
  constructor
  · intro listed
    obtain ⟨entry, member, rfl⟩ := listed
    obtain ⟨there, same⟩ := List.mem_filter.mp member
    exact beq_iff_eq.mp same ▸ there
  · intro there
    exact ⟨⟨id, text⟩, List.mem_filter.mpr ⟨there, beq_self_eq_true id⟩, rfl⟩

theorem attributesOf_eq_nil {id : String} :
    directory.attributesOf id = [] ↔
      directory.attributes.filter (fun entry => entry.partnerId == id) = [] := by
  rw [attributesOf, ← List.length_eq_zero_iff, (ordered_perm _ _).length_eq, List.length_map,
    List.length_eq_zero_iff]

/-- Attributes of one partner have different texts. -/
theorem attributesOf_pairwise (pairs : directory.attributes.Nodup) (id : String) :
    (directory.attributesOf id).Pairwise fun a b => bytes a < bytes b := by
  have transitive (a b c : String) (first : decide (a < b) = true) (second : decide (b < c) = true) :
      decide (a < c) = true :=
    decide_eq_true (lt_trans (of_decide_eq_true first) (of_decide_eq_true second))
  have distinct : ((directory.attributes.filter fun entry => entry.partnerId == id).map
      Attribute.text).Nodup := by
    refine List.Nodup.map_on ?_ (pairs.filter _)
    intro entry member other among same
    have own := beq_iff_eq.mp (List.mem_filter.mp member).2
    have others := beq_iff_eq.mp (List.mem_filter.mp among).2
    cases entry
    cases other
    exact congrArg₂ Attribute.mk (own.trans others.symm) same
  have comparable := distinct.imp fun {a b : String} (differ : a ≠ b) =>
    (lt_or_gt_of_ne differ).imp (decide_eq_true (p := a < b)) (decide_eq_true (p := b < a))
  exact (ordered_pairwise transitive comparable).imp fun earlier =>
    bytes_lt_bytes.mpr (of_decide_eq_true earlier)

theorem describes_detailsOf (wellFormed : directory.WellFormed)
    (stored : partner ∈ directory.partners) :
    directory.Describes (directory.detailsOf partner) partner where
  row := rfl
  contactId := wellFormed.id_contactOf stored
  contactThere := fun _ => mem_of_mem_contactOf
  ordered := attributesOf_pairwise wellFormed.pairs partner.id
  attributes := fun _ => mem_attributesOf

/-- The clause is not refused, and it lists the partner exactly if `fact`. -/
def Tells (directory : Directory) (partner : Partner) (clause : Clause) (fact : Prop) : Prop :=
  directory.Runs registry (only clause) ∧ (partner ∈ directory.listed clause ↔ fact)

theorem Selects.tells {clause : Clause} {holds : Partner → Prop}
    (selects : directory.Selects clause holds) (stored : partner ∈ directory.partners) :
    directory.Tells partner clause (holds partner) :=
  ⟨selects.1, (selects.mem_iff partner).trans (and_iff_right stored)⟩

theorem Tells.congr {clause : Clause} {fact other : Prop} (tells : directory.Tells partner clause fact)
    (same : fact ↔ other) : directory.Tells partner clause other :=
  ⟨tells.1, tells.2.trans same⟩

/-- What searches tell of a partner with these details: each member of them is asked for by a filter. -/
structure Told (directory : Directory) (details : PartnerDetails) : Prop where
  attributeText : ∀ text, directory.Tells details.partner (test "attributes.attribute" .equals [text])
    (text ∈ details.attributes)
  noAttributes : directory.Tells details.partner (test "attributes" .notSet [])
    (details.attributes = [])
  contact : directory.Tells details.partner (test "contact" .set []) (details.contact.isSome = true)
  contactName : ∀ text, directory.Tells details.partner (test "contact.name" .equals [text])
    (∃ contact ∈ details.contact, contact.name = text)
  contactEmail : ∀ text, directory.Tells details.partner (test "contact.email" .equals [text])
    (∃ contact ∈ details.contact, contact.email = some text)
  contactCountry : ∀ text, directory.Tells details.partner (test "contact.country" .equals [text])
    (∃ contact ∈ details.contact, contact.country = some text)
  noCountry : directory.Tells details.partner (test "contact.country" .notSet [])
    (details.contact = none ∨ ∃ contact ∈ details.contact, contact.country = none)

section Contact

/-- A text of the contact of a partner is the cell at the end of a path over the contact. -/
theorem reading_contact (unique : (directory.contacts.map Contact.id).Nodup) {column : String}
    {field : Contact → Option String}
    (stored : ∀ contact : Contact, contact.row column = .ofText? (field contact))
    (member : String) (type : FieldType) (partner : Partner) :
    ColumnPath.reading directory.tables partner.row ⟨member, [contactHop], column, type⟩ =
      .ofText? ((directory.contactOf partner).bind field) := by
  rw [ColumnPath.reading, Hop.reach_single, related_contact unique]
  cases directory.contactOf partner with
  | none => rfl
  | some contact => exact stored contact

variable (intact : directory.dropped = []) (unique : (directory.contacts.map Contact.id).Nodup)
  (there : partner ∈ directory.partners) {member column : String}
  (resolved : resolve schema root member = .ok (.column ⟨member, [contactHop], column, .text⟩))
  {field : Contact → Option String}
  (stored : ∀ contact : Contact, contact.row column = .ofText? (field contact))

include intact unique there resolved stored

theorem tells_contact_text (text : String) :
    directory.Tells partner (test member .equals [text])
      (∃ contact ∈ directory.contactOf partner, field contact = some text) := by
  have converted : Strategy.text.convert member text = .ok (.text text) := rfl
  have selects := selects_direct resolved rfl intact rfl .equals rfl rfl converted
  refine (selects.tells there).congr ?_
  rw [reading_contact unique stored]
  exact Cell.holds_equal_text.trans (Cell.ofText?_eq_text.trans Option.bind_eq_some_iff)

theorem tells_contact_unset :
    directory.Tells partner (test member .notSet [])
      (directory.contactOf partner = none ∨
        ∃ contact ∈ directory.contactOf partner, field contact = none) := by
  have registered : registry.find? .text = some .text := rfl
  have selects : directory.Selects (test member .notSet []) _ :=
    selects_column resolved registered .notSet intact rfl rfl rfl (Nat.zero_le _) rfl
  refine (selects.tells there).congr ?_
  rw [ColumnPath.truth_of_direct rfl, reading_contact unique stored]
  cases directory.contactOf partner with
  | none => simp [satisfies, Cell.ofText?, Truth.holds]
  | some contact => simp [satisfies, Truth.holds_some, Cell.ofText?_eq_null]

end Contact

section Relations

variable (intact : directory.dropped = []) (there : partner ∈ directory.partners)

include intact there

theorem tells_relation {member : String} {hop : Hop}
    (resolved : resolve schema root member = .ok (.relation ⟨member, [hop]⟩)) :
    directory.Tells partner (test member .set []) (hop.related directory.tables partner.row ≠ []) ∧
      directory.Tells partner (test member .notSet [])
        (hop.related directory.tables partner.row = []) := by
  obtain ⟨present, absent⟩ := selects_relation intact resolved []
  simp only [Hop.reach_single] at present absent
  exact ⟨present.tells there, absent.tells there⟩

theorem tells_attribute (text : String) :
    directory.Tells partner (test "attributes.attribute" .equals [text])
      (text ∈ directory.attributesOf partner.id) := by
  have resolved : resolve schema root "attributes.attribute" = .ok
      (.column ⟨"attributes.attribute", [attributesHop], "attribute", .text⟩) := by
    decide +kernel
  have converted : Strategy.text.convert "attributes.attribute" text = .ok (.text text) := rfl
  have selects := selects_comparison resolved rfl .equals intact rfl rfl converted
  refine (selects.tells there).congr ?_
  have equal (entry : Attribute) :
      (satisfies (.compare .equal (.text text)) (entry.row "attribute")).holds = true ↔
        entry.text = text :=
    Cell.holds_equal_texts
  have quantified : ColumnPath.isQuantified
      ⟨"attributes.attribute", [attributesHop], "attribute", .text⟩ = true := rfl
  rw [mem_attributesOf, ColumnPath.truth, quantified, if_pos rfl, Truth.holds_some,
    Hop.reach_single, related_attributes, List.any_map, List.any_eq_true]
  simp only [Function.comp_apply, equal, List.mem_filter, beq_iff_eq]
  constructor
  · intro listed
    obtain ⟨entry, ⟨member, own⟩, rfl⟩ := listed
    exact own ▸ member
  · intro member
    exact ⟨⟨partner.id, text⟩, ⟨member, rfl⟩, rfl⟩

end Relations

theorem resolve_id : resolve schema root "id" = .ok (.column ⟨"id", [], "id", .uuid⟩) := by
  decide +kernel

/-- A filter on the id compares it with the canonical text of the UUID that the value stands for. -/
theorem selects_id (intact : directory.dropped = []) {uuid : Uuid} {raw : String}
    (denotes : Uuid.Denotes raw uuid) :
    directory.Selects (test "id" .equals [raw]) (fun partner => partner.id = uuid.text) ∧
      directory.Selects (test "id" .notEquals [raw]) fun partner => partner.id ≠ uuid.text := by
  have converted : Strategy.uuid.convert "id" raw = .ok (.text uuid.text) :=
    Strategy.convert_uuid_eq_ok denotes
  have equal := selects_direct resolve_id rfl intact rfl .equals rfl rfl converted
  have differs := selects_direct resolve_id rfl intact rfl .notEquals rfl rfl converted
  have same (partner : Partner) : (compare .equal
      (ColumnPath.reading directory.tables partner.row ⟨"id", [], "id", .uuid⟩)
      (.ofValue (.text uuid.text))).holds = true ↔ partner.id = uuid.text :=
    Cell.holds_equal_texts
  refine ⟨equal.congr same, differs.congr fun partner => ?_⟩
  rw [holds_notEqual (Strategy.set_of_convert converted), ne_eq, ← holds_equal, same]

/-- A partner is listed alone for its id, if the id is the text of a UUID. -/
theorem lists_id (intact : directory.dropped = [])
    (unique : (directory.partners.map Partner.id).Nodup) (stored : partner ∈ directory.partners)
    {uuid : Uuid} (drawn : partner.id = uuid.text) :
    directory.Lists (test "id" .equals [partner.id]) {partner} := by
  have selects := (selects_id intact (drawn ▸ uuid.denotes_text)).1
  refine ⟨selects.1, Set.ext fun other => ?_⟩
  rw [selects.mem_iff, Set.mem_singleton_iff, ← drawn]
  constructor
  · intro both
    obtain ⟨there, same⟩ := both
    exact List.inj_on_of_nodup_map unique there stored same
  · intro same
    subst same
    exact ⟨stored, rfl⟩

theorem told_detailsOf (intact : directory.dropped = []) (wellFormed : directory.WellFormed)
    (stored : partner ∈ directory.partners) : directory.Told (directory.detailsOf partner) := by
  have unique := wellFormed.contactIds
  have contact : resolve schema root "contact" = .ok (.relation ⟨"contact", [contactHop]⟩) := by
    decide +kernel
  have attributes : resolve schema root "attributes" =
      .ok (.relation ⟨"attributes", [attributesHop]⟩) := by
    decide +kernel
  have name : resolve schema root "contact.name" =
      .ok (.column ⟨"contact.name", [contactHop], "name", .text⟩) := by
    decide +kernel
  have email : resolve schema root "contact.email" =
      .ok (.column ⟨"contact.email", [contactHop], "email", .text⟩) := by
    decide +kernel
  have country : resolve schema root "contact.country" =
      .ok (.column ⟨"contact.country", [contactHop], "country", .text⟩) := by
    decide +kernel
  exact {
    attributeText := tells_attribute intact stored
    noAttributes := by
      refine (tells_relation intact stored attributes).2.congr ?_
      rw [related_attributes, List.map_eq_nil_iff, ← attributesOf_eq_nil]
      rfl
    contact := by
      refine (tells_relation intact stored contact).1.congr ?_
      rw [related_contact unique, ne_eq, Option.toList_eq_nil_iff, Option.map_eq_none_iff]
      exact Option.ne_none_iff_isSome
    contactName := by
      intro text
      have named (contact : Contact) : contact.row "name" = .ofText? (some contact.name) := rfl
      have tells := tells_contact_text intact unique stored name named text
      simp only [Option.some.injEq] at tells
      exact tells
    contactEmail := tells_contact_text intact unique stored email fun _ => rfl
    contactCountry := tells_contact_text intact unique stored country fun _ => rfl
    noCountry := tells_contact_unset intact unique stored country fun _ => rfl }

/-- Searches and details agree. In a directory that calls lead to, which draw the ids of what they
create, the details of every partner are found by its id; they describe the partner, filters on their
members tell the same of it, and its id lists it alone. -/
theorem search_agrees_with_details (drawn : directory.Drawn)
    (stored : partner ∈ directory.partners) :
    (∃ details, directory.details? partner.id = .ok (some details) ∧
      directory.Describes details partner ∧ directory.Told details) ∧
      directory.Lists (test "id" .equals [partner.id]) {partner} := by
  have intact := drawn.reachable.intact
  have wellFormed := drawn.reachable.wellFormed
  obtain ⟨uuid, own⟩ := drawn.hasDrawnIds.partners partner stored
  exact ⟨⟨_, details?_stored intact wellFormed.partnerIds stored,
    describes_detailsOf wellFormed stored, told_detailsOf intact wellFormed stored⟩,
    lists_id intact wellFormed.partnerIds stored own⟩

/-- A contact, a partner that names it, and the calls that create both with two attributes. -/
def visitedContact : Contact := ⟨(Uuid.mk 1).text, "Zoë", none, some "DE"⟩

def visited : Partner :=
  ⟨(Uuid.mk 2).text, "Acme", .active, 3, none, true, none, some visitedContact.id, 0⟩

def visits : List Write :=
  [.createContact visitedContact, .createPartner visited, .addAttribute visited.id "silver",
    .addAttribute visited.id " gold "]

theorem search_agrees_with_details_visited :
    visited ∈ (empty.afterAll visits).partners ∧
      (empty.afterAll visits).details? visited.id =
        .ok (some ⟨visited, some visitedContact, ["gold", "silver"]⟩) ∧
      visited ∈ (empty.afterAll visits).listed (test "attributes.attribute" .equals ["gold"]) ∧
      visited ∉ (empty.afterAll visits).listed (test "contact.country" .equals ["de"]) ∧
      (empty.afterAll visits).Lists (test "id" .equals [visited.id]) {visited} := by
  have draws : ∀ write ∈ visits, write.DrawsId := by
    simp only [visits, List.forall_mem_cons]
    exact ⟨⟨_, rfl⟩, ⟨_, rfl⟩, trivial, trivial, nofun⟩
  have stored : visited ∈ (empty.afterAll visits).partners := by decide +kernel
  have looked : (empty.afterAll visits).details? visited.id =
      .ok (some ⟨visited, some visitedContact, ["gold", "silver"]⟩) := by
    decide +kernel
  obtain ⟨⟨details, found, -, told⟩, alone⟩ :=
    search_agrees_with_details ⟨visits, draws, rfl⟩ stored
  cases looked.symm.trans found
  refine ⟨stored, looked, (told.attributeText "gold").2.mpr List.mem_cons_self, ?_, alone⟩
  rw [(told.contactCountry "de").2]
  simp [visitedContact]

end PartnerSearch.Directory
