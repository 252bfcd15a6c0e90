import PartnerSearch.Directory.Store
import PartnerSearch.Proofs.Sql.Meaning
import PartnerSearch.Proofs.Sql.WellFormed

set_option autoImplicit false

/-!
The tables of a directory. Their names are plain, and an object is found by its key, so that there
is one at most.
-/

namespace PartnerSearch.Directory

open Sql

theorem forall_position {motive : Fin schema.size → Prop} (partner : motive partnerPosition)
    (contact : motive contactPosition) (entry : motive attributePosition) :
    ∀ position, motive position
  | (0 : Fin 3) => partner
  | (1 : Fin 3) => contact
  | (2 : Fin 3) => entry

theorem plain_schema : schema.IsPlain := by
  apply forall_position
  · decide +kernel
  · decide +kernel
  · decide +kernel

theorem eq_of_equal_text {text : String} {cell : Cell}
    (equal : ((Cell.text text).equal cell).holds = true) : cell = .text text := by
  cases cell with
  | null => cases equal
  | integer value => cases equal
  | real value => cases equal
  | text other =>
      have same : text = other := by
        simpa [Cell.equal, Cell.order?, Truth.holds, compareOfLessAndEq_eq_eq] using equal
      rw [same]

/-- No two records of a table with unique keys have the same cell for a key. -/
theorem length_filter_key {α : Type} (row : α → Row) (key : α → String) {records : List α}
    (stored : ∀ entry, row entry "id" = .text (key entry)) (unique : (records.map key).Nodup)
    (cell : Cell) :
    ((records.map row).filter fun other => ((other "id").equal cell).holds).length ≤ 1 := by
  have same : ∀ entry, ((row entry "id").equal cell).holds = true → cell = .text (key entry) := by
    intro entry equal
    rw [stored] at equal
    exact eq_of_equal_text equal
  rw [← List.countP_eq_length_filter, List.countP_map]
  by_cases some_text : ∃ text, cell = .text text
  · obtain ⟨text, rfl⟩ := some_text
    have few := List.nodup_iff_count.mp unique text
    rw [List.count, List.countP_map] at few
    refine Nat.le_trans (List.countP_mono_left ?_) few
    intro entry _ equal
    have equal := Cell.text.inj (same entry equal)
    simpa using equal.symm
  · refine Nat.le_trans (Nat.le_of_eq (List.countP_eq_zero.mpr ?_)) (Nat.zero_le 1)
    intro entry _ equal
    exact some_text ⟨key entry, same entry equal⟩

/-- Contacts and partners have keys of their own. -/
def UniqueKeys (directory : Directory) : Prop :=
  (directory.contacts.map Contact.id).Nodup ∧ (directory.partners.map Partner.id).Nodup

theorem object_of_partner {name : String} {target : Fin 3} {join : Join}
    (declared : .relation name target .one join ∈ partnerEntity.fields) :
    name = "contact" ∧ target = contactPosition ∧ join = ⟨"contact_id", "id"⟩ := by
  simpa [partnerEntity] using declared

theorem object_of_attribute {name : String} {target : Fin 3} {join : Join}
    (declared : .relation name target .one join ∈ attributeEntity.fields) :
    name = "partner" ∧ target = partnerPosition ∧ join = ⟨"partner_id", "id"⟩ := by
  simpa [attributeEntity] using declared

theorem no_object_of_contact {name : String} {target : Fin 3} {join : Join} :
    .relation name target .one join ∉ contactEntity.fields := by
  simp [contactEntity]

/-- Keys make the objects of a directory single. -/
theorem singleObjects {directory : Directory} (unique : directory.UniqueKeys) :
    schema.SingleObjects directory.tables := by
  apply forall_position
  · intro name target join declared row _
    obtain ⟨rfl, rfl, rfl⟩ := object_of_partner declared
    exact length_filter_key Contact.row Contact.id (fun _ => rfl) unique.1 (row "contact_id")
  · intro name target join declared
    exact absurd declared no_object_of_contact
  · intro name target join declared row _
    obtain ⟨rfl, rfl, rfl⟩ := object_of_attribute declared
    exact length_filter_key Partner.row Partner.id (fun _ => rfl) unique.2 (row "partner_id")

end PartnerSearch.Directory
