import PartnerSearch.Proofs.Directory.Reachable
import PartnerSearch.Uuid

set_option autoImplicit false

/-!
The ids of records. A directory draws a UUID for every contact and partner that it creates, so that all
ids are canonical texts of UUIDs.
-/

namespace PartnerSearch.Directory

/-- A record that the call creates gets the text of a UUID for its id. -/
def Write.DrawsId : Write → Prop
  | .createContact contact => ∃ uuid : Uuid, contact.id = uuid.text
  | .createPartner partner => ∃ uuid : Uuid, partner.id = uuid.text
  | .addAttribute _ _ => True

/-- Calls that draw their ids lead to the directory from the empty one. -/
def Drawn (directory : Directory) : Prop :=
  ∃ writes : List Write, (∀ write ∈ writes, write.DrawsId) ∧ empty.afterAll writes = directory

structure HasDrawnIds (directory : Directory) : Prop where
  contacts : ∀ contact ∈ directory.contacts, ∃ uuid : Uuid, contact.id = uuid.text
  partners : ∀ partner ∈ directory.partners, ∃ uuid : Uuid, partner.id = uuid.text

variable {directory next : Directory}

theorem Drawn.reachable (drawn : directory.Drawn) : directory.Reachable := by
  obtain ⟨writes, -, same⟩ := drawn
  exact ⟨writes, same⟩

theorem HasDrawnIds.perform {write : Write} (ids : directory.HasDrawnIds) (draws : write.DrawsId)
    (success : directory.perform write = .ok next) : next.HasDrawnIds := by
  have added := adds_of_perform success
  cases write with
  | createContact contact =>
      rw [Adds] at added
      subst added
      exact ⟨forall_mem_append_singleton ids.contacts draws, ids.partners⟩
  | createPartner partner =>
      rw [Adds] at added
      subst added
      exact ⟨ids.contacts, forall_mem_append_singleton ids.partners draws⟩
  | addAttribute partnerId text =>
      rw [Adds] at added
      split at added
      · exact added ▸ ids
      · exact added ▸ ⟨ids.contacts, ids.partners⟩

theorem Drawn.hasDrawnIds (drawn : directory.Drawn) : directory.HasDrawnIds := by
  obtain ⟨writes, draw, rfl⟩ := drawn
  have start : empty.HasDrawnIds := ⟨nofun, nofun⟩
  exact afterAll_keeps (fun _ _ _ draws ids success => ids.perform draws success) draw start

end PartnerSearch.Directory
