import Mathlib.Data.List.Nodup
import PartnerSearch.Directory.Store
import PartnerSearch.Proofs.Outcome
import PartnerSearch.Proofs.Text.Trimming

set_option autoImplicit false

/-!
Directories that calls lead to from the empty one. What a call that succeeds adds is one row at most,
and nothing else changes; so keys stay unique, references name what is there, and every stored value
is one that the directory accepts.
-/

namespace PartnerSearch

open Text (bytes isBlankText trim)

theorem Status.token_mem_vocabulary (status : Status) : status.token ∈ Status.vocabulary := by
  cases status <;> decide

theorem Binary64.isFinite_withoutNegativeZero {rating : Binary64} (finite : rating.isFinite = true) :
    rating.withoutNegativeZero.isFinite = true := by
  unfold withoutNegativeZero
  split
  · rfl
  · exact finite

/-- A partner as it is stored: a rating of zero has no sign. -/
def Partner.stored (partner : Partner) : Partner :=
  { partner with rating := Directory.storedRating partner.rating }

namespace Directory

/-- A call that writes, with its arguments. -/
inductive Write where
  | createContact (contact : Contact)
  | createPartner (partner : Partner)
  | addAttribute (partnerId text : String)

/-- Each call checks its arguments and then runs one insertion, so there is nothing to take back when it
is refused. -/
def perform (directory : Directory) : Write → Except WriteFault Directory
  | .createContact contact => directory.createContact contact
  | .createPartner partner => directory.createPartner partner
  | .addAttribute partnerId text => directory.addAttribute partnerId text

/-- The directory after a call; one that is refused leaves it as it was. -/
def after (directory : Directory) (write : Write) : Directory :=
  match directory.perform write with
  | .ok next => next
  | .error _ => directory

def afterAll (directory : Directory) (writes : List Write) : Directory :=
  writes.foldl after directory

/-- Calls lead to the directory from the empty one. -/
def Reachable (directory : Directory) : Prop := ∃ writes, empty.afterAll writes = directory

/-- What every allowed call that succeeds keeps holds after any allowed calls. -/
theorem afterAll_keeps {motive : Directory → Prop} {allowed : Write → Prop}
    (step : ∀ directory write next, allowed write → motive directory →
      directory.perform write = .ok next → motive next)
    {writes : List Write} (each : ∀ write ∈ writes, allowed write) {directory : Directory}
    (held : motive directory) : motive (directory.afterAll writes) := by
  induction writes generalizing directory with
  | nil => exact held
  | cons write rest ih =>
      obtain ⟨first, others⟩ := List.forall_mem_cons.mp each
      have kept : motive (directory.after write) := by
        unfold after
        split
        · rename_i next success
          exact step directory write next first held success
        · exact held
      exact ih others kept

/-- What holds of the empty directory and is kept by every call that succeeds holds of all that calls
lead to. -/
theorem Reachable.induction {motive : Directory → Prop} (start : motive empty)
    (step : ∀ directory write next, motive directory → directory.perform write = .ok next →
      motive next) {directory : Directory} (reachable : Reachable directory) : motive directory := by
  obtain ⟨writes, rfl⟩ := reachable
  have any_call : ∀ write ∈ writes, (fun _ : Write => True) write := fun _ _ => trivial
  exact afterAll_keeps (fun directory write next _ => step directory write next) any_call start

/-- The rows of the next directory: those of the one before, and the row that the call asks for unless it
is an attribute that is there already. -/
def Adds (directory : Directory) (next : Directory) : Write → Prop
  | .createContact contact => next = { directory with contacts := directory.contacts ++ [contact] }
  | .createPartner partner => next = { directory with partners := directory.partners ++ [partner.stored] }
  | .addAttribute partnerId text =>
    if ⟨partnerId, trim text⟩ ∈ directory.attributes then next = directory
    else next = { directory with attributes := directory.attributes ++ [⟨partnerId, trim text⟩] }

variable {directory next : Directory}

theorem createContact_ok {contact : Contact} (success : directory.createContact contact = .ok next) :
    isBlankText contact.name = false ∧ directory.hasContact contact.id = false ∧
      directory.Adds next (.createContact contact) := by
  obtain ⟨named, inserted⟩ := Outcome.refuse_eq_ok.mp success
  obtain ⟨_, _, stored⟩ := Outcome.bind_eq_ok.mp (Outcome.mapError_eq_ok.mp inserted)
  obtain ⟨fresh, same⟩ := Outcome.refuse_eq_ok.mp stored
  exact ⟨Bool.eq_false_iff.mpr named, Bool.eq_false_iff.mpr fresh, (Except.ok.inj same).symm⟩

theorem createPartner_ok {partner : Partner} (success : directory.createPartner partner = .ok next) :
    isBlankText partner.name = false ∧ (∀ rating ∈ partner.rating, rating.isFinite = true) ∧
      directory.hasPartner partner.id = false ∧
      directory.referenceHolds partner.contactId = true ∧
      directory.Adds next (.createPartner partner) := by
  obtain ⟨named, success⟩ := Outcome.refuse_eq_ok.mp success
  obtain ⟨finite, inserted⟩ := Outcome.refuse_eq_ok.mp success
  have steps := Outcome.mapError_eq_ok.mp inserted
  obtain ⟨_, _, steps⟩ := Outcome.bind_eq_ok.mp steps
  obtain ⟨_, _, steps⟩ := Outcome.bind_eq_ok.mp steps
  obtain ⟨fresh, stored⟩ := Outcome.refuse_eq_ok.mp steps
  split at stored
  · rename_i named_contact
    refine ⟨Bool.eq_false_iff.mpr named, ?_, Bool.eq_false_iff.mpr fresh, named_contact,
      (Except.ok.inj stored).symm⟩
    intro rating rated
    rw [Option.mem_def.mp rated] at finite
    simpa using finite
  · cases stored

theorem addAttribute_ok {partnerId text : String}
    (success : directory.addAttribute partnerId text = .ok next) :
    trim text ≠ "" ∧ (bytes (trim text)).length ≤ attributeLimit ∧
      (⟨partnerId, trim text⟩ ∉ directory.attributes → directory.hasPartner partnerId = true) ∧
      directory.Adds next (.addAttribute partnerId text) := by
  simp only [Directory.addAttribute, Outcome.refuse_eq_ok] at success
  obtain ⟨some_text, short, inserted⟩ := success
  have steps := Outcome.mapError_eq_ok.mp inserted
  obtain ⟨_, _, steps⟩ := Outcome.bind_eq_ok.mp steps
  obtain ⟨_, _, steps⟩ := Outcome.bind_eq_ok.mp steps
  have nonempty : trim text ≠ "" := by simpa using some_text
  refine ⟨nonempty, Nat.le_of_not_lt short, ?_⟩
  split at steps
  · rename_i there
    refine ⟨fun absent => absurd there absent, ?_⟩
    rw [Adds, if_pos there]
    exact (Except.ok.inj steps).symm
  · rename_i absent
    split at steps
    · rename_i known
      refine ⟨fun _ => known, ?_⟩
      rw [Adds, if_neg absent]
      exact (Except.ok.inj steps).symm
    · cases steps

/-- Whatever the call, it adds what it asks for. -/
theorem adds_of_perform {write : Write} (success : directory.perform write = .ok next) :
    directory.Adds next write := by
  cases write with
  | createContact contact =>
      rw [perform] at success
      exact (createContact_ok success).2.2
  | createPartner partner =>
      rw [perform] at success
      exact (createPartner_ok success).2.2.2.2
  | addAttribute partnerId text =>
      rw [perform] at success
      exact (addAttribute_ok success).2.2.2

/-- No call takes a table away. -/
theorem Reachable.intact (reachable : directory.Reachable) : directory.dropped = [] := by
  refine reachable.induction (motive := fun directory => directory.dropped = []) rfl ?_
  intro directory write next intact success
  have added := adds_of_perform success
  cases write with
  | createContact contact => exact added ▸ intact
  | createPartner partner => exact added ▸ intact
  | addAttribute partnerId text =>
      rw [Adds] at added
      split at added
      · exact added ▸ intact
      · exact added ▸ intact

/-- Keys are unique, references name what is there, and every value is one that may be stored. -/
structure WellFormed (directory : Directory) : Prop where
  contactIds : (directory.contacts.map Contact.id).Nodup
  partnerIds : (directory.partners.map Partner.id).Nodup
  contactThere : ∀ partner ∈ directory.partners, ∀ id ∈ partner.contactId,
    ∃ contact ∈ directory.contacts, contact.id = id
  partnerThere : ∀ entry ∈ directory.attributes,
    ∃ partner ∈ directory.partners, partner.id = entry.partnerId
  pairs : directory.attributes.Nodup
  contactNames : ∀ contact ∈ directory.contacts, trim contact.name ≠ ""
  partnerNames : ∀ partner ∈ directory.partners, trim partner.name ≠ ""
  statuses : ∀ partner ∈ directory.partners, partner.status.token ∈ Status.vocabulary
  ratings : ∀ partner ∈ directory.partners, ∀ rating ∈ partner.rating, rating.isFinite = true
  texts : ∀ entry ∈ directory.attributes, entry.text ≠ "" ∧ trim entry.text = entry.text ∧
    (bytes entry.text).length ≤ attributeLimit

theorem wellFormed_empty : WellFormed empty := by
  constructor <;> simp [empty]

theorem hasContact_iff {id : String} :
    directory.hasContact id = true ↔ ∃ contact ∈ directory.contacts, contact.id = id := by
  simp [hasContact]

theorem hasPartner_iff {id : String} :
    directory.hasPartner id = true ↔ ∃ partner ∈ directory.partners, partner.id = id := by
  simp [hasPartner]

/-- A record with a key of its own keeps the keys unique. -/
theorem nodup_keys_append {α : Type} {key : α → String} {records : List α} {record : α}
    (unique : (records.map key).Nodup) (fresh : ¬∃ other ∈ records, key other = key record) :
    ((records ++ [record]).map key).Nodup := by
  have absent : key record ∉ records.map key := by
    intro present
    exact fresh (List.mem_map.mp present)
  rw [List.map_append, List.map_singleton, ← List.concat_eq_append]
  exact List.Nodup.concat absent unique

theorem forall_mem_append_singleton {α : Type} {holds : α → Prop} {items : List α} {item : α}
    (before : ∀ other ∈ items, holds other) (here : holds item) :
    ∀ other ∈ items ++ [item], holds other := by
  intro other member
  rcases List.mem_append.mp member with earlier | last
  · exact before other earlier
  · rw [List.mem_singleton.mp last]
    exact here

theorem WellFormed.createContact {contact : Contact} (wellFormed : directory.WellFormed)
    (success : directory.createContact contact = .ok next) : next.WellFormed := by
  obtain ⟨named, fresh, rfl⟩ := createContact_ok success
  have absent := mt hasContact_iff.mpr (Bool.eq_false_iff.mp fresh)
  have name : trim contact.name ≠ "" := mt (Text.trim_eq_empty_iff _).mp (Bool.eq_false_iff.mp named)
  exact { wellFormed with
    contactIds := nodup_keys_append wellFormed.contactIds absent
    contactThere := by
      intro partner member id refers
      obtain ⟨other, there, same⟩ := wellFormed.contactThere partner member id refers
      exact ⟨other, List.mem_append_left _ there, same⟩
    contactNames := forall_mem_append_singleton wellFormed.contactNames name }

theorem WellFormed.createPartner {partner : Partner} (wellFormed : directory.WellFormed)
    (success : directory.createPartner partner = .ok next) : next.WellFormed := by
  obtain ⟨named, finite, fresh, refers, rfl⟩ := createPartner_ok success
  have absent := mt hasPartner_iff.mpr (Bool.eq_false_iff.mp fresh)
  have name : trim partner.name ≠ "" := mt (Text.trim_eq_empty_iff _).mp (Bool.eq_false_iff.mp named)
  exact { wellFormed with
    partnerIds := nodup_keys_append wellFormed.partnerIds absent
    contactThere := by
      refine forall_mem_append_singleton wellFormed.contactThere ?_
      intro id same
      have known : directory.hasContact id = true := by
        rw [referenceHolds, show partner.contactId = some id from same] at refers
        exact refers
      exact hasContact_iff.mp known
    partnerThere := by
      intro entry member
      obtain ⟨other, there, same⟩ := wellFormed.partnerThere entry member
      exact ⟨other, List.mem_append_left _ there, same⟩
    partnerNames := forall_mem_append_singleton wellFormed.partnerNames name
    statuses := fun other _ => other.status.token_mem_vocabulary
    ratings := by
      refine forall_mem_append_singleton wellFormed.ratings ?_
      intro rating stored
      obtain ⟨given, rated, rfl⟩ := Option.map_eq_some_iff.mp stored
      exact Binary64.isFinite_withoutNegativeZero (finite given rated) }

theorem WellFormed.addAttribute {partnerId text : String} (wellFormed : directory.WellFormed)
    (success : directory.addAttribute partnerId text = .ok next) : next.WellFormed := by
  obtain ⟨nonempty, short, known, added⟩ := addAttribute_ok success
  rw [Adds] at added
  split at added
  · rw [added]
    exact wellFormed
  · rename_i absent
    subst added
    exact { wellFormed with
      partnerThere := forall_mem_append_singleton wellFormed.partnerThere (hasPartner_iff.mp (known absent))
      pairs := by
        rw [← List.concat_eq_append]
        exact List.Nodup.concat absent wellFormed.pairs
      texts := forall_mem_append_singleton wellFormed.texts ⟨nonempty, Text.trim_trim text, short⟩ }

theorem WellFormed.perform {write : Write} (wellFormed : directory.WellFormed)
    (success : directory.perform write = .ok next) : next.WellFormed := by
  cases write with
  | createContact contact =>
      rw [Directory.perform] at success
      exact wellFormed.createContact success
  | createPartner partner =>
      rw [Directory.perform] at success
      exact wellFormed.createPartner success
  | addAttribute partnerId text =>
      rw [Directory.perform] at success
      exact wellFormed.addAttribute success

theorem Reachable.wellFormed (reachable : Reachable directory) : directory.WellFormed :=
  reachable.induction wellFormed_empty fun _ _ _ wellFormed success => wellFormed.perform success

theorem reachable_afterAll (writes : List Write) : Reachable (empty.afterAll writes) := ⟨writes, rfl⟩

theorem Reachable.after (reachable : Reachable directory) (write : Write) :
    Reachable (directory.after write) := by
  obtain ⟨writes, rfl⟩ := reachable
  refine ⟨writes ++ [write], ?_⟩
  rw [afterAll, List.foldl_append]
  rfl

theorem after_of_ok {write : Write} (success : directory.perform write = .ok next) :
    directory.after write = next := by
  rw [after, success]

theorem after_of_error {write : Write} {fault : WriteFault}
    (failed : directory.perform write = .error fault) : directory.after write = directory := by
  rw [after, failed]

/-- After any calls the directory is well formed. A further call that fails leaves it as it was; one that
succeeds adds the row that it asks for, or nothing for an attribute that is there already. -/
theorem afterAll_wellFormed (writes : List Write) (write : Write) :
    (empty.afterAll writes).WellFormed ∧
      (∀ fault, (empty.afterAll writes).perform write = .error fault →
        (empty.afterAll writes).after write = empty.afterAll writes) ∧
      ∀ next, (empty.afterAll writes).perform write = .ok next →
        (empty.afterAll writes).after write = next ∧ (empty.afterAll writes).Adds next write := by
  refine ⟨(reachable_afterAll writes).wellFormed, ?_, ?_⟩
  · intro fault failed
    exact after_of_error failed
  · intro next success
    exact ⟨after_of_ok success, adds_of_perform success⟩

/-- A partner rated with negative zero. -/
def ratedNegativeZero : Partner :=
  ⟨"p1", "Acme", .active, 3, some (.zero true), true, none, none, 0⟩

theorem afterAll_wellFormed_attribute :
    let directory := empty.afterAll [.createPartner ratedNegativeZero]
    directory.WellFormed ∧
      directory.perform (.addAttribute "p1" " gold ") =
        .ok { directory with attributes := [⟨"p1", "gold"⟩] } ∧
      directory.Adds { directory with attributes := [⟨"p1", "gold"⟩] }
        (.addAttribute "p1" " gold ") := by
  intro directory
  have success : directory.perform (.addAttribute "p1" " gold ") =
      .ok { directory with attributes := [⟨"p1", "gold"⟩] } := by decide
  have held := afterAll_wellFormed [.createPartner ratedNegativeZero] (.addAttribute "p1" " gold ")
  exact ⟨held.1, success, (held.2.2 _ success).2⟩

/-- A row does not always have the arguments of its call: negative zero is stored as zero. -/
theorem stored_without_sign :
    ¬∀ writes partner next, (empty.afterAll writes).perform (.createPartner partner) = .ok next →
      next.partners = (empty.afterAll writes).partners ++ [partner] := by
  intro same
  have stored := same [] ratedNegativeZero ⟨[], [ratedNegativeZero.stored], [], []⟩ (by decide)
  exact absurd stored (by decide)

end Directory

end PartnerSearch
