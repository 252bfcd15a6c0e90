import PartnerSearch.Proofs.Directory.AttributeSet

set_option autoImplicit false

/-!
The limit on attributes. It counts the bytes of the trimmed text; what is within it is shown by the
details and found by a search, and what is not is refused. For a text of ASCII characters the bytes are
the characters, for any other there are more of them.
-/

namespace PartnerSearch.Directory

open Text (bytes trim)

variable {directory next : Directory} {partner : Partner} {text : String}

/-- The partner has an attribute, as its details and a search tell. -/
structure Shows (directory : Directory) (partner : Partner) (text : String) : Prop where
  listed : ∃ details, directory.details? partner.id = .ok (some details) ∧ text ∈ details.attributes
  runs : directory.Runs registry (only (test "attributes.attribute" .equals [text]))
  found : partner ∈ directory.listed (test "attributes.attribute" .equals [text])

/-- An attribute of a partner that is there is stored, if no table is missing. -/
theorem exists_insertAttribute (intact : directory.dropped = [])
    (stored : partner ∈ directory.partners) (text : String) :
    ∃ next, directory.insertAttribute ⟨partner.id, text⟩ = .ok next := by
  have known : directory.hasPartner partner.id = true := hasPartner_iff.mpr ⟨partner, stored, rfl⟩
  have referenced : directory.requireReferenced .partners = .ok () := by
    rw [requireReferenced, intact]
    rfl
  rw [insertAttribute, requireTables_of_intact intact, referenced]
  by_cases there : ⟨partner.id, text⟩ ∈ directory.attributes
  · exact ⟨directory, by simp [there, bind, Except.bind, pure, Except.pure]⟩
  · refine ⟨{ directory with attributes := directory.attributes ++ [⟨partner.id, text⟩] }, ?_⟩
    simp [there, known, bind, Except.bind, pure, Except.pure]

theorem addAttribute_empty (partnerId : String) (empty : trim text = "") :
    directory.addAttribute partnerId text = .error .attributeEmpty := by
  simp [addAttribute, empty]

theorem addAttribute_tooLong (partnerId : String) (long : attributeLimit < (bytes (trim text)).length) :
    directory.addAttribute partnerId text = .error .attributeTooLong := by
  have nonempty : (trim text).isEmpty = false := by
    rw [String.isEmpty_eq_false_iff]
    intro empty
    rw [empty] at long
    exact absurd long (by decide)
  rw [addAttribute, nonempty, if_neg Bool.false_ne_true, if_pos long]

theorem exists_addAttribute (intact : directory.dropped = []) (stored : partner ∈ directory.partners)
    (nonempty : trim text ≠ "") (short : (bytes (trim text)).length ≤ attributeLimit) :
    ∃ next, directory.addAttribute partner.id text = .ok next := by
  obtain ⟨next, inserted⟩ := exists_insertAttribute intact stored (trim text)
  refine ⟨next, ?_⟩
  rw [addAttribute, if_neg (by simpa using nonempty), if_neg (by omega), inserted]
  rfl

/-- What has been added is there for all to see. -/
theorem shows_of_addAttribute (reachable : directory.Reachable) (stored : partner ∈ directory.partners)
    (success : directory.addAttribute partner.id text = .ok next) : next.Shows partner (trim text) := by
  have performed : directory.perform (.addAttribute partner.id text) = .ok next := success
  have later : next.Reachable := after_of_ok performed ▸ reachable.after _
  have gains := (adds_of_perform performed).gains
  have still : partner ∈ next.partners := by
    rw [gains.rest]
    exact stored
  have has : trim text ∈ next.attributesOf partner.id :=
    mem_attributesOf.mpr ((gains.attributes _).mpr (.inr List.mem_cons_self))
  have tells := tells_attribute later.intact still (trim text)
  exact ⟨⟨_, details?_stored later.intact later.wellFormed.partnerIds still, has⟩, tells.1,
    tells.2.mpr has⟩

/-- The call that adds the text to the partner succeeds. -/
def Accepts (directory : Directory) (partner : Partner) (text : String) : Prop :=
  ∃ next, directory.addAttribute partner.id text = .ok next

theorem accepts_iff (intact : directory.dropped = []) (stored : partner ∈ directory.partners) :
    directory.Accepts partner text ↔
      1 ≤ (trim text).length ∧ (bytes (trim text)).length ≤ attributeLimit := by
  have positive : 1 ≤ (trim text).length ↔ trim text ≠ "" := by
    rw [Nat.one_le_iff_ne_zero, ne_eq, String.length_eq_zero_iff]
  rw [positive]
  constructor
  · intro accepted
    obtain ⟨next, success⟩ := accepted
    obtain ⟨nonempty, short, -⟩ := addAttribute_ok success
    exact ⟨nonempty, short⟩
  · intro fits
    exact exists_addAttribute intact stored fits.1 fits.2

/-- In every directory that calls lead to, a text can be added to a partner exactly if it is not blank and
its trimmed form has no more bytes than the limit. What was added is shown; what is refused, as every text
with more characters than the limit is, changes nothing. The limit might as well count characters but for
texts that are within it in characters and beyond it in bytes; of ASCII there are none. -/
theorem attribute_limit (reachable : directory.Reachable) (stored : partner ∈ directory.partners)
    (text : String) :
    (directory.Accepts partner text ↔
      1 ≤ (trim text).length ∧ (bytes (trim text)).length ≤ attributeLimit) ∧
    (∀ next, directory.addAttribute partner.id text = .ok next → next.Shows partner (trim text)) ∧
    (trim text = "" → directory.addAttribute partner.id text = .error .attributeEmpty) ∧
    (attributeLimit < (trim text).length →
      directory.addAttribute partner.id text = .error .attributeTooLong) ∧
    (∀ fault, directory.addAttribute partner.id text = .error fault →
      directory.after (.addAttribute partner.id text) = directory) ∧
    ((directory.Accepts partner text ↔
        1 ≤ (trim text).length ∧ (trim text).length ≤ attributeLimit) ↔
      ¬((trim text).length ≤ attributeLimit ∧ attributeLimit < (bytes (trim text)).length)) ∧
    ((∀ c ∈ (trim text).toList, c.toNat < 0x80) →
      (bytes (trim text)).length = (trim text).length) := by
  have accepted := @accepts_iff directory partner text reachable.intact stored
  have more : (trim text).length ≤ (bytes (trim text)).length := by
    rw [Text.bytes_eq_utf8, ← String.length_toList]
    exact Text.length_le_length_utf8 _
  refine ⟨accepted, fun next => shows_of_addAttribute reachable stored, addAttribute_empty _, ?long,
    ?refused, ?exact, ?ascii⟩
  case long =>
    intro long
    exact addAttribute_tooLong _ (by omega)
  case refused =>
    intro fault failed
    have performed : directory.perform (.addAttribute partner.id text) = .error fault := failed
    exact after_of_error performed
  case exact =>
    have positive : attributeLimit < (bytes (trim text)).length → 1 ≤ (trim text).length := by
      intro long
      apply Nat.one_le_iff_ne_zero.mpr
      intro none
      rw [String.length_eq_zero_iff.mp none] at long
      exact absurd long (by decide)
    rw [accepted]
    omega
  case ascii =>
    intro ascii
    rw [Text.bytes_eq_utf8, Text.length_utf8_of_ascii ascii, String.length_toList]

/-- Letters that take two bytes each. -/
def accented (count : Nat) : String := String.ofList (List.replicate count 'é')

theorem attribute_limit_accented :
    let text := "\t" ++ accented 25 ++ " "
    ∃ partner ∈ sample.partners, ∃ next, sample.addAttribute partner.id text = .ok next ∧
      next.Shows partner (accented 25) := by
  intro text
  have trimmed : trim text = accented 25 := by decide +kernel
  have stored : ⟨"p1", "Acme", .active, 3, none, true, none, some "c1", 0⟩ ∈ sample.partners :=
    List.mem_cons_self
  obtain ⟨added, shown, -⟩ := attribute_limit reachable_sample stored text
  rw [trimmed] at added shown
  obtain ⟨next, success⟩ := added.mpr ⟨by decide +kernel, by decide +kernel⟩
  exact ⟨_, stored, next, success, shown next success⟩

/-- One more of them is within the limit in characters and beyond it in bytes. -/
theorem attribute_limit_bytes :
    sample.Reachable ∧ ∃ partner ∈ sample.partners,
      (trim (accented 26)).length = 26 ∧ 26 ≤ attributeLimit ∧
      sample.addAttribute partner.id (accented 26) = .error .attributeTooLong := by
  refine ⟨reachable_sample, _, List.mem_cons_self, ?_⟩
  exact ⟨by decide +kernel, by decide, by decide +kernel⟩

end PartnerSearch.Directory
