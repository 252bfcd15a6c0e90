import PartnerSearch.Json.Expansion
import PartnerSearch.Proofs.Json.Layers

set_option autoImplicit false

/-!
Values without embedded documents. They are what is read from bytes and what an expansion leaves, and
an expansion leaves them as they are.
-/

namespace PartnerSearch.Json

open Text (Bytes bytes)

/-- No object in the value stands for an embedded document. -/
inductive IsPlain : Json → Prop where
  | null : IsPlain .null
  | bool (value : Bool) : IsPlain (.bool value)
  | number (value : Number) : IsPlain (.number value)
  | string (text : String) : IsPlain (.string text)
  | array {items : List Json} (inside : ∀ item ∈ items, IsPlain item) : IsPlain (.array items)
  | object {members : List (String × Json)} (inside : ∀ member ∈ members, IsPlain member.2)
      (ordinary : ∀ member ∈ members.head?, member.1 ≠ embeddedName) : IsPlain (.object members)

theorem IsPlain.items {items : List Json} (plain : IsPlain (.array items)) :
    ∀ item ∈ items, IsPlain item := by
  cases plain with
  | array inside => exact inside

theorem IsPlain.members {members : List (String × Json)} (plain : IsPlain (.object members)) :
    ∀ member ∈ members, IsPlain member.2 := by
  cases plain with
  | object inside ordinary => exact inside

theorem isPlain_of_textual {value : Json} (textual : Textual value) : IsPlain value := by
  induction textual with
  | string text => exact .string text
  | array inside ih => exact .array ih
  | object inside distinct ordinary ih => exact .object ih ordinary

theorem isPlain_of_scalar {value : Json} (notArray : ∀ items, value ≠ .array items)
    (notObject : ∀ members, value ≠ .object members) : IsPlain value := by
  cases value with
  | null => exact .null
  | bool value => exact .bool value
  | number value => exact .number value
  | string text => exact .string text
  | array items => exact absurd rfl (notArray items)
  | object members => exact absurd rfl (notObject members)

theorem embedded?_eq_none {members : List (String × Json)} :
    embedded? members = none ↔ ∀ member ∈ members.head?, member.1 ≠ embeddedName := by
  cases members with
  | nil => simp [embedded?]
  | cons member rest => simp [embedded?]

/-- An expansion leaves a plain value as it is. -/
theorem expand_of_isPlain {value : Json} (plain : IsPlain value) : expand value = .ok value := by
  induction plain with
  | null | bool | number | string => rfl
  | @array items inside ih =>
      have same : expandItems items = .ok items := by
        clear inside
        induction items with
        | nil => rfl
        | cons item rest later =>
            obtain ⟨first, others⟩ := List.forall_mem_cons.mp ih
            rw [expandItems, first, later others]
            rfl
      rw [expand, same]
      rfl
  | @object members inside ordinary ih =>
      have same : expandMembers members = .ok members := by
        clear inside ordinary
        induction members with
        | nil => rfl
        | cons member rest later =>
            obtain ⟨first, others⟩ := List.forall_mem_cons.mp ih
            rw [expandMembers, first, later others]
            rfl
      rw [expand, embedded?_eq_none.mpr ordinary, same]
      rfl

section Reading

variable {embedded : Bytes → Except SyntaxFault Json}
  (plain : ∀ {text value}, embedded text = .ok value → IsPlain value)

include plain

theorem isPlain_of_readObject {child : Reader SyntaxFault Json}
    (each : ∀ {input value rest}, run child input = .ok (value, rest) → IsPlain value)
    {input rest : Bytes} {value : Json}
    (read : run (readObject embedded child) input = .ok (value, rest)) : IsPlain value := by
  rcases readObject_ok read with ⟨rfl, -⟩ | ⟨_, -, found⟩ |
    ⟨name, after, members, special, -, found, rfl⟩
  · exact .object nofun nofun
  · obtain ⟨_, _, _, -, -, document, -⟩ := readEmbedded_ok found
    exact plain document
  · have written : ∀ member ∈ members, IsPlain member.2 := forall_of_readMembers each found
    have kept : ∀ member ∈ collapse [] members, IsPlain member.2 :=
      forall_collapse IsPlain (by simp) written
    -- a repeated name keeps its place, so the first name is still the first
    have ordinary : ∀ member ∈ (collapse [] members).head?, member.1 ≠ embeddedName := by
      obtain ⟨_, value, _, others, -, -, rfl, -⟩ := readMembers_ok found
      rw [collapse_nil_cons]
      rintro member ⟨⟩
      exact special
    exact .object kept ordinary

theorem isPlain_of_readValue {levels : Nat} {input rest : Bytes} {value : Json}
    (read : run (readValue embedded levels) input = .ok (value, rest)) : IsPlain value := by
  induction levels generalizing input value rest with
  | zero =>
      obtain ⟨notArray, notObject⟩ := scalar_of_readValue read
      exact isPlain_of_scalar notArray notObject
  | succ levels ih =>
      rcases shape_of_readValue read with ⟨inside, items, -, found, rfl⟩ | ⟨inside, -, found⟩ |
        ⟨-, -, -, notArray, notObject⟩
      · exact .array (forall_of_readItems ih found)
      · exact isPlain_of_readObject plain ih found
      · exact isPlain_of_scalar notArray notObject

end Reading

theorem isPlain_of_readLayers {layers : Nat} {input : Bytes} {value : Json}
    (read : readLayers layers input = .ok value) : IsPlain value := by
  induction layers generalizing input value with
  | zero => cases read
  | succ layers ih =>
      obtain ⟨rest, found, -⟩ := readDocument_eq_ok.mp read
      exact isPlain_of_readValue ih found

/-- What is read from bytes has the documents that were embedded in it in their places. -/
theorem isPlain_of_read {input : Bytes} {value : Json} (parsed : read input = .ok value) :
    IsPlain value :=
  isPlain_of_readLayers (readLayers_of_read parsed)

theorem isPlain_of_readMember {members : Nat} {value document : Json}
    (found : readMember members value = .ok document) : IsPlain document := by
  cases value with
  | string text =>
      obtain ⟨inside, parsed, alone⟩ := Outcome.bind_eq_ok.mp found
      split at alone
      · cases alone
        exact isPlain_of_read parsed
      · cases alone
  | _ => cases found

theorem isPlain_of_embedded? {members : List (String × Json)} {document : Json}
    (found : embedded? members = some (.ok document)) : IsPlain document := by
  cases members with
  | nil => cases found
  | cons member rest =>
      rw [embedded?] at found
      split at found
      · exact isPlain_of_readMember (Option.some.inj found)
      · cases found

/-- An expansion keeps the first name. -/
theorem ordinary_of_expandMembers {members expanded : List (String × Json)}
    (found : expandMembers members = .ok expanded)
    (ordinary : ∀ member ∈ members.head?, member.1 ≠ embeddedName) :
    ∀ member ∈ expanded.head?, member.1 ≠ embeddedName := by
  cases members with
  | nil =>
      cases found
      exact nofun
  | cons member rest =>
      obtain ⟨first, -, found⟩ := Outcome.bind_eq_ok.mp found
      obtain ⟨others, -, same⟩ := Outcome.bind_eq_ok.mp found
      cases same
      rintro kept ⟨⟩
      exact ordinary member rfl

mutual

/-- An expansion leaves a plain value. -/
theorem isPlain_of_expand {value expanded : Json} (found : expand value = .ok expanded) :
    IsPlain expanded := by
  match value with
  | .null | .bool _ | .number _ | .string _ =>
      cases found
      exact isPlain_of_scalar nofun nofun
  | .array items =>
      obtain ⟨inside, each, rfl⟩ := Outcome.map_eq_ok.mp found
      exact .array (isPlain_of_expandItems each)
  | .object members =>
      rw [expand] at found
      split at found
      · rename_i document special
        rw [found] at special
        exact isPlain_of_embedded? special
      · rename_i ordinary
        obtain ⟨inside, each, rfl⟩ := Outcome.map_eq_ok.mp found
        exact .object (isPlain_of_expandMembers each)
          (ordinary_of_expandMembers each (embedded?_eq_none.mp ordinary))

theorem isPlain_of_expandItems {items expanded : List Json}
    (found : expandItems items = .ok expanded) : ∀ item ∈ expanded, IsPlain item := by
  match items with
  | [] =>
      cases found
      exact nofun
  | item :: rest =>
      obtain ⟨first, here, found⟩ := Outcome.bind_eq_ok.mp found
      obtain ⟨others, later, same⟩ := Outcome.bind_eq_ok.mp found
      cases same
      exact List.forall_mem_cons.mpr ⟨isPlain_of_expand here, isPlain_of_expandItems later⟩

theorem isPlain_of_expandMembers {members expanded : List (String × Json)}
    (found : expandMembers members = .ok expanded) : ∀ member ∈ expanded, IsPlain member.2 := by
  match members with
  | [] =>
      cases found
      exact nofun
  | (name, value) :: rest =>
      obtain ⟨first, here, found⟩ := Outcome.bind_eq_ok.mp found
      obtain ⟨others, later, same⟩ := Outcome.bind_eq_ok.mp found
      cases same
      exact List.forall_mem_cons.mpr ⟨isPlain_of_expand here, isPlain_of_expandMembers later⟩

end

/-- Plain values are those that an expansion leaves as they are. -/
theorem isPlain_iff {value : Json} : IsPlain value ↔ expand value = .ok value :=
  ⟨expand_of_isPlain, isPlain_of_expand⟩

/-- A value that is taken over once more stays as it is. -/
theorem expand_expand {value expanded : Json} (found : expand value = .ok expanded) :
    expand expanded = .ok expanded :=
  expand_of_isPlain (isPlain_of_expand found)

end PartnerSearch.Json
