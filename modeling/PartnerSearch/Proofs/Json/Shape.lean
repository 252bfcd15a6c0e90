import PartnerSearch.Proofs.Json.Reading

set_option autoImplicit false

/-!
What a value is, seen from its first byte: a list, an object, an embedded document or a scalar.
-/

namespace PartnerSearch.Json

open Text (Bytes)

/-- The value in front is an object that stands for an embedded document. -/
def OpensEmbedded (input : Bytes) : Prop :=
  ∃ inside rest, skipBlanks input = 0x7B :: inside ∧
    run readFirstName inside = .ok (some embeddedName, rest)

/-- The first name of the object in front, when it is an object with a name. -/
def frontName? (input : Bytes) : Option String :=
  match skipBlanks input with
  | 0x7B :: inside =>
    match run readFirstName inside with
    | .ok (name, _) => name
    | .error _ => none
  | _ => none

theorem opensEmbedded_iff {input : Bytes} :
    OpensEmbedded input ↔ frontName? input = some embeddedName := by
  constructor
  · intro opens
    obtain ⟨inside, rest, opening, named⟩ := opens
    rw [frontName?, opening]
    show (match run readFirstName inside with
      | .ok (name, _) => name
      | .error _ => none) = some embeddedName
    rw [named]
  · intro named
    rw [frontName?] at named
    split at named
    · rename_i inside opening
      split at named
      · rename_i name rest found
        subst named
        exact ⟨inside, rest, opening, found⟩
      · cases named
    · cases named

instance {input : Bytes} : Decidable (OpensEmbedded input) := decidable_of_iff _ opensEmbedded_iff.symm

theorem object_of_readObject {embedded : Bytes → Except SyntaxFault Json}
    {child : Reader SyntaxFault Json} {input rest : Bytes} {value : Json}
    (read : run (readObject embedded child) input = .ok (value, rest)) :
    (∃ members, value = .object members) ∨
      ∃ after, run readFirstName input = .ok (some embeddedName, after) := by
  rcases readObject_ok read with ⟨rfl, -⟩ | ⟨after, named, -⟩ | ⟨_, _, members, -, -, -, rfl⟩
  · exact .inl ⟨[], rfl⟩
  · exact .inr ⟨after, named⟩
  · exact .inl ⟨_, rfl⟩

/-- The name of an embedded document stands alone in its object. -/
theorem members_of_readEmbedded {embedded inner : Bytes → Except SyntaxFault Json} {levels : Nat}
    {name : String} {input rest after : Bytes} {value : Json} {members : List (String × Json)}
    (alone : run (readEmbedded embedded) input = .ok (value, rest))
    (read : run (readMembers (readValue inner (levels + 1)) name) input = .ok (members, after)) :
    ∃ text, members = [(name, .string text)] := by
  obtain ⟨start, found, left, more, colon, here, rfl, onward⟩ := readMembers_ok read
  obtain ⟨_, text, tail, marked, quoted, -, closing⟩ := readEmbedded_ok alone
  rw [colon] at marked
  cases marked
  have string : run (readValue inner (levels + 1)) start = .ok (.string text, tail) := by
    rw [run_readEmbeddedText] at quoted
    split at quoted
    · rename_i opening
      show run (readWith inner (some (readValue inner levels))) start = _
      rw [run_readWith_quote inner _ opening, quoted]
      rfl
    · obtain ⟨_, -, impossible⟩ := Outcome.bind_eq_ok.mp quoted
      cases impossible
  have ended : run readNextName tail = .ok (none, rest) := by
    rw [run_readClosingBrace] at closing
    split at closing
    · cases closing
    · rename_i brace
      cases closing
      rw [run_readNextName, brace]
      rfl
    · cases closing
    · cases closing
  rw [string] at here
  cases here
  rcases onward with ⟨rfl, -⟩ | ⟨following, middle, next, -⟩
  · exact ⟨text, rfl⟩
  · rw [ended] at next
    cases next

/-- A scalar value is no list and no object. -/
theorem readScalar_scalar {input : Bytes} {front : Front Json input}
    (read : readScalar input = .ok front) :
    (∀ items, front.value ≠ .array items) ∧ ∀ members, front.value ≠ .object members := by
  unfold readScalar at read
  split at read
  · cases read
  · split at read
    · obtain ⟨after, -, same⟩ := Outcome.map_eq_ok.mp read
      cases same
      simp
    · obtain ⟨after, -, same⟩ := Outcome.map_eq_ok.mp read
      cases same
      simp
    · obtain ⟨after, -, same⟩ := Outcome.map_eq_ok.mp read
      cases same
      simp
    · obtain ⟨text, -, same⟩ := Outcome.map_eq_ok.mp read
      cases same
      simp [Front.map, Front.within]
    · obtain ⟨number, -, same⟩ := Outcome.map_eq_ok.mp read
      cases same
      simp [Front.map, Front.within]
    · split at read
      · obtain ⟨number, -, same⟩ := Outcome.map_eq_ok.mp read
        cases same
        simp [Front.map]
      · cases read

/-- Without levels only scalars are read. -/
theorem scalar_of_readValue {embedded : Bytes → Except SyntaxFault Json} {input rest : Bytes}
    {value : Json} (read : run (readValue embedded 0) input = .ok (value, rest)) :
    (∀ items, value ≠ .array items) ∧ ∀ members, value ≠ .object members := by
  change run (readWith embedded none) input = _ at read
  rw [run_readWith] at read
  split at read
  · cases read
  · cases read
  · cases read
  · obtain ⟨_, found⟩ := front_of_run read
    exact readScalar_scalar found

/-- What a value that has been read was at its first byte: a list, an object, an embedded document, or
a scalar, which is described by the bytes as it is as a value. -/
theorem shape_of_readValue {embedded : Bytes → Except SyntaxFault Json} {levels : Nat}
    {input rest : Bytes} {value : Json}
    (read : run (readValue embedded (levels + 1)) input = .ok (value, rest)) :
    (∃ inside items, skipBlanks input = 0x5B :: inside ∧
        run (readItems id (readValue embedded levels)) inside = .ok (items, rest) ∧
        value = .array items) ∨
      (∃ inside, skipBlanks input = 0x7B :: inside ∧
        run (readObject embedded (readValue embedded levels)) inside = .ok (value, rest)) ∨
      ((∀ inside, skipBlanks input ≠ 0x5B :: inside) ∧ (∀ inside, skipBlanks input ≠ 0x7B :: inside) ∧
        describeFront input = .ok value.describe ∧
        (∀ items, value ≠ .array items) ∧ ∀ members, value ≠ .object members) := by
  change run (readWith embedded (some (readValue embedded levels))) input = _ at read
  rw [run_readWith] at read
  split at read
  · cases read
  · rename_i inside opening
    obtain ⟨⟨items, _⟩, found, same⟩ := Outcome.map_eq_ok.mp read
    cases same
    exact .inl ⟨inside, items, opening, found, rfl⟩
  · rename_i inside opening
    exact .inr (.inl ⟨inside, opening, read⟩)
  · rename_i b after notList notObject opening
    obtain ⟨shorter, found⟩ := front_of_run read
    refine .inr (.inr ⟨?_, ?_, ?_, readScalar_scalar found⟩)
    · intro inside list
      rw [opening] at list
      cases list
      exact notList rfl
    · intro inside object
      rw [opening] at object
      cases object
      exact notObject rfl
    · rw [describeFront, opening]
      split
      · rename_i list
        cases list
        exact absurd rfl notList
      · rename_i object
        cases object
        exact absurd rfl notObject
      · rw [found]
        rfl

end PartnerSearch.Json
