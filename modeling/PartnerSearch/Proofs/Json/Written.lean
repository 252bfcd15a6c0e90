import PartnerSearch.Proofs.Json.Embedding
import PartnerSearch.Proofs.Json.Members
import PartnerSearch.Proofs.Json.Shape

set_option autoImplicit false

/-!
The items and the members of a document as they are written, before repeated names fall together, and
the value that the document is.
-/

namespace PartnerSearch.Json

open Text (Bytes)

/-- The items of a document that is a list. -/
def writtenItems? (document : Bytes) : Option (List Json) :=
  match skipBlanks document with
  | 0x5B :: inside =>
    match run (readItems id (readValue read (nestingLimit - 1))) inside with
    | .ok (items, _) => some items
    | .error _ => none
  | _ => none

/-- The members of a document that is an object, as they are written, repeated names and all. -/
def writtenMembers? (document : Bytes) : Option (List (String × Json)) :=
  match skipBlanks document with
  | 0x7B :: inside =>
    match run readFirstName inside with
    | .ok (some name, after) =>
      match run (readMembers (readValue read (nestingLimit - 1)) name) after with
      | .ok (members, _) => some members
      | .error _ => none
    | .ok (none, _) => some []
    | .error _ => none
  | _ => none

/-- How often a name stands among the members. -/
def occurrences (name : String) (members : List (String × Json)) : Nat :=
  (members.map Prod.fst).count name

example : (writtenMembers? (Text.bytes "\x7b\"a\":1, \"b\":[], \"a\":2\x7d")).map
    (occurrences "a") = some 2 := by decide +kernel

theorem mem_writtenItems? {document : Bytes} {items : List Json} :
    items ∈ writtenItems? document ↔ ∃ inside rest, skipBlanks document = 0x5B :: inside ∧
      run (readItems id (readValue read (nestingLimit - 1))) inside = .ok (items, rest) := by
  constructor
  · intro written
    rw [Option.mem_def, writtenItems?] at written
    split at written
    · rename_i inside opening
      split at written
      · rename_i found rest read
        cases written
        exact ⟨inside, rest, opening, read⟩
      · cases written
    · cases written
  · intro written
    obtain ⟨inside, rest, opening, found⟩ := written
    rw [Option.mem_def, writtenItems?, opening]
    show (match run (readItems id (readValue read (nestingLimit - 1))) inside with
      | .ok (items, _) => some items
      | .error _ => none) = some items
    rw [found]

/-- Where there is a first name, the members are those from that name on. -/
theorem mem_writtenMembers? {document inside after : Bytes} {name : String}
    {members : List (String × Json)} (opening : skipBlanks document = 0x7B :: inside)
    (named : run readFirstName inside = .ok (some name, after)) :
    members ∈ writtenMembers? document ↔ ∃ rest,
      run (readMembers (readValue read (nestingLimit - 1)) name) after = .ok (members, rest) := by
  have shape : writtenMembers? document =
      match run (readMembers (readValue read (nestingLimit - 1)) name) after with
      | .ok (members, _) => some members
      | .error _ => none := by
    rw [writtenMembers?, opening]
    show (match run readFirstName inside with
      | .ok (some name, after) =>
        match run (readMembers (readValue read (nestingLimit - 1)) name) after with
        | .ok (members, _) => some members
        | .error _ => none
      | .ok (none, _) => some []
      | .error _ => none) = _
    rw [named]
  rw [Option.mem_def, shape]
  split
  · rename_i found rest read
    rw [read, Option.some.injEq]
    constructor
    · rintro rfl
      exact ⟨rest, rfl⟩
    · rintro ⟨_, same⟩
      cases same
      rfl
  · rename_i fault refused
    rw [refused]
    exact ⟨nofun, fun ⟨_, impossible⟩ => nomatch impossible⟩

/-- A member is written after the first name. -/
theorem named_of_writtenMembers? {document : Bytes} {members : List (String × Json)}
    (written : members ∈ writtenMembers? document) (member : members ≠ []) :
    ∃ inside name after, skipBlanks document = 0x7B :: inside ∧
      run readFirstName inside = .ok (some name, after) := by
  rw [Option.mem_def, writtenMembers?] at written
  split at written
  · rename_i inside opening
    split at written
    · rename_i name after named
      exact ⟨inside, name, after, opening, named⟩
    · cases written
      exact absurd rfl member
    · cases written
  · cases written

theorem eq_array_of_writtenItems? {document : Bytes} {items : List Json} {value : Json}
    (written : items ∈ writtenItems? document) (parsed : read document = .ok value) :
    value = .array items := by
  obtain ⟨inside, rest, opening, found⟩ := mem_writtenItems?.mp written
  obtain ⟨after, read, -⟩ := read_eq_ok.mp parsed
  rcases shape_of_readValue read with ⟨inside', items', opening', found', rfl⟩ |
    ⟨inside', opening', -⟩ | ⟨notList, -⟩
  · rw [opening] at opening'
    cases opening'
    change run (readItems id (readValue Json.read (nestingLimit - 1))) inside = _ at found'
    rw [found] at found'
    cases found'
    rfl
  · rw [opening] at opening'
    cases opening'
  · exact absurd opening (notList inside)

/-- An object with another name than that of an embedded document stands for none. -/
theorem eq_ofMembers_of_writtenMembers? {document : Bytes} {members : List (String × Json)}
    {value : Json} {other : String} (written : members ∈ writtenMembers? document)
    (present : other ∈ members.map Prod.fst) (ordinary : other ≠ embeddedName)
    (parsed : read document = .ok value) : value = ofMembers members := by
  have member : members ≠ [] := by
    rintro rfl
    exact absurd present List.not_mem_nil
  obtain ⟨inside, name, after, opening, named⟩ := named_of_writtenMembers? written member
  obtain ⟨rest, found⟩ := (mem_writtenMembers? opening named).mp written
  obtain ⟨left, read, -⟩ := read_eq_ok.mp parsed
  rcases shape_of_readValue read with ⟨inside', items', opening', -⟩ |
    ⟨inside', opening', object⟩ | ⟨-, notObject, -⟩
  · rw [opening] at opening'
    cases opening'
  · rw [opening] at opening'
    cases opening'
    rw [run_readObject, named] at object
    dsimp only [bind, Except.bind] at object
    split at object
    · rename_i special
      obtain ⟨text, rfl⟩ := members_of_readEmbedded object found
      have same : other = name := List.mem_singleton.mp present
      exact absurd (same.trans special) ordinary
    · change (run (readMembers (readValue Json.read (nestingLimit - 1)) name) after >>= _) = _
        at object
      rw [found] at object
      cases object
      rfl
  · exact absurd opening (notObject inside)

end PartnerSearch.Json
