import PartnerSearch.Proofs.Json.Embedding
import PartnerSearch.Proofs.Json.Members
import PartnerSearch.Proofs.Json.Shape
import PartnerSearch.Proofs.Search.Wire
import PartnerSearch.Search.Document

set_option autoImplicit false

/-!
Search documents as they are read from the bytes, beside the values that they are as JSON. Both ways to
a search agree, but for an envelope that holds more than its filters and for embedded documents in the
place of the envelope or of the filters.
-/

namespace PartnerSearch

open Text (Bytes)
open Json (run Reader Front)

namespace Wire

theorem bind_lift_run {α β : Type} (reader : Reader Json.SyntaxFault α) (input : Bytes)
    (next : α × Bytes → Except DecodeFault β) :
    (lift (reader input) >>= fun front => next (front.value, front.rest)) =
      lift (run reader input) >>= next := by
  unfold run
  cases reader input <;> rfl

/-- The values that stand for clauses. -/
def clauseValue : Reader Json.SyntaxFault Json := Json.readValue Json.read clauseLevels

theorem run_clauseReader (input : Bytes) : run clauseReader input = (do
    let found ← lift (run clauseValue input)
    let clause ← readClause found.1
    return (clause, found.2)) := by
  unfold run clauseReader clauseValue
  cases Json.readValue Json.read clauseLevels input with
  | error fault => rfl
  | ok front =>
      dsimp only [lift, Except.mapError, Except.map, bind, Except.bind]
      cases readClause front.value <;> rfl

theorem map_unexpected {α β : Type} (f : α → β) (input : Bytes) (expected : String) :
    (unexpected input expected : Except DecodeFault α).map f = unexpected input expected := by
  unfold unexpected
  cases Json.describeFront input <;> rfl

theorem run_filtersReader (input : Bytes) : run filtersReader input =
    match Json.skipBlanks input with
    | 0x5B :: rest => run (Json.readItems .malformed clauseReader) rest
    | _ => unexpected input expectedList := by
  unfold run filtersReader
  split <;> rename_i shape <;> simp only [shape]
  · cases Json.readItems .malformed clauseReader _ <;> rfl
  · exact map_unexpected _ input expectedList

theorem run_filtersReader_list {input rest : Bytes} (opening : Json.skipBlanks input = 0x5B :: rest) :
    run filtersReader input = run (Json.readItems .malformed clauseReader) rest := by
  rw [run_filtersReader, opening]
  rfl

theorem run_filtersReader_other {input : Bytes}
    (other : ∀ rest, Json.skipBlanks input ≠ 0x5B :: rest) :
    run filtersReader input = unexpected input expectedList := by
  rw [run_filtersReader]
  split
  · rename_i rest opening
    exact absurd opening (other rest)
  · rfl

/-- Clauses are read like the values that they stand for; the first that is refused ends it. -/
theorem run_readMoreItems_clauses {input rest : Bytes} {items : List Json}
    (read : run (Json.readMoreItems id clauseValue) input = .ok (items, rest)) :
    run (Json.readMoreItems .malformed clauseReader) input =
      (readClauseItems items).map fun clauses => (clauses, rest) := by
  induction size : input.length using Nat.strongRecOn generalizing input items with
  | ind size ih =>
    rcases Json.readMoreItems_ok read with ⟨rfl, closing⟩ |
      ⟨after, b, tail, first, middle, more, comma, ahead, notClosing, found, later, rfl⟩
    · rw [Json.run_readMoreItems_end closing]
      rfl
    · have onAfter := (Json.rest_suffix_of_skipBlanks comma).length_le
      have shorter := Json.shorter_of_run found
      rw [Json.run_readMoreItems_comma comma ahead notClosing, run_clauseReader, found,
        readClauseItems]
      dsimp only [lift, Except.mapError, bind, Except.bind]
      cases readClause first with
      | error fault => rfl
      | ok clause =>
          dsimp only [pure, Except.pure]
          rw [ih middle.length (by omega) later rfl]
          cases readClauseItems more <;> rfl

theorem run_readItems_clauses {input rest : Bytes} {items : List Json}
    (read : run (Json.readItems id clauseValue) input = .ok (items, rest)) :
    run (Json.readItems .malformed clauseReader) input =
      (readClauseItems items).map fun clauses => (clauses, rest) := by
  rcases Json.readItems_ok read with ⟨rfl, closing⟩ |
    ⟨b, tail, first, middle, more, ahead, notClosing, found, later, rfl⟩
  · rw [Json.run_readItems_end closing]
    rfl
  · rw [Json.run_readItems_first ahead notClosing, run_clauseReader, found, readClauseItems]
    dsimp only [lift, Except.mapError, bind, Except.bind]
    cases readClause first with
    | error fault => rfl
    | ok clause =>
        dsimp only [pure, Except.pure]
        rw [run_readMoreItems_clauses later]
        cases readClauseItems more <;> rfl

/-- A clause that is read stands where a value can be read. -/
theorem clauseReader_ok {input rest : Bytes} {clause : Clause}
    (read : run clauseReader input = .ok (clause, rest)) :
    ∃ value, run clauseValue input = .ok (value, rest) ∧ readClause value = .ok clause := by
  rw [run_clauseReader] at read
  obtain ⟨⟨value, after⟩, found, onward⟩ := Outcome.bind_eq_ok.mp read
  obtain ⟨_, converted, same⟩ := Outcome.bind_eq_ok.mp onward
  cases same
  exact ⟨value, lift_eq_ok.mp found, converted⟩

theorem readMoreItems_values {input rest : Bytes} {clauses : List Clause}
    (read : run (Json.readMoreItems .malformed clauseReader) input = .ok (clauses, rest)) :
    ∃ items, run (Json.readMoreItems id clauseValue) input = .ok (items, rest) ∧
      readClauseItems items = .ok clauses := by
  induction size : input.length using Nat.strongRecOn generalizing input clauses with
  | ind size ih =>
    rcases Json.readMoreItems_ok read with ⟨rfl, closing⟩ |
      ⟨after, b, tail, first, middle, more, comma, ahead, notClosing, found, later, rfl⟩
    · exact ⟨[], Json.run_readMoreItems_end closing, rfl⟩
    · have onAfter := (Json.rest_suffix_of_skipBlanks comma).length_le
      have shorter := Json.shorter_of_run found
      obtain ⟨value, here, converted⟩ := clauseReader_ok found
      obtain ⟨items, there, others⟩ := ih middle.length (by omega) later rfl
      refine ⟨value :: items, ?_, by rw [readClauseItems, converted, others]; rfl⟩
      rw [Json.run_readMoreItems_comma comma ahead notClosing, here]
      dsimp only [bind, Except.bind]
      rw [there]
      rfl

theorem readItems_values {input rest : Bytes} {clauses : List Clause}
    (read : run (Json.readItems .malformed clauseReader) input = .ok (clauses, rest)) :
    ∃ items, run (Json.readItems id clauseValue) input = .ok (items, rest) ∧
      readClauseItems items = .ok clauses := by
  rcases Json.readItems_ok read with ⟨rfl, closing⟩ |
    ⟨b, tail, first, middle, more, ahead, notClosing, found, later, rfl⟩
  · exact ⟨[], Json.run_readItems_end closing, rfl⟩
  · obtain ⟨value, here, converted⟩ := clauseReader_ok found
    obtain ⟨items, there, others⟩ := readMoreItems_values later
    refine ⟨value :: items, ?_, by rw [readClauseItems, converted, others]; rfl⟩
    rw [Json.run_readItems_first ahead notClosing, here]
    dsimp only [bind, Except.bind]
    rw [there]
    rfl

/-- The values that stand for the filters: those inside the envelope. -/
def filtersValue : Reader Json.SyntaxFault Json := Json.readValue Json.read (Json.nestingLimit - 1)

theorem readClauses_of_not_array {value : Json} (notArray : ∀ items, value ≠ .array items) :
    readClauses value = wrongType value expectedList := by
  cases value with
  | array items => exact absurd rfl (notArray items)
  | _ => rfl

theorem unexpected_object {α : Type} {input inside : Bytes} {expected : String}
    (opening : Json.skipBlanks input = 0x7B :: inside) :
    (unexpected input expected : Except DecodeFault α) = .error (.invalidType "map" expected) := by
  rw [unexpected, Json.describeFront, opening]
  rfl

theorem not_list_of_object {input inside : Bytes}
    (opening : Json.skipBlanks input = 0x7B :: inside) (rest : Bytes) :
    Json.skipBlanks input ≠ 0x5B :: rest := by
  rw [opening]
  intro same
  cases same

theorem isPlain_of_filtersValue {input rest : Bytes} {value : Json}
    (read : run filtersValue input = .ok (value, rest)) : value.IsPlain :=
  Json.isPlain_of_readValue Json.isPlain_of_read read

/-- The filters are read like the value that they are, but an embedded document is no list. -/
theorem run_filtersReader_value {input rest : Bytes} {value : Json}
    (read : run filtersValue input = .ok (value, rest)) (plain : ¬ Json.OpensEmbedded input) :
    run filtersReader input = (readFilters value).map fun clauses => (clauses, rest) := by
  rw [readFilters_of_plain (isPlain_of_filtersValue read)]
  rcases Json.shape_of_readValue read with ⟨inside, items, opening, found, rfl⟩ |
    ⟨inside, opening, found⟩ | ⟨notList, notObject, described, notArray, -⟩
  · rw [run_filtersReader_list opening, run_readItems_clauses found]
    rfl
  · rcases Json.object_of_readObject found with ⟨members, rfl⟩ | ⟨after, embedded⟩
    · rw [run_filtersReader_other (not_list_of_object opening), unexpected_object opening]
      rfl
    · exact absurd ⟨inside, after, opening, embedded⟩ plain
  · rw [run_filtersReader_other notList, readClauses_of_not_array notArray, unexpected, described]
    rfl

theorem run_filtersReader_embedded {input : Bytes} (embedded : Json.OpensEmbedded input) :
    run filtersReader input = .error (.invalidType "map" expectedList) := by
  obtain ⟨inside, rest, opening, -⟩ := embedded
  rw [run_filtersReader_other (not_list_of_object opening), unexpected_object opening]

/-- Filters that are read stand where a list can be read. -/
theorem filtersReader_ok {input rest : Bytes} {clauses : List Clause}
    (read : run filtersReader input = .ok (clauses, rest)) :
    ∃ value, run filtersValue input = .ok (value, rest) ∧ readFilters value = .ok clauses := by
  rw [run_filtersReader] at read
  split at read
  · rename_i inside opening
    obtain ⟨items, found, converted⟩ := readItems_values read
    have list : run filtersValue input = .ok (.array items, rest) := by
      have whole : run filtersValue input =
          (run (Json.readItems id clauseValue) inside).map fun read => (.array read.1, read.2) :=
        Json.run_readValue_list Json.read clauseLevels opening
      rw [whole, found]
      rfl
    refine ⟨.array items, list, ?_⟩
    rw [readFilters_of_plain (isPlain_of_filtersValue list)]
    exact converted
  · obtain ⟨found, -, impossible⟩ := Outcome.bind_eq_ok.mp read
    cases impossible

theorem endOfMembers_eq (input : Bytes) : endOfMembers input = (do
    let name ← lift (run Json.readNextName input)
    match name.1 with
    | none => return name.2
    | some text =>
      if text = "filters" then .error (.duplicateField text)
      else .error (.unknownField text searchNames)) := by
  refine Eq.trans ?_ (bind_lift_run Json.readNextName input _)
  rfl

theorem endOfMembers_end {input rest : Bytes}
    (closing : run Json.readNextName input = .ok (none, rest)) : endOfMembers input = .ok rest := by
  rw [endOfMembers_eq, closing]
  rfl

theorem endOfMembers_next {input rest : Bytes} {name : String}
    (next : run Json.readNextName input = .ok (some name, rest)) :
    endOfMembers input = .error
      (if name = "filters" then .duplicateField name else .unknownField name searchNames) := by
  rw [endOfMembers_eq, next, lift_ok]
  dsimp only [bind, Except.bind]
  split <;> rfl

theorem endOfMembers_ok {input rest : Bytes} (ended : endOfMembers input = .ok rest) :
    run Json.readNextName input = .ok (none, rest) := by
  rw [endOfMembers_eq] at ended
  obtain ⟨⟨name, after⟩, found, onward⟩ := Outcome.bind_eq_ok.mp ended
  cases name with
  | none =>
      cases onward
      exact lift_eq_ok.mp found
  | some name =>
      dsimp only at onward
      split at onward <;> cases onward

theorem readObjectEnvelope_eq (input : Bytes) : readObjectEnvelope input = (do
    let name ← lift (run Json.readFirstName input)
    match name.1 with
    | none => return (.empty, name.2)
    | some text =>
      if text ≠ "filters" then .error (.unknownField text searchNames)
      else
        let colon ← lift (run Json.readColon name.2)
        let filters ← run filtersReader colon.2
        let rest ← endOfMembers filters.2
        return (⟨filters.1⟩, rest)) := by
  rw [← bind_lift_run]
  unfold readObjectEnvelope
  apply Outcome.bind_congr
  intro name _
  cases name.value with
  | none => rfl
  | some text =>
      dsimp only
      split
      · rfl
      · rw [← bind_lift_run]
        apply Outcome.bind_congr
        intro colon _
        rw [← Json.bind_run]

/-- An object that is read is empty or holds the filters alone. -/
theorem readObjectEnvelope_ok {input rest : Bytes} {search : Search}
    (read : readObjectEnvelope input = .ok (search, rest)) :
    (search = .empty ∧ run Json.readFirstName input = .ok (none, rest)) ∨
      ∃ after start left, run Json.readFirstName input = .ok (some "filters", after) ∧
        run Json.readColon after = .ok ((), start) ∧
        run filtersReader start = .ok (search.filters, left) ∧
        run Json.readNextName left = .ok (none, rest) := by
  rw [readObjectEnvelope_eq] at read
  obtain ⟨⟨name, after⟩, named, read⟩ := Outcome.bind_eq_ok.mp read
  cases name with
  | none =>
      cases read
      exact .inl ⟨rfl, lift_eq_ok.mp named⟩
  | some name =>
      dsimp only at read
      by_cases same : name = "filters"
      · subst same
        rw [if_neg (by decide)] at read
        obtain ⟨⟨_, start⟩, colon, read⟩ := Outcome.bind_eq_ok.mp read
        obtain ⟨⟨clauses, left⟩, filters, read⟩ := Outcome.bind_eq_ok.mp read
        obtain ⟨_, ending, read⟩ := Outcome.bind_eq_ok.mp read
        cases read
        exact .inr ⟨after, start, left, lift_eq_ok.mp named, lift_eq_ok.mp colon, filters,
          endOfMembers_ok ending⟩
      · rw [if_pos same] at read
        cases read

section ArrayEnvelope

variable {input tail : Bytes} {b : UInt8} (ahead : Json.skipBlanks input = b :: tail)
  (notClosing : b ≠ 0x5D)

include ahead notClosing

/-- A list holds the filters; after them it may only end. -/
theorem readArrayEnvelope_first : readArrayEnvelope input = (do
    let filters ← run filtersReader input
    match Json.skipBlanks filters.2 with
    | [] => .error (.malformed .unclosedList)
    | 0x5D :: rest => return (⟨filters.1⟩, rest)
    | 0x2C :: rest =>
      match Json.skipBlanks rest with
      | 0x5D :: _ => .error (.malformed .trailingComma)
      | _ => .error (.malformed .trailingCharacters)
    | _ => .error (.malformed .trailingCharacters)) := by
  rw [readArrayEnvelope, ahead]
  split
  · rename_i empty
    cases empty
  · rename_i closing
    cases closing
    exact absurd rfl notClosing
  · refine Eq.trans ?_ (Json.bind_run filtersReader input _)
    rfl

theorem readArrayEnvelope_refused {fault : DecodeFault}
    (filters : run filtersReader input = .error fault) : readArrayEnvelope input = .error fault := by
  rw [readArrayEnvelope_first ahead notClosing, filters]
  rfl

theorem readArrayEnvelope_single {clauses : List Clause} {middle rest : Bytes}
    (filters : run filtersReader input = .ok (clauses, middle))
    (closing : Json.skipBlanks middle = 0x5D :: rest) :
    readArrayEnvelope input = .ok (⟨clauses⟩, rest) := by
  rw [readArrayEnvelope_first ahead notClosing, filters]
  dsimp only [bind, Except.bind]
  rw [closing]
  rfl

end ArrayEnvelope

theorem readArrayEnvelope_end {input rest : Bytes} (closing : Json.skipBlanks input = 0x5D :: rest) :
    readArrayEnvelope input = .ok (.empty, rest) := by
  rw [readArrayEnvelope, closing]
  rfl

/-- A list that is read is empty or holds the filters alone. -/
theorem readArrayEnvelope_ok {input rest : Bytes} {search : Search}
    (read : readArrayEnvelope input = .ok (search, rest)) :
    (search = .empty ∧ Json.skipBlanks input = 0x5D :: rest) ∨
      ∃ b tail middle, Json.skipBlanks input = b :: tail ∧ b ≠ 0x5D ∧
        run filtersReader input = .ok (search.filters, middle) ∧
        Json.skipBlanks middle = 0x5D :: rest := by
  cases ahead : Json.skipBlanks input with
  | nil =>
      rw [readArrayEnvelope, ahead] at read
      cases read
  | cons b tail =>
      by_cases closing : b = 0x5D
      · subst closing
        rw [readArrayEnvelope_end ahead] at read
        cases read
        exact .inl ⟨rfl, rfl⟩
      · rw [readArrayEnvelope_first ahead closing] at read
        obtain ⟨⟨clauses, middle⟩, filters, onward⟩ := Outcome.bind_eq_ok.mp read
        dsimp only at onward
        split at onward
        · cases onward
        · rename_i after closed
          cases onward
          exact .inr ⟨b, tail, middle, rfl, closing, filters, closed⟩
        · split at onward <;> cases onward
        · cases onward

end Wire

namespace Search

theorem ofDocument_list {document inside : Bytes}
    (opening : Json.skipBlanks document = 0x5B :: inside) :
    ofDocument document = (do
      let found ← Wire.readArrayEnvelope inside
      Wire.lift (Json.endOfDocument found.1 found.2)) := by
  rw [ofDocument, Wire.readEnvelope, opening]
  rfl

theorem ofDocument_object {document inside : Bytes}
    (opening : Json.skipBlanks document = 0x7B :: inside) :
    ofDocument document = (do
      let found ← Wire.readObjectEnvelope inside
      Wire.lift (Json.endOfDocument found.1 found.2)) := by
  rw [ofDocument, Wire.readEnvelope, opening]
  rfl

theorem ofDocument_other {document : Bytes}
    (notList : ∀ inside, Json.skipBlanks document ≠ 0x5B :: inside)
    (notObject : ∀ inside, Json.skipBlanks document ≠ 0x7B :: inside) :
    ofDocument document = Wire.unexpected document Wire.expectedSearch := by
  rw [ofDocument, Wire.readEnvelope]
  split
  · rename_i inside opening
    exact absurd opening (notList inside)
  · rename_i inside opening
    exact absurd opening (notObject inside)
  · unfold Wire.unexpected
    cases Json.describeFront document <;> rfl

/-- A document that is read is a list or an object, and ends after it. -/
theorem ofDocument_ok {document : Bytes} {search : Search}
    (read : ofDocument document = .ok search) :
    ∃ inside rest, Json.skipBlanks rest = [] ∧
      ((Json.skipBlanks document = 0x5B :: inside ∧
          Wire.readArrayEnvelope inside = .ok (search, rest)) ∨
        (Json.skipBlanks document = 0x7B :: inside ∧
          Wire.readObjectEnvelope inside = .ok (search, rest))) := by
  rw [ofDocument] at read
  obtain ⟨⟨found, rest⟩, envelope, ending⟩ := Outcome.bind_eq_ok.mp read
  obtain ⟨ended, rfl⟩ := Json.endOfDocument_eq_ok.mp (Wire.lift_eq_ok.mp ending)
  rw [Wire.readEnvelope] at envelope
  split at envelope
  · rename_i inside opening
    exact ⟨inside, rest, ended, .inl ⟨opening, envelope⟩⟩
  · rename_i inside opening
    exact ⟨inside, rest, ended, .inr ⟨opening, envelope⟩⟩
  · obtain ⟨described, -, impossible⟩ := Outcome.bind_eq_ok.mp envelope
    cases impossible

/-- An object is judged by its first name before any value of it is read. -/
theorem ofDocument_named {document inside after : Bytes} {name : String}
    (opening : Json.skipBlanks document = 0x7B :: inside)
    (named : run Json.readFirstName inside = .ok (some name, after)) (other : name ≠ "filters") :
    ofDocument document = .error (.unknownField name Wire.searchNames) := by
  rw [ofDocument_object opening, Wire.readObjectEnvelope_eq, named, Wire.lift_ok]
  dsimp only [bind, Except.bind]
  rw [if_pos other]

theorem ofDocument_filters {document inside after start : Bytes}
    (opening : Json.skipBlanks document = 0x7B :: inside)
    (named : run Json.readFirstName inside = .ok (some "filters", after))
    (colon : run Json.readColon after = .ok ((), start)) :
    ofDocument document = (do
      let filters ← run Wire.filtersReader start
      let rest ← Wire.endOfMembers filters.2
      Wire.lift (Json.endOfDocument ⟨filters.1⟩ rest)) := by
  rw [ofDocument_object opening, Wire.readObjectEnvelope_eq, named, Wire.lift_ok]
  dsimp only [bind, Except.bind]
  rw [if_neg (by decide), colon, Wire.lift_ok]
  dsimp only
  cases run Wire.filtersReader start with
  | error fault => rfl
  | ok filters =>
      dsimp only
      cases Wire.endOfMembers filters.2 <;> rfl

end Search

end PartnerSearch
