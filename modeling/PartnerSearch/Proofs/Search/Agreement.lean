import PartnerSearch.Proofs.Json.Written
import PartnerSearch.Proofs.Search.Document

set_option autoImplicit false

/-!
A search read from the bytes and the same search read from the value of those bytes. The two ways agree
with each other, faults included, unless the envelope holds more than its filters or an embedded
document stands in the place of the envelope or of the filters.
-/

namespace PartnerSearch

open Text (Bytes bytes)
open Json (run)

namespace Search

/-- Where the value of the filters begins: after the bracket of a list, or after the first name of an
object when that name is theirs. -/
def filtersStart? (document : Bytes) : Option Bytes :=
  match Json.skipBlanks document with
  | 0x5B :: start => some start
  | 0x7B :: inside =>
    match run Json.readFirstName inside with
    | .ok (some name, after) =>
      match run Json.readColon after with
      | .ok (_, start) => if name = "filters" then some start else none
      | .error _ => none
    | _ => none
  | _ => none

theorem filtersStart?_list {document start : Bytes}
    (opening : Json.skipBlanks document = 0x5B :: start) : filtersStart? document = some start := by
  rw [filtersStart?, opening]
  rfl

theorem filtersStart?_object {document inside after start : Bytes}
    (opening : Json.skipBlanks document = 0x7B :: inside)
    (named : run Json.readFirstName inside = .ok (some "filters", after))
    (colon : run Json.readColon after = .ok ((), start)) : filtersStart? document = some start := by
  rw [filtersStart?, opening]
  show (match run Json.readFirstName inside with
    | .ok (some name, after) =>
      match run Json.readColon after with
      | .ok (_, start) => if name = "filters" then some start else none
      | .error _ => none
    | _ => none) = some start
  rw [named]
  dsimp only
  rw [colon]
  rfl

/-- The filters begin inside a list, or inside an object after their name. -/
theorem cases_of_filtersStart? {document start : Bytes}
    (begins : filtersStart? document = some start) :
    Json.skipBlanks document = 0x5B :: start ∨
      ∃ inside after, Json.skipBlanks document = 0x7B :: inside ∧
        run Json.readFirstName inside = .ok (some "filters", after) ∧
        run Json.readColon after = .ok ((), start) := by
  rw [filtersStart?] at begins
  split at begins
  · rename_i inside opening
    cases begins
    exact .inl opening
  · rename_i inside opening
    split at begins
    · rename_i name after named
      split at begins
      · rename_i colon
        split at begins
        · rename_i same
          cases begins
          subst same
          exact .inr ⟨inside, after, opening, named, colon⟩
        · cases begins
      · cases begins
    · cases begins
  · cases begins

/-- An embedded document stands in the place of the envelope or of the filters. -/
def EmbedsPart (document : Bytes) : Prop :=
  Json.OpensEmbedded document ∨ ∃ start ∈ filtersStart? document, Json.OpensEmbedded start

instance {document : Bytes} : Decidable (EmbedsPart document) :=
  inferInstanceAs (Decidable (_ ∨ _))

theorem ofJson_members_other {name : String} (other : name ≠ "filters") (value : Json)
    (members : List (String × Json)) :
    ofJson (Json.ofMembers ((name, value) :: members)) =
      .error (.unknownField name Wire.searchNames) := by
  rw [Json.ofMembers_eq, Json.collapse_nil_cons]
  show Wire.readSearchMembers none _ = _
  rw [Wire.readSearchMembers, if_pos other]

theorem ofJson_filters (value : Json) :
    ofJson (Json.ofMembers [("filters", value)]) =
      Wire.readFilters value >>= fun clauses => .ok ⟨clauses⟩ := by
  show Wire.readSearchMembers none [("filters", value)] = _
  rw [Wire.readSearchMembers, if_neg (by decide), Option.isSome_none, if_neg (by decide)]
  cases Wire.readFilters value <;> rfl

theorem ofJson_filters_other {name : String} (other : name ≠ "filters") (filters value : Json)
    {members : List (String × Json)} (once : "filters" ∉ members.map Prod.fst) :
    ofJson (Json.ofMembers (("filters", filters) :: (name, value) :: members)) =
      Wire.readFilters filters >>= fun _ => .error (.unknownField name Wire.searchNames) := by
  have absent : "filters" ∉ ((name, value) :: members).map Prod.fst := by
    rw [List.map_cons, List.mem_cons]
    rintro (same | later)
    · exact other same.symm
    · exact once later
  rw [Json.ofMembers_eq, Json.collapse_nil_cons, Json.lastValue_of_absent _ absent,
    Json.others_of_absent absent, Json.collapse_nil_cons]
  show Wire.readSearchMembers none _ = _
  rw [Wire.readSearchMembers, if_neg (by decide), Option.isSome_none, if_neg (by decide)]
  cases Wire.readFilters filters with
  | error fault => rfl
  | ok clauses =>
      dsimp only [bind, Except.bind]
      rw [Wire.readSearchMembers, if_pos other]

theorem ofDocument_empty_list {document inside rest : Bytes}
    (opening : Json.skipBlanks document = 0x5B :: inside)
    (closing : Json.skipBlanks inside = 0x5D :: rest) (ended : Json.skipBlanks rest = []) :
    ofDocument document = .ok .empty := by
  rw [ofDocument_list opening, Wire.readArrayEnvelope_end closing]
  dsimp only [bind, Except.bind]
  rw [Json.endOfDocument_eq_ok.mpr ⟨ended, rfl⟩, Wire.lift_ok]

theorem ofDocument_single {document inside middle rest tail : Bytes} {b : UInt8} {item : Json}
    (opening : Json.skipBlanks document = 0x5B :: inside)
    (ahead : Json.skipBlanks inside = b :: tail) (notClosing : b ≠ 0x5D)
    (filters : run Wire.filtersReader inside =
      (Wire.readFilters item).map fun clauses => (clauses, middle))
    (closing : Json.skipBlanks middle = 0x5D :: rest) (ended : Json.skipBlanks rest = []) :
    ofDocument document = ofJson (.array [item]) := by
  have value : ofJson (.array [item]) = Wire.readFilters item >>= fun clauses => .ok ⟨clauses⟩ := rfl
  rw [ofDocument_list opening, value]
  cases judged : Wire.readFilters item with
  | error fault =>
      rw [judged] at filters
      rw [Wire.readArrayEnvelope_refused ahead notClosing filters]
      rfl
  | ok clauses =>
      rw [judged] at filters
      rw [Wire.readArrayEnvelope_single ahead notClosing filters closing]
      dsimp only [bind, Except.bind]
      rw [Json.endOfDocument_eq_ok.mpr ⟨ended, rfl⟩, Wire.lift_ok]

/-- A list of one item or none is judged alike in both ways, unless the item is an embedded document. -/
theorem ofDocument_items {document inside rest : Bytes} {items : List Json}
    (opening : Json.skipBlanks document = 0x5B :: inside)
    (found : run (Json.readItems id Wire.filtersValue) inside = .ok (items, rest))
    (ended : Json.skipBlanks rest = []) (single : items.length ≤ 1)
    (plain : ∀ start ∈ filtersStart? document, ¬ Json.OpensEmbedded start) :
    ofDocument document = ofJson (.array items) := by
  rcases Json.readItems_ok found with ⟨rfl, closing⟩ |
    ⟨b, tail, item, middle, more, ahead, notClosing, here, later, rfl⟩
  · exact ofDocument_empty_list opening closing ended
  · obtain rfl : more = [] := List.eq_nil_of_length_eq_zero (by simpa using single)
    have filters := Wire.run_filtersReader_value here (plain inside (filtersStart?_list opening))
    rcases Json.readMoreItems_ok later with ⟨-, closing⟩ |
      ⟨-, -, -, first, -, more, -, -, -, -, -, same⟩
    · exact ofDocument_single opening ahead notClosing filters closing ended
    · cases same

/-- The members of an object are judged alike in both ways, as long as the filters stand there once and
are no embedded document. -/
theorem ofDocument_members {document inside after rest : Bytes} {name : String}
    {members : List (String × Json)} (opening : Json.skipBlanks document = 0x7B :: inside)
    (named : run Json.readFirstName inside = .ok (some name, after))
    (found : run (Json.readMembers Wire.filtersValue name) after = .ok (members, rest))
    (ended : Json.skipBlanks rest = []) (once : Json.occurrences "filters" members ≤ 1)
    (plain : ∀ start ∈ filtersStart? document, ¬ Json.OpensEmbedded start) :
    ofDocument document = ofJson (Json.ofMembers members) := by
  obtain ⟨start, filters, left, more, colon, here, rfl, onward⟩ := Json.readMembers_ok found
  by_cases other : name ≠ "filters"
  · rw [ofDocument_named opening named other, ofJson_members_other other]
  · obtain rfl : name = "filters" := not_not.mp other
    have judged := Wire.run_filtersReader_value here (plain start (filtersStart?_object opening named colon))
    rw [ofDocument_filters opening named colon, judged]
    rcases onward with ⟨rfl, closing⟩ | ⟨following, middle, next, later⟩
    · rw [ofJson_filters]
      cases Wire.readFilters filters with
      | error fault => rfl
      | ok clauses =>
          dsimp only [Except.map, bind, Except.bind]
          rw [Wire.endOfMembers_end closing]
          dsimp only
          rw [Json.endOfDocument_eq_ok.mpr ⟨ended, rfl⟩, Wire.lift_ok]
    · obtain ⟨-, value, -, others, -, -, rfl, -⟩ := Json.readMembers_ok later
      have none : "filters" ∉ ((following, value) :: others).map Prod.fst := by
        rw [Json.occurrences, List.map_cons, List.count_cons_self] at once
        exact List.count_eq_zero.mp (by omega)
      rw [List.map_cons, List.mem_cons, not_or] at none
      obtain ⟨first, absent⟩ := none
      have differ : following ≠ "filters" := fun same => first same.symm
      rw [ofJson_filters_other differ filters value absent]
      cases Wire.readFilters filters with
      | error fault => rfl
      | ok clauses =>
          dsimp only [Except.map, bind, Except.bind]
          rw [Wire.endOfMembers_next next, if_neg differ]

/-- Filters that stand in an object twice are refused when they are read from the bytes. -/
theorem exists_fault_of_repeated {document : Bytes} {members : List (String × Json)}
    (written : members ∈ Json.writtenMembers? document)
    (repeated : 2 ≤ Json.occurrences "filters" members) :
    ∃ fault, ofDocument document = .error fault := by
  have member : members ≠ [] := by
    rintro rfl
    exact absurd repeated (by decide)
  obtain ⟨inside, name, after, opening, named⟩ := Json.named_of_writtenMembers? written member
  obtain ⟨rest, found⟩ := (Json.mem_writtenMembers? opening named).mp written
  cases read : ofDocument document with
  | error fault => exact ⟨fault, rfl⟩
  | ok search =>
      exfalso
      obtain ⟨inside', rest', -, ⟨list, -⟩ | ⟨object, envelope⟩⟩ := ofDocument_ok read
      · rw [opening] at list
        cases list
      · rw [opening] at object
        cases object
        rcases Wire.readObjectEnvelope_ok envelope with ⟨-, none⟩ |
          ⟨after', start, left, some, colon, filters, closing⟩
        · rw [named] at none
          cases none
        · rw [named] at some
          cases some
          obtain ⟨start', value, left', more, colon', here, rfl, onward⟩ :=
            Json.readMembers_ok found
          rw [colon] at colon'
          cases colon'
          obtain ⟨value', there, -⟩ := Wire.filtersReader_ok filters
          change run Wire.filtersValue start = _ at here
          rw [there] at here
          cases here
          rcases onward with ⟨rfl, -⟩ | ⟨following, middle, next, -⟩
          · simp [Json.occurrences] at repeated
          · rw [closing] at next
            cases next

/-- Read from the bytes or from their value, a search is the same and so is the fault, unless the
envelope holds more than the filters or an embedded document takes a place in it. -/
theorem ofDocument_eq_ofJson {document : Bytes} {value : Json}
    (parsed : Json.read document = .ok value)
    (once : ∀ members ∈ Json.writtenMembers? document, Json.occurrences "filters" members ≤ 1)
    (single : ∀ items ∈ Json.writtenItems? document, items.length ≤ 1)
    (plain : ¬ EmbedsPart document) : ofDocument document = ofJson value := by
  have plainFilters : ∀ start ∈ filtersStart? document, ¬ Json.OpensEmbedded start :=
    fun start begins embedded => plain (.inr ⟨start, begins, embedded⟩)
  obtain ⟨rest, read, ended⟩ := Json.read_eq_ok.mp parsed
  rcases Json.shape_of_readValue read with ⟨inside, items, opening, found, rfl⟩ |
    ⟨inside, opening, found⟩ | ⟨notList, notObject, described, notArray, notMap⟩
  · have written := Json.mem_writtenItems?.mpr ⟨inside, rest, opening, found⟩
    exact ofDocument_items opening found ended (single items written) plainFilters
  · rcases Json.readObject_ok found with ⟨rfl, named⟩ | ⟨after, named, -⟩ |
      ⟨name, after, members, -, named, written, rfl⟩
    · rw [ofDocument_object opening, Wire.readObjectEnvelope_eq, named, Wire.lift_ok]
      show Wire.lift (Json.endOfDocument Search.empty rest) = .ok .empty
      rw [Json.endOfDocument_eq_ok.mpr ⟨ended, rfl⟩, Wire.lift_ok]
    · exact absurd (.inl ⟨inside, after, opening, named⟩) plain
    · exact ofDocument_members opening named written ended
        (once members ((Json.mem_writtenMembers? opening named).mpr ⟨rest, written⟩)) plainFilters
  · rw [ofDocument_other notList notObject, Wire.unexpected, described]
    cases value with
    | array items => exact absurd rfl (notArray items)
    | object members => exact absurd rfl (notMap members)
    | _ => rfl

/-- The items of a list that is read are the filters or nothing. -/
theorem items_of_readArrayEnvelope {input rest : Bytes} {search : Search}
    (read : Wire.readArrayEnvelope input = .ok (search, rest)) :
    ∃ items, run (Json.readItems id Wire.filtersValue) input = .ok (items, rest) ∧
      ofJson (.array items) = .ok search := by
  rcases Wire.readArrayEnvelope_ok read with ⟨rfl, closing⟩ |
    ⟨b, tail, middle, ahead, notClosing, filters, closing⟩
  · exact ⟨[], Json.run_readItems_end closing, rfl⟩
  · obtain ⟨value, found, clauses⟩ := Wire.filtersReader_ok filters
    refine ⟨[value], ?_, ?_⟩
    · rw [Json.run_readItems_first ahead notClosing, found]
      dsimp only [bind, Except.bind]
      rw [Json.run_readMoreItems_end closing]
      rfl
    · show (Wire.readFilters value >>= fun clauses => _) = _
      rw [clauses]
      rfl

/-- The value of an object that is read has the filters alone or nothing. -/
theorem value_of_readObjectEnvelope {input rest : Bytes} {search : Search}
    (read : Wire.readObjectEnvelope input = .ok (search, rest)) :
    ∃ value, run (Json.readObject Json.read Wire.filtersValue) input = .ok (value, rest) ∧
      ofJson value = .ok search := by
  rcases Wire.readObjectEnvelope_ok read with ⟨rfl, none⟩ |
    ⟨after, start, left, named, colon, filters, closing⟩
  · refine ⟨.object [], ?_, rfl⟩
    rw [Json.run_readObject, none]
    rfl
  · obtain ⟨value, found, clauses⟩ := Wire.filtersReader_ok filters
    refine ⟨Json.ofMembers [("filters", value)], ?_, ?_⟩
    · rw [Json.run_readObject, named]
      dsimp only [bind, Except.bind]
      rw [if_neg (by decide), Json.run_readMembers, colon]
      dsimp only [bind, Except.bind]
      rw [found]
      dsimp only
      rw [closing]
      rfl
    · rw [ofJson_filters, clauses]
      rfl

/-- What is read from the bytes can be read from the value. -/
theorem exists_value_of_ofDocument {document : Bytes} {search : Search}
    (read : ofDocument document = .ok search) :
    ∃ value, Json.read document = .ok value ∧ ofJson value = .ok search := by
  obtain ⟨inside, rest, ended, ⟨opening, envelope⟩ | ⟨opening, envelope⟩⟩ := ofDocument_ok read
  · obtain ⟨items, found, same⟩ := items_of_readArrayEnvelope envelope
    have list : run (Json.readValue Json.read Json.nestingLimit) document =
        (run (Json.readItems id Wire.filtersValue) inside).map fun read => (.array read.1, read.2) :=
      Json.run_readValue_list Json.read _ opening
    rw [found] at list
    exact ⟨.array items, Json.read_eq_ok.mpr ⟨rest, list, ended⟩, same⟩
  · obtain ⟨value, found, same⟩ := value_of_readObjectEnvelope envelope
    have object : run (Json.readValue Json.read Json.nestingLimit) document =
        run (Json.readObject Json.read Wire.filtersValue) inside :=
      Json.run_readValue_object Json.read _ opening
    rw [found] at object
    exact ⟨value, Json.read_eq_ok.mpr ⟨rest, object, ended⟩, same⟩

theorem exists_fault_of_items {document : Bytes} {items : List Json}
    (written : items ∈ Json.writtenItems? document) (several : 2 ≤ items.length) :
    ∃ fault, ofDocument document = .error fault := by
  obtain ⟨inside, rest, opening, found⟩ := Json.mem_writtenItems?.mp written
  cases read : ofDocument document with
  | error fault => exact ⟨fault, rfl⟩
  | ok search =>
      exfalso
      rcases Json.readItems_ok found with ⟨rfl, -⟩ |
        ⟨b, tail, item, middle, more, ahead, notClosing, here, later, rfl⟩
      · exact absurd several (by decide)
      · obtain ⟨inside', rest', -, ⟨list, envelope⟩ | ⟨object, -⟩⟩ := ofDocument_ok read
        · rw [opening] at list
          cases list
          rcases Wire.readArrayEnvelope_ok envelope with ⟨-, closing⟩ |
            ⟨_, _, left, -, -, filters, closing⟩
          · rw [ahead] at closing
            cases closing
            exact notClosing rfl
          · obtain ⟨value, there, -⟩ := Wire.filtersReader_ok filters
            change run Wire.filtersValue inside = _ at here
            rw [there] at here
            cases here
            rcases Json.readMoreItems_ok later with ⟨rfl, -⟩ | ⟨after, -, -, -, -, -, comma, -⟩
            · exact absurd several (by simp)
            · rw [closing] at comma
              cases comma
        · rw [opening] at object
          cases object

theorem exists_fault_ofJson_items {items : List Json} (several : 2 ≤ items.length) :
    ∃ fault, ofJson (.array items) = .error fault := by
  match items, several with
  | item :: next :: rest, _ =>
      have value : ofJson (.array (item :: next :: rest)) = Wire.readFilters item >>= fun _ =>
          .error (.tooManyElements (rest.length + 2)) := rfl
      rw [value]
      cases Wire.readFilters item with
      | error fault => exact ⟨fault, rfl⟩
      | ok clauses => exact ⟨_, rfl⟩

theorem ofDocument_embedded {document : Bytes} (embedded : Json.OpensEmbedded document) :
    ofDocument document = .error (.unknownField Json.embeddedName Wire.searchNames) := by
  obtain ⟨inside, after, opening, named⟩ := embedded
  exact ofDocument_named opening named (by decide)

theorem ofDocument_embedded_filters {document start : Bytes}
    (begins : start ∈ filtersStart? document) (embedded : Json.OpensEmbedded start) :
    ofDocument document = .error (.invalidType "map" Wire.expectedList) := by
  have refused := Wire.run_filtersReader_embedded embedded
  rcases cases_of_filtersStart? begins with opening | ⟨inside, after, opening, named, colon⟩
  · obtain ⟨object, rest, ahead, -⟩ := embedded
    rw [ofDocument_list opening, Wire.readArrayEnvelope_refused ahead (by decide) refused]
    rfl
  · rw [ofDocument_filters opening named colon, refused]
    rfl

/-- Filters that stand in an object twice are refused in the bytes; in the value the last ones have
taken the place of the first. -/
theorem repeated_filters {document : Bytes} {value : Json} {members : List (String × Json)}
    (parsed : Json.read document = .ok value) (written : members ∈ Json.writtenMembers? document)
    (repeated : 2 ≤ Json.occurrences "filters" members) :
    (∃ fault, ofDocument document = .error fault) ∧
      value = Json.ofMembers (Json.keepLast "filters" members) ∧
      ∀ other kept, Json.read other = .ok kept →
        Json.keepLast "filters" members ∈ Json.writtenMembers? other → ofJson value = ofJson kept := by
  have present : "filters" ∈ members.map Prod.fst := by
    apply List.count_pos_iff.mp
    exact Nat.lt_of_lt_of_le Nat.zero_lt_two repeated
  have last : value = Json.ofMembers (Json.keepLast "filters" members) := by
    rw [Json.eq_ofMembers_of_writtenMembers? written present (by decide) parsed, Json.ofMembers_eq,
      Json.ofMembers_eq, Json.collapse_keepLast]
  refine ⟨exists_fault_of_repeated written repeated, last, ?_⟩
  intro other kept readOther writtenOther
  have same := Json.eq_ofMembers_of_writtenMembers? writtenOther
    (Json.mem_names_keepLast present) (by decide) readOther
  rw [last, same]

/-- How the bytes of a document and the value that it is compare as searches. They agree, faults
included, unless the document is a list of several items or an object with several `filters`, or an
embedded document stands in the place of the envelope or of the filters. -/
theorem document_like_value {document : Bytes} {value : Json}
    (parsed : Json.read document = .ok value) :
    ((∀ members ∈ Json.writtenMembers? document, Json.occurrences "filters" members ≤ 1) →
      (∀ items ∈ Json.writtenItems? document, items.length ≤ 1) → ¬ EmbedsPart document →
      ofDocument document = ofJson value) ∧
    (∀ items ∈ Json.writtenItems? document, 2 ≤ items.length →
      (∃ fault, ofDocument document = .error fault) ∧ ∃ fault, ofJson value = .error fault) ∧
    (∀ members ∈ Json.writtenMembers? document, 2 ≤ Json.occurrences "filters" members →
      (∃ fault, ofDocument document = .error fault) ∧
      value = Json.ofMembers (Json.keepLast "filters" members) ∧
      ∀ other kept, Json.read other = .ok kept →
        Json.keepLast "filters" members ∈ Json.writtenMembers? other → ofJson value = ofJson kept) ∧
    (EmbedsPart document → ∃ fault, ofDocument document = .error fault) := by
  refine ⟨ofDocument_eq_ofJson parsed, ?_, ?_, ?_⟩
  · intro items written several
    have list := Json.eq_array_of_writtenItems? written parsed
    subst list
    exact ⟨exists_fault_of_items written several, exists_fault_ofJson_items several⟩
  · intro members written repeated
    exact repeated_filters parsed written repeated
  · intro embeds
    rcases embeds with envelope | ⟨start, begins, filters⟩
    · exact ⟨_, ofDocument_embedded envelope⟩
    · exact ⟨_, ofDocument_embedded_filters begins filters⟩

theorem document_like_value_reordered :
    let document :=
      bytes "[[\x7b\"operator\":\x7b\"set\":null\x7d,\"member\":\"name\"\x7d,\x7b\"or\":[]\x7d]]"
    ∃ value, Json.read document = .ok value ∧ ofDocument document = ofJson value ∧
      ofJson value = .ok ⟨[.filter ⟨"name", .set, []⟩, .any []]⟩ := by
  intro document
  have accepted : (Wire.lift (Json.read document) >>= ofJson) =
      .ok ⟨[.filter ⟨"name", .set, []⟩, .any []]⟩ := by decide +kernel
  obtain ⟨value, parsed, found⟩ := Outcome.bind_eq_ok.mp accepted
  have parsed := Wire.lift_eq_ok.mp parsed
  exact ⟨value, parsed, (document_like_value parsed).1 (by decide +kernel) (by decide +kernel)
    (by decide +kernel), found⟩

/-- An embedded document in the place of the envelope: its name is unknown in the bytes, and as a value
it is the search inside it. -/
theorem document_unlike_value :
    let document := bytes "\x7b\"$serde_json::private::RawValue\":\"\x7b\x7d\"\x7d"
    ∃ value, Json.read document = .ok value ∧
      (∀ members ∈ Json.writtenMembers? document, Json.occurrences "filters" members ≤ 1) ∧
      (∀ items ∈ Json.writtenItems? document, items.length ≤ 1) ∧
      ofJson value = .ok .empty ∧
      ofDocument document = .error (.unknownField Json.embeddedName Wire.searchNames) := by
  intro document
  have accepted : (Wire.lift (Json.read document) >>= ofJson) = .ok .empty := by decide +kernel
  obtain ⟨value, parsed, found⟩ := Outcome.bind_eq_ok.mp accepted
  exact ⟨value, Wire.lift_eq_ok.mp parsed, by decide +kernel, by decide +kernel, found,
    by decide +kernel⟩

end Search

end PartnerSearch
