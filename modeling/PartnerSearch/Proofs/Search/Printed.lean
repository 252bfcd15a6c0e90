import PartnerSearch.Proofs.Search.Agreement

set_option autoImplicit false

/-!
The document that is written for a search, read from its bytes: the same search, or too deep. A document
that is read may be written again one level deeper than it was.
-/

namespace PartnerSearch

open Text (Bytes bytes utf8)
open Json (run ReadsPrinted)

namespace Wire

/-- A clause is accepted if its written form nests no deeper than the levels left for clauses. -/
def withinClauseLevels (clause : Clause) : Except DecodeFault Clause :=
  if clause.toJson.depth ≤ clauseLevels then .ok clause else .error (.malformed .tooDeep)

theorem clauseReader_printed (clause : Clause) :
    ReadsPrinted clauseReader (fun clause => utf8 clause.toJson.chars) withinClauseLevels clause where
  reads rest := by
    have value := Json.run_readValue_chars Json.read (Clause.textual_toJson clause) clauseLevels rest
    rw [run_clauseReader, clauseValue, value, Json.withinLevels, withinClauseLevels]
    by_cases fits : clause.toJson.depth ≤ clauseLevels
    · rw [if_pos fits, if_pos fits]
      dsimp only [Except.map, bind, Except.bind, lift, Except.mapError]
      rw [readClause_toJson]
      rfl
    · rw [if_neg fits, if_neg fits]
      rfl
  starts := Json.starts_chars (Clause.textual_toJson clause)

theorem mapM_withinClauseLevels (clauses : List Clause) :
    clauses.mapM withinClauseLevels =
      if Json.listDepth (Clause.listToJson clauses) ≤ clauseLevels then .ok clauses
      else .error (.malformed .tooDeep) := by
  have all : Json.listDepth (Clause.listToJson clauses) ≤ clauseLevels ↔
      ∀ clause ∈ clauses, clause.toJson.depth ≤ clauseLevels := by
    rw [Clause.listToJson_eq_map, Json.listDepth_le_iff, List.forall_mem_map]
  simp only [all]
  exact Outcome.mapM_guard (fun clause => clause.toJson.depth ≤ clauseLevels)
    (DecodeFault.malformed .tooDeep) clauses

/-- A written list of clauses is read back, if none of them nests too deep. -/
theorem run_filtersReader_printed (clauses : List Clause) (rest : Bytes) :
    run filtersReader (utf8 (Json.array (Clause.listToJson clauses)).chars ++ rest) =
      (clauses.mapM withinClauseLevels).map fun found => (found, rest) := by
  rw [Json.utf8_chars_array, run_filtersReader_list rfl]
  cases clauses with
  | nil => exact Json.run_readItems_end rfl
  | cons clause clauses =>
      have more : Json.printedMore (fun item => utf8 item.chars) (Clause.listToJson clauses) =
          Json.printedMore (fun clause => utf8 clause.toJson.chars) clauses := by
        rw [Clause.listToJson_eq_map, Json.printedMore, List.flatMap_map]
        rfl
      rw [Clause.listToJson, Json.utf8_listChars, more]
      exact Json.run_readItems_printed (fun other _ => clauseReader_printed other) rest

end Wire

namespace Search

/-- A written envelope is read as its filters are. -/
theorem ofDocument_envelope (filters : Json) :
    ofDocument (bytes (Json.object [("filters", filters)]).render) = (do
      let found ← run Wire.filtersReader (utf8 filters.chars ++ [0x7D])
      let rest ← Wire.endOfMembers found.2
      Wire.lift (Json.endOfDocument ⟨found.1⟩ rest)) := by
  have document : bytes (Json.object [("filters", filters)]).render =
      0x7B :: (utf8 (Json.stringChars "filters") ++ 0x3A :: (utf8 filters.chars ++ [0x7D])) := by
    have object := Json.utf8_chars_object [("filters", filters)] []
    rw [List.append_nil, Json.utf8_membersChars] at object
    rw [Json.render, Text.bytes_ofList]
    simpa [Json.printedMore] using object
  have named := Json.run_readFirstName_string "filters" (0x3A :: (utf8 filters.chars ++ [0x7D]))
  rw [document, ofDocument_filters rfl named (Json.run_readColon_colon _)]

/-- The document that is written for a search is read as that search, unless it nests too deep; that is
then what is wrong with it. -/
theorem ofDocument_render (search : Search) : ofDocument (bytes search.toJson.render) =
    if search.toJson.depth ≤ Json.nestingLimit then .ok search
    else .error (.malformed .tooDeep) := by
  have document : bytes search.toJson.render =
      bytes (Json.object [("filters", .array (Clause.listToJson search.filters))]).render := rfl
  rw [document, ofDocument_envelope, Wire.run_filtersReader_printed, Wire.mapM_withinClauseLevels]
  by_cases fits : Json.listDepth (Clause.listToJson search.filters) ≤ Wire.clauseLevels
  · have within : search.toJson.depth ≤ Json.nestingLimit := by
      rw [depth_toJson]
      exact Nat.add_le_add_right fits 2
    rw [if_pos fits, if_pos within]
    dsimp only [Except.map, bind, Except.bind]
    rw [Wire.endOfMembers_end (Json.run_readNextName_end [])]
    rfl
  · have deep : ¬ search.toJson.depth ≤ Json.nestingLimit := by
      rw [depth_toJson]
      exact fun within => fits (Nat.le_of_add_le_add_right within)
    rw [if_neg fits, if_neg deep]
    rfl

/-- What was read once is read again from the document that is written for it, as long as that one does
not nest too deep. It nests at most one level deeper than the first one. -/
theorem ofDocument_again {document : Bytes} {search : Search}
    (read : ofDocument document = .ok search) :
    (ofDocument (bytes search.toJson.render) =
      if search.toJson.depth ≤ Json.nestingLimit then .ok search else .error (.malformed .tooDeep)) ∧
    ∃ value, Json.read document = .ok value ∧ search.toJson.depth ≤ value.depth + 1 ∧
      (value.depth < Json.nestingLimit → ofDocument (bytes search.toJson.render) = .ok search) := by
  obtain ⟨value, parsed, found⟩ := exists_value_of_ofDocument read
  have deeper := depth_le_of_ofJson (Json.isPlain_of_read parsed) found
  refine ⟨ofDocument_render search, value, parsed, deeper, ?_⟩
  intro spare
  rw [ofDocument_render, if_pos (by omega)]

/-- The values of the filter and the envelope are left out, the operator is an object, and the names are
in another order. -/
theorem ofDocument_again_spelled :
    let document :=
      bytes "[[\x7b\"operator\":\x7b\"set\":null\x7d,\"member\":\"\\u006eame\"\x7d,\x7b\"or\":[]\x7d]]"
    let search : Search := ⟨[.filter ⟨"name", .set, []⟩, .any []]⟩
    ofDocument document = .ok search ∧ ofDocument (bytes search.toJson.render) = .ok search := by
  intro document search
  have read : ofDocument document = .ok search := by decide +kernel
  refine ⟨read, ?_⟩
  have again := (ofDocument_again read).1
  rwa [if_pos (by decide)] at again

/-- Groups of one clause around a filter without values. -/
def nestedGroups : Nat → Clause
  | 0 => .filter ⟨"name", .set, []⟩
  | levels + 1 => .any [nestedGroups levels]

/-- Their text, in which the filter leaves out its values. -/
def nestedText : Nat → String
  | 0 => "\x7b\"member\":\"name\",\"operator\":\"set\"\x7d"
  | levels + 1 => "\x7b\"or\":[" ++ nestedText levels ++ "]\x7d"

/-- A filter at the limit has no level left for its values, which are written all the same. -/
theorem ofDocument_again_tooDeep :
    let document := bytes ("\x7b\"filters\":[" ++ nestedText 62 ++ "]\x7d")
    let search : Search := ⟨[nestedGroups 62]⟩
    ofDocument document = .ok search ∧
      ofDocument (bytes search.toJson.render) = .error (.malformed .tooDeep) := by
  intro document search
  refine ⟨by decide +kernel, ?_⟩
  rw [ofDocument_render, if_neg (by decide +kernel)]

end Search

end PartnerSearch
