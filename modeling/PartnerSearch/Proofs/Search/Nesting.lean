import PartnerSearch.Http.Exchange
import PartnerSearch.Proofs.Json.Layers
import PartnerSearch.Proofs.Search.NormalForm
import PartnerSearch.Proofs.Search.Parameter

set_option autoImplicit false

/-!
How deep the groups of a search nest that comes from outside. Two levels of the document make one group,
so its limit on levels bounds the groups; each document that is embedded in another brings its own levels.
-/

namespace PartnerSearch

open Text (Bytes bytes trim utf8)
open Json (run EmbedsAtMost Reads)

namespace Clause

mutual

/-- The most groups on a path from here to a filter or to a group without children. -/
def nesting : Clause → Nat
  | .filter _ => 0
  | .any children => listNesting children + 1
  | .all children => listNesting children + 1

def listNesting : List Clause → Nat
  | [] => 0
  | child :: rest => max child.nesting (listNesting rest)

end

end Clause

def Search.nesting (search : Search) : Nat := Clause.listNesting search.filters

namespace Predicate

mutual

def nesting : Predicate → Nat
  | .group _ items => listNesting items + 1
  | _ => 0

def listNesting : List Predicate → Nat
  | [] => 0
  | item :: rest => max item.nesting (listNesting rest)

end

theorem listNesting_le_iff {items : List Predicate} {bound : Nat} :
    listNesting items ≤ bound ↔ ∀ item ∈ items, item.nesting ≤ bound := by
  induction items with
  | nil => simp [listNesting]
  | cons item rest ih => rw [listNesting, Nat.max_le, ih, List.forall_mem_cons]

theorem nesting_ofItems_le (connective : Connective) (items : List Predicate) :
    (ofItems connective items).nesting ≤ listNesting items + 1 := by
  match items with
  | [] => exact Nat.zero_le _
  | [item] =>
      show item.nesting ≤ max item.nesting 0 + 1
      omega
  | first :: second :: rest => exact Nat.le_refl _

/-- Joining predicates adds one group at most. -/
theorem nesting_fold_le (connective : Connective) (items : List Predicate) :
    (fold connective items).nesting ≤ listNesting items + 1 := by
  cases connective with
  | all =>
      have fewer : listNesting (items.filter fun item => !item.isAlways) ≤ listNesting items := by
        rw [listNesting_le_iff]
        intro item kept
        exact listNesting_le_iff.mp (Nat.le_refl _) item (List.mem_filter.mp kept).1
      have joined := nesting_ofItems_le .all (items.filter fun item => !item.isAlways)
      rw [fold]
      omega
  | any =>
      rw [fold]
      split
      · exact Nat.zero_le _
      · exact nesting_ofItems_le .any items

end Predicate

namespace Clause

theorem listNesting_le_iff {clauses : List Clause} {bound : Nat} :
    listNesting clauses ≤ bound ↔ ∀ clause ∈ clauses, clause.nesting ≤ bound := by
  induction clauses with
  | nil => simp [listNesting]
  | cons clause rest ih => rw [listNesting, Nat.max_le, ih, List.forall_mem_cons]

/-- If each clause has two levels for every group, a list of them has so, and one more. -/
theorem listNesting_of_readClauses {inside : Json} {clauses : List Clause}
    (each : ∀ clause ∈ clauses, ∀ {value}, Wire.readClause value = .ok clause →
      2 * clause.nesting ≤ value.depth)
    (read : Wire.readClauses inside = .ok clauses) : 2 * listNesting clauses + 1 ≤ inside.depth := by
  have positive : 1 ≤ inside.depth := by
    obtain ⟨items, rfl, -⟩ := Wire.readClauses_eq_ok.mp read
    exact Nat.le_add_left 1 _
  have half : listNesting clauses ≤ (inside.depth - 1) / 2 := by
    rw [listNesting_le_iff]
    intro clause member
    obtain ⟨value, found, below⟩ := Wire.exists_of_readClauses read member
    have nested := each clause member found
    omega
  omega

theorem nesting_group_le {children : List Clause} {value : Json}
    (each : ∀ child ∈ children, ∀ {value}, Wire.readClause value = .ok child →
      2 * child.nesting ≤ value.depth)
    (read : Wire.readClause value = .ok (.any children) ∨
      Wire.readClause value = .ok (.all children)) :
    2 * (listNesting children + 1) ≤ value.depth := by
  obtain ⟨name, inside, rfl, found⟩ := Wire.group_of_readClause read
  have below := listNesting_of_readClauses each found
  simp only [Json.depth, Json.membersDepth]
  omega

/-- A group takes two levels, its object and the list of its children. -/
theorem nesting_of_readClause {clause : Clause} {value : Json}
    (read : Wire.readClause value = .ok clause) : 2 * clause.nesting ≤ value.depth := by
  induction clause generalizing value with
  | filter leaf => exact Nat.zero_le _
  | any children ih => exact nesting_group_le ih (.inl read)
  | all children ih => exact nesting_group_le ih (.inr read)

end Clause

namespace Search

/-- The envelope takes two levels more. -/
theorem nesting_of_ofJson {value : Json} {search : Search} (plain : value.IsPlain)
    (read : ofJson value = .ok search) : 2 * search.nesting ≤ value.depth - 2 := by
  rcases Wire.filters_of_readSearch plain read with ⟨rfl, -⟩ | ⟨inside, found, below⟩
  · exact Nat.zero_le _
  · have bound := Clause.listNesting_of_readClauses
      (fun clause _ {value} => Clause.nesting_of_readClause) found
    rw [nesting]
    omega

/-- The groups of a search fit into the levels of the document, and into those of the documents embedded
in it as far as they stand one inside another, which is some number of times. Each of them takes four
bytes of the document for its brackets. -/
structure NestsWithin (document : Bytes) (search : Search) : Prop where
  layered : EmbedsAtMost document.length document
  bound : ∀ embedded, EmbedsAtMost embedded document → search.nesting ≤ 62 + 63 * embedded
  sized : 4 * search.nesting ≤ document.length

theorem NestsWithin.of_read {document : Bytes} {value : Json} {search : Search}
    (parsed : Json.read document = .ok value) (read : ofJson value = .ok search) :
    NestsWithin document search where
  layered := Json.embedsAtMost_length parsed
  bound embedded within := by
    have deep := Json.depth_of_readLayers (within.readLayers parsed)
    have nested := nesting_of_ofJson (Json.isPlain_of_read parsed) read
    omega
  sized := by
    have taken := Json.length_of_read parsed
    have nested := nesting_of_ofJson (Json.isPlain_of_read parsed) read
    omega

theorem nestsWithin_of_ofDocument {document : Bytes} {search : Search}
    (read : ofDocument document = .ok search) : NestsWithin document search := by
  obtain ⟨value, parsed, found⟩ := exists_value_of_ofDocument read
  exact .of_read parsed found

theorem nestsWithin_of_ofParameter {raw : String} {search : Search}
    (read : ofParameter raw = .ok search) :
    ∃ document, (document = bytes (trim raw) ∨ Spells (bytes (trim raw)) document) ∧
      NestsWithin document search := by
  obtain ⟨-, ⟨-, found⟩ | ⟨-, document, found, spelled⟩⟩ := ofParameter_eq_ok.mp read
  · exact ⟨_, .inl rfl, nestsWithin_of_ofDocument found⟩
  · exact ⟨document, .inr spelled, nestsWithin_of_ofDocument found⟩

/-- The limit on parameters bounds the groups, whatever is embedded in the document. -/
theorem nesting_of_ofParameter {raw : String} {search : Search}
    (read : ofParameter raw = .ok search) : search.nesting ≤ 4096 := by
  obtain ⟨document, written, within⟩ := nestsWithin_of_ofParameter read
  have sized := within.sized
  have short : (bytes (trim raw)).length ≤ 16 * 1024 := (ofParameter_eq_ok.mp read).1
  have shorter : document.length ≤ (bytes (trim raw)).length := by
    rcases written with rfl | spelled
    · exact Nat.le_refl _
    · exact spelled.length_le
  omega

/-- An empty body stands for null, which is no search. -/
theorem nestsWithin_of_readBody {request : Http.Request} {body : Json} {search : Search}
    (accepted : Http.readBody request = .ok body) (read : ofJson body = .ok search) :
    NestsWithin request.body search := by
  rw [Http.readBody] at accepted
  split at accepted
  · split at accepted
    · cases accepted
      cases read
    · cases parsed : Json.read request.body with
      | error fault =>
          rw [parsed] at accepted
          cases accepted
      | ok value =>
          rw [parsed] at accepted
          cases accepted
          exact .of_read parsed read
  · cases accepted

end Search

section Compilation

variable {registry : Registry} {schema : Schema} {root : Fin schema.size}

theorem Clause.listNesting_of_forall₂ {clauses : List Clause} {predicates : List Predicate}
    (each : List.Forall₂ (fun clause predicate => predicate.nesting ≤ clause.nesting)
      clauses predicates) : Predicate.listNesting predicates ≤ listNesting clauses := by
  induction each with
  | nil => exact Nat.le_refl 0
  | cons first rest ih =>
      simp only [Predicate.listNesting, listNesting]
      omega

/-- A compiled clause nests no deeper than the clause. -/
theorem Clause.nesting_of_compile {clause : Clause} {predicate : Predicate}
    (compiled : clause.compile registry schema root = .ok predicate) :
    predicate.nesting ≤ clause.nesting := by
  refine compile_induction ?filter ?any ?all compiled
  case filter =>
    intro leaf predicate compiled
    rcases Filter.shape_of_compile compiled with ⟨path, condition, -, rfl⟩ | ⟨path, present, rfl⟩
    · exact Nat.le_refl 0
    · exact Nat.le_refl 0
  case any =>
    intro children predicates _ each
    exact (Predicate.nesting_fold_le .any predicates).trans
      (Nat.succ_le_succ (listNesting_of_forall₂ each))
  case all =>
    intro children predicates _ each
    exact (Predicate.nesting_fold_le .all predicates).trans
      (Nat.succ_le_succ (listNesting_of_forall₂ each))

/-- The filters of a search are joined by one more group. -/
theorem Search.nesting_of_compileWith {search : Search} {connective : Connective}
    {predicate : Predicate}
    (compiled : search.compileWith connective registry schema root = .ok predicate) :
    predicate.nesting ≤ search.nesting + 1 := by
  obtain ⟨predicates, each, rfl⟩ := compileWith_eq_ok.mp compiled
  have nested := Clause.listNesting_of_forall₂
    (Clause.forall₂_of_compileList each fun _ _ _ => Clause.nesting_of_compile)
  have joined := Predicate.nesting_fold_le connective predicates
  rw [nesting]
  omega

end Compilation

namespace Json

/-- Groups of one clause around a value. -/
def grouped : Nat → Json → Json
  | 0, inside => inside
  | levels + 1, inside => .object [("or", .array [grouped levels inside])]

theorem grouped_grouped (outer inner : Nat) (inside : Json) :
    grouped outer (grouped inner inside) = grouped (outer + inner) inside := by
  induction outer with
  | zero => rw [grouped, Nat.zero_add]
  | succ outer ih => rw [grouped, ih, Nat.add_right_comm, grouped]

/-- A filter that leaves out its values. -/
def bareFilter : Json := .object [("member", .string "name"), ("operator", .string "set")]

/-- A filter in groups in as many embedded documents as asked for. Each has all the groups that fit. -/
def folded : Nat → Json
  | 0 => bareFilter
  | embedded + 1 => .object [(embeddedName, .string (grouped 63 (folded embedded)).render)]

theorem textual_bareFilter : Textual bareFilter := by
  refine .object ?_ (by decide) (by simp [embeddedName])
  simp [Textual.string]

section Reading

variable {embedded : Bytes → Except SyntaxFault Json} {levels : Nat} {written value : Json}

theorem Reads.grouped (inside : Reads embedded levels written value) (groups : Nat) :
    Reads embedded (levels + 2 * groups) (grouped groups written) (grouped groups value) := by
  induction groups with
  | zero => exact inside
  | succ groups ih => exact ih.array.object (by decide)

theorem Reads.narrower {other : Bytes → Except SyntaxFault Json}
    (inside : Reads embedded levels written value)
    (agree : ∀ {text value}, embedded text = .ok value → other text = .ok value) :
    Reads other levels written value where
  reads rest := narrower_readValue agree levels (inside.reads rest)
  starts := inside.starts

end Reading

/-- An embedded document takes one level of its own, whatever is inside. -/
theorem reads_folded (embedded : Nat) :
    Reads (readLayers embedded) 1 (folded embedded) (grouped (63 * embedded) bareFilter) := by
  induction embedded with
  | zero => exact .of_textual textual_bareFilter (by decide)
  | succ embedded ih =>
      have inside := (ih.grouped 63).document
      rw [grouped_grouped, Nat.add_comm, ← Nat.mul_succ] at inside
      exact .embedding inside

end Json

namespace Wire

theorem readClause_grouped (groups : Nat) :
    readClause (Json.grouped groups Json.bareFilter) = .ok (Search.nestedGroups groups) := by
  induction groups with
  | zero => decide +kernel
  | succ groups ih =>
      show (readGroup "or" none [("or", .array [Json.grouped groups Json.bareFilter])]).map Clause.any = _
      rw [readGroup_single, readClauses, readClauseItems, ih]
      rfl

end Wire

namespace Search

theorem nesting_nestedGroups (groups : Nat) : (Search.mk [nestedGroups groups]).nesting = groups := by
  have whole : (nestedGroups groups).nesting = groups := by
    induction groups with
    | zero => rfl
    | succ groups ih => simp [nestedGroups, Clause.nesting, Clause.listNesting, ih]
  show max (nestedGroups groups).nesting 0 = groups
  omega

/-- All the groups that fit into a document, around those of the documents embedded in it. -/
def foldedDocument (embedded : Nat) : Json :=
  .object [("filters", .array [Json.grouped 62 (Json.folded embedded)])]

theorem embedsAtMost_foldedDocument (embedded : Nat) :
    EmbedsAtMost embedded (bytes (foldedDocument embedded).render) :=
  ⟨_, (((Json.reads_folded embedded).grouped 62).array.object (by decide)).document⟩

theorem ofDocument_foldedDocument (embedded : Nat) :
    ofDocument (bytes (foldedDocument embedded).render) =
      .ok ⟨[nestedGroups (62 + 63 * embedded)]⟩ := by
  have clause : Reads Json.read Wire.clauseLevels (Json.grouped 62 (Json.folded embedded))
      (Json.grouped (62 + 63 * embedded) Json.bareFilter) := by
    rw [← Json.grouped_grouped]
    exact ((Json.reads_folded embedded).grouped 62).narrower Json.read_of_readLayers
  have items : run (Json.readItems id Wire.clauseValue)
      (utf8 (Json.grouped 62 (Json.folded embedded)).chars ++ [] ++ 0x5D :: [0x7D]) =
        .ok ([Json.grouped (62 + 63 * embedded) Json.bareFilter], [0x7D]) :=
    Json.run_readItems_printed (List.forall_mem_singleton.mpr clause) [0x7D]
  have clauses := Wire.run_readItems_clauses items
  rw [List.append_nil, Wire.readClauseItems, Wire.readClause_grouped] at clauses
  rw [foldedDocument, ofDocument_envelope, Json.utf8_chars_array, Wire.run_filtersReader_list rfl,
    Json.listChars, clauses]
  rfl

/-- Searches that come from outside nest as deep as their documents let them, whichever way they come and
however they are spelled, and so do the predicates they are compiled to, but for one group. Without an
embedded document that is 62 groups; it is reached, with any number of embedded ones too. In a parameter
there are never more than 4096. -/
theorem nesting_bounded :
    (∀ (document : Bytes) (search : Search), ofDocument document = .ok search →
      NestsWithin document search) ∧
    (∀ (raw : String) (search : Search), ofParameter raw = .ok search →
      search.nesting ≤ 4096 ∧
        ∃ document, (document = bytes (trim raw) ∨ Spells (bytes (trim raw)) document) ∧
          NestsWithin document search) ∧
    (∀ (request : Http.Request) (body : Json) (search : Search), Http.readBody request = .ok body →
      ofJson body = .ok search → NestsWithin request.body search) ∧
    (∀ (search : Search) (connective : Connective) (registry : Registry) (schema : Schema)
      (root : Fin schema.size) (predicate : Predicate),
      search.compileWith connective registry schema root = .ok predicate →
        predicate.nesting ≤ search.nesting + 1) ∧
    ∀ embedded, ∃ (document : Bytes) (search : Search), EmbedsAtMost embedded document ∧
      ofDocument document = .ok search ∧ search.nesting = 62 + 63 * embedded := by
  refine ⟨fun _ _ => nestsWithin_of_ofDocument,
    fun _ _ read => ⟨nesting_of_ofParameter read, nestsWithin_of_ofParameter read⟩,
    fun _ _ _ => nestsWithin_of_readBody, fun _ _ _ _ _ _ => nesting_of_compileWith, ?_⟩
  intro embedded
  exact ⟨_, _, embedsAtMost_foldedDocument embedded, ofDocument_foldedDocument embedded,
    nesting_nestedGroups _⟩

/-- A list for an envelope, values that are left out and an operator that is an object, sent in each way
there is. -/
theorem nesting_bounded_spelled :
    let text := "[[\x7b\"or\":[\x7b\"and\":[\x7b\"operator\":\x7b\"set\":null\x7d,\"member\":\"name\"\x7d]\x7d]\x7d]]"
    let parameter := "W1t7Im9yIjpbeyJhbmQiOlt7Im9wZXJhdG9yIjp7InNldCI6bnVsbH0sIm1lbWJlciI6Im5hbWUifV19XX1dXQ"
    let request : Http.Request :=
      ⟨"POST", "/partners/search", [("content-type", "application/json")], bytes text⟩
    let search : Search := ⟨[.any [.all [.filter ⟨"name", .set, []⟩]]]⟩
    EmbedsAtMost 0 (bytes text) ∧ search.nesting = 2 ∧ NestsWithin (bytes text) search ∧
      (∃ document, (document = bytes (trim parameter) ∨ Spells (bytes (trim parameter)) document) ∧
        NestsWithin document search) ∧
      NestsWithin request.body search ∧
      ∃ predicate, search.compileWith .all Directory.registry Directory.schema Directory.root =
        .ok predicate ∧ predicate.nesting ≤ 3 := by
  intro text parameter request search
  obtain ⟨fromDocument, fromParameter, fromBody, compiled, -⟩ := nesting_bounded
  obtain ⟨value, parsed, found⟩ :=
    exists_value_of_ofDocument (show ofDocument (bytes text) = .ok search by decide +kernel)
  have body : Http.readBody request = .ok value := by
    rw [Http.readBody, if_pos (by decide +kernel), if_neg (by decide +kernel), parsed]
    rfl
  exact ⟨by decide +kernel, rfl, fromDocument (bytes text) search (by decide +kernel),
    (fromParameter parameter search (by decide +kernel)).2, fromBody request value search body found,
    _, rfl, compiled search .all Directory.registry Directory.schema Directory.root _ rfl⟩

/-- A document that is embedded in the innermost group of another has groups of its own. -/
theorem nesting_unbounded :
    let search : Search := ⟨[nestedGroups 125]⟩
    ofDocument (bytes (foldedDocument 1).render) = .ok search ∧ ¬ search.nesting ≤ 62 := by
  intro search
  have nested : search.nesting = 125 := nesting_nestedGroups 125
  exact ⟨ofDocument_foldedDocument 1, by omega⟩

end Search

end PartnerSearch
