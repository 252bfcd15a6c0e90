import Mathlib.Data.List.Basic
import PartnerSearch.Proofs.Predicate.NormalForm
import PartnerSearch.Sql.Fragment

set_option autoImplicit false

/-!
The text of a predicate, cut into its conditions and what stands between them. The conditions keep
their order, and each has its aliases after those of the conditions before it. Inside a condition
the text is made of fixed words, of tables under their aliases and of columns.
-/

namespace PartnerSearch

open Sql

namespace Predicate

mutual

/-- The hops of all conditions in the order of the text. -/
def hops : Predicate → List Hop
  | .always => []
  | .column path _ => path.hops
  | .related path _ => path.hops
  | .group _ items => listHops items

def listHops : List Predicate → List Hop
  | [] => []
  | item :: rest => item.hops ++ listHops rest

end

theorem listHops_eq_flatMap (items : List Predicate) : listHops items = items.flatMap hops := by
  induction items with
  | nil => rfl
  | cons item rest ih => rw [listHops, ih, List.flatMap_cons]

theorem listHops_conditions (predicate : Predicate) :
    listHops predicate.conditions = predicate.hops := by
  rw [listHops_eq_flatMap]
  induction predicate with
  | always => rfl
  | column path condition => exact List.append_nil path.hops
  | related path present => exact List.append_nil path.hops
  | group connective items ih =>
      rw [conditions, listConditions_eq_flatMap, List.flatMap_assoc, hops, listHops_eq_flatMap]
      exact List.flatMap_congr ih

theorem length_hops (predicate : Predicate) : predicate.hops.length = predicate.hopCount := by
  induction predicate with
  | always => rfl
  | column path condition => rfl
  | related path present => rfl
  | group connective items ih =>
      rw [hops, hopCount]
      clear connective
      induction items with
      | nil => rfl
      | cons item rest later =>
          obtain ⟨first, others⟩ := List.forall_mem_cons.mp ih
          rw [listHops, listHopCount, List.length_append, first, later others]

end Predicate

namespace Sql

/-- A condition with its aliases after the first `used`, or what stands between conditions. -/
inductive Block where
  | glue (text : String)
  | column (used : Nat) (path : ColumnPath) (condition : Condition)
  | related (used : Nat) (path : RelationPath) (present : Bool)

namespace Block

def pieces : Block → List Piece
  | .glue text => [.word text]
  | .column used path condition => (Formula.ofColumn used path condition).pieces
  | .related used path present => (Formula.ofRelation used path present).pieces

def text (block : Block) : String := (Fragment.ofPieces block.pieces).sql

/-- The condition as a predicate of its own, behind the number of aliases taken before it. -/
def condition? : Block → Option (Nat × Predicate)
  | .glue _ => none
  | .column used path condition => some (used, .column path condition)
  | .related used path present => some (used, .related path present)

/-- All that can stand between conditions. -/
def separators : List String := ["1 = 1", "(", ")", " AND ", " OR "]

end Block

end Sql

namespace Predicate

mutual

/-- The text of the predicate in blocks, with aliases after the first `used`. -/
def blocks (used : Nat) : Predicate → List Block
  | .always => [.glue "1 = 1"]
  | .column path condition => [.column used path condition]
  | .related path present => [.related used path present]
  | .group connective items =>
    .glue "(" :: itemBlocks (connectiveWord connective) used items ++ [.glue ")"]

def itemBlocks (between : String) (used : Nat) : List Predicate → List Block
  | [] => []
  | [item] => item.blocks used
  | item :: next :: rest =>
    item.blocks used ++ .glue between :: itemBlocks between (used + item.hopCount) (next :: rest)

end

/-- Conditions one after the other, each with the number of aliases taken before it. -/
def numbered (used : Nat) : List Predicate → List (Nat × Predicate)
  | [] => []
  | item :: rest => (used, item) :: numbered (used + item.hopCount) rest

theorem numbered_append (used : Nat) (items others : List Predicate) :
    numbered used (items ++ others) =
      numbered used items ++ numbered (used + (listHops items).length) others := by
  induction items generalizing used with
  | nil => rfl
  | cons item rest ih =>
      have further : used + item.hopCount + (listHops rest).length =
          used + (listHops (item :: rest)).length := by
        rw [listHops, List.length_append, length_hops, Nat.add_assoc]
      rw [List.cons_append, numbered, numbered, ih, further, List.cons_append]

theorem pieces_blocks (predicate : Predicate) (used : Nat) :
    (predicate.blocks used).flatMap Block.pieces = (Formula.ofPredicate used predicate).pieces := by
  induction predicate generalizing used with
  | always => rfl
  | column path condition => exact List.append_nil _
  | related path present => exact List.append_nil _
  | group connective items ih =>
      have list (items : List Predicate)
          (ih : ∀ item ∈ items, ∀ used, (item.blocks used).flatMap Block.pieces =
            (Formula.ofPredicate used item).pieces) (used : Nat) :
          (itemBlocks (connectiveWord connective) used items).flatMap Block.pieces =
            Formula.itemPieces (connectiveWord connective) (Formula.ofPredicates used items) := by
        induction items generalizing used with
        | nil => rfl
        | cons item rest later =>
            obtain ⟨first, others⟩ := List.forall_mem_cons.mp ih
            cases rest with
            | nil => exact first used
            | cons next rest =>
                rw [itemBlocks, List.flatMap_append, List.flatMap_cons, first used,
                  later others (used + item.hopCount)]
                rfl
      simp only [blocks, Formula.ofPredicate, Formula.pieces, List.cons_append, List.flatMap_cons,
        List.flatMap_append, list items ih, Block.pieces, List.flatMap_nil, List.nil_append,
        List.append_nil]

/-- The text is that of the blocks one after the other. -/
theorem join_blocks (predicate : Predicate) :
    String.join ((predicate.blocks 0).map Block.text) = predicate.fragment.sql := by
  have blockwise (blocks : List Block) : String.join (blocks.map Block.text) =
      (Fragment.ofPieces (blocks.flatMap Block.pieces)).sql := by
    induction blocks with
    | nil => rfl
    | cons block rest ih =>
        rw [List.map_cons, String.join_cons, ih, List.flatMap_cons]
        simp only [Block.text, Fragment.ofPieces, List.map_append, String.join_append]
  rw [blockwise, pieces_blocks]
  rfl

theorem conditions_blocks (predicate : Predicate) (used : Nat) :
    (predicate.blocks used).filterMap Block.condition? = numbered used predicate.conditions := by
  induction predicate generalizing used with
  | always => rfl
  | column path condition => rfl
  | related path present => rfl
  | group connective items ih =>
      have list (items : List Predicate)
          (ih : ∀ item ∈ items, ∀ used, (item.blocks used).filterMap Block.condition? =
            numbered used item.conditions) (used : Nat) :
          (itemBlocks (connectiveWord connective) used items).filterMap Block.condition? =
            numbered used (listConditions items) := by
        induction items generalizing used with
        | nil => rfl
        | cons item rest later =>
            obtain ⟨first, others⟩ := List.forall_mem_cons.mp ih
            cases rest with
            | nil =>
                rw [itemBlocks, first used, listConditions, listConditions, List.append_nil]
            | cons next rest =>
                have conditions : listConditions (item :: next :: rest) =
                    item.conditions ++ listConditions (next :: rest) := rfl
                rw [itemBlocks, List.filterMap_append, List.filterMap_cons_none rfl, first used,
                  later others (used + item.hopCount), conditions, numbered_append,
                  listHops_conditions, length_hops]
      rw [blocks, List.cons_append, List.filterMap_cons_none rfl, List.filterMap_append,
        list items ih, conditions]
      exact List.append_nil _

theorem mem_separators_of_mem_blocks (predicate : Predicate) (used : Nat) {text : String}
    (member : .glue text ∈ predicate.blocks used) : text ∈ Block.separators := by
  induction predicate generalizing used with
  | always =>
      cases List.mem_singleton.mp member
      simp [Block.separators]
  | column path condition => simp [blocks] at member
  | related path present => simp [blocks] at member
  | group connective items ih =>
      have word : connectiveWord connective ∈ Block.separators := by
        cases connective <;> simp [Block.separators, connectiveWord]
      have list (items : List Predicate)
          (ih : ∀ item ∈ items, ∀ used, .glue text ∈ item.blocks used → text ∈ Block.separators)
          (used : Nat) (member : .glue text ∈ itemBlocks (connectiveWord connective) used items) :
          text ∈ Block.separators := by
        induction items generalizing used with
        | nil => cases member
        | cons item rest later =>
            obtain ⟨first, others⟩ := List.forall_mem_cons.mp ih
            cases rest with
            | nil => exact first used member
            | cons next rest =>
                rw [itemBlocks, List.mem_append, List.mem_cons] at member
                rcases member with here | between | further
                · exact first used here
                · cases between
                  exact word
                · exact later others _ further
      rw [blocks, List.cons_append, List.mem_cons, List.mem_append, List.mem_singleton] at member
      rcases member with opening | inner | closing
      · cases opening
        simp [Block.separators]
      · exact list items (fun item inside used => ih item inside used) used inner
      · cases closing
        simp [Block.separators]

/-- Where a condition stands among the others it stands in the text, behind the text of those before
it and with its aliases after theirs. -/
theorem split_blocks {predicate leaf : Predicate} {before after : List Predicate}
    (cut : predicate.conditions = before ++ leaf :: after) :
    ∃ front block back, predicate.blocks 0 = front ++ block :: back ∧
      front.filterMap Block.condition? = numbered 0 before ∧
      block.condition? = some ((listHops before).length, leaf) := by
  have all := conditions_blocks predicate 0
  rw [cut, numbered_append, Nat.zero_add, numbered] at all
  obtain ⟨front, others, same, earlier, later⟩ := List.filterMap_eq_append_iff.mp all
  obtain ⟨glue, block, back, rfl, plain, here, -⟩ := List.filterMap_eq_cons_iff.mp later
  refine ⟨front ++ glue, block, back, ?_, ?_, here⟩
  · rw [same, List.append_assoc]
  · rw [List.filterMap_append, earlier, List.filterMap_eq_nil_iff.mpr plain, List.append_nil]

end Predicate

/-- What a condition says of a subject, with a question mark for each of its values. -/
def Condition.test : Condition → String
  | .compare comparison _ => " " ++ comparisonWord comparison ++ " ?"
  | .within values => " IN (" ++ String.intercalate ", " (values.map fun _ => "?") ++ ")"
  | .contains _ => " LIKE ? ESCAPE '\\'"
  | .set => " IS NOT NULL"
  | .notSet => " IS NULL"
  | .between _ _ => " BETWEEN ? AND ?"

namespace Sql

/-- Words of SQL, a table that gets an alias, a column, or two columns that have to be equal. -/
inductive Atom where
  | word (text : String)
  | source (table : String) (slot : Nat)
  | column (reference : ColumnRef)
  | equality (own outer : ColumnRef)

def Atom.text : Atom → String
  | .word text => text
  | .source table slot => table ++ " " ++ aliasName slot
  | .column reference => reference.text
  | .equality own outer => own.text ++ " = " ++ outer.text

/-- A text of atoms. -/
def Atom.join (atoms : List Atom) : String := String.join (atoms.map text)

/-- An atom outside of any query, or a query in parentheses. -/
inductive Part where
  | plain (atom : Atom)
  | query (inside : List Atom)

namespace Part

def text : Part → String
  | .plain atom => atom.text
  | .query inside => "(" ++ Atom.join inside ++ ")"

def atoms : Part → List Atom
  | .plain atom => [atom]
  | .query inside => inside

end Part

namespace Link

def equalityAtom (link : Link) : Atom :=
  .equality ⟨link.slot, link.remote⟩ ⟨link.parent, link.home⟩

def joinedAtoms (link : Link) : List Atom :=
  [.word (joinWord link.kind), .source link.table link.slot, .word " ON ", link.equalityAtom]

def fromAtoms : List Link → List Atom
  | [] => []
  | first :: rest => .source first.table first.slot :: rest.flatMap joinedAtoms

def whereAtoms : List Link → List Atom
  | [] => []
  | first :: _ => [first.equalityAtom]

def selectAtoms (what : Atom) (links : List Link) : List Atom :=
  [.word "SELECT ", what, .word " FROM "] ++ fromAtoms links ++ [.word " WHERE "] ++
    whereAtoms links

end Link

/-- The words of a query. -/
def keywords : List String := ["SELECT ", " FROM ", " JOIN ", " LEFT JOIN ", " ON ", " WHERE "]

/-- What holds of the words of a query, of its links and of what it selects holds of all of it. -/
theorem Link.forall_selectAtoms {motive : Atom → Prop} (word : ∀ text ∈ keywords, motive (.word text))
    {links : List Link}
    (joined : ∀ link ∈ links, motive (.source link.table link.slot) ∧ motive link.equalityAtom)
    {what : Atom} (said : motive what) : ∀ atom ∈ selectAtoms what links, motive atom := by
  have tables : ∀ atom ∈ fromAtoms links, motive atom := by
    cases links with
    | nil => simp [fromAtoms]
    | cons first rest =>
        obtain ⟨own, others⟩ := List.forall_mem_cons.mp joined
        rw [fromAtoms, List.forall_mem_cons]
        refine ⟨own.1, ?_⟩
        intro atom member
        obtain ⟨link, inside, here⟩ := List.mem_flatMap.mp member
        have kind : motive (.word (joinWord link.kind)) := by
          cases link.kind <;> exact word _ (by simp [keywords, joinWord])
        simp only [joinedAtoms, List.mem_cons, List.not_mem_nil, or_false] at here
        rcases here with rfl | rfl | rfl | rfl
        · exact kind
        · exact (others link inside).1
        · exact word _ (by simp [keywords])
        · exact (others link inside).2
  have tied : ∀ atom ∈ whereAtoms links, motive atom := by
    cases links with
    | nil => simp [whereAtoms]
    | cons first rest => simpa [whereAtoms] using (joined first List.mem_cons_self).2
  simp only [selectAtoms, List.forall_mem_append, List.forall_mem_cons]
  refine ⟨⟨⟨⟨word _ ?_, said, word _ ?_, ?_⟩, tables⟩, word _ ?_, ?_⟩, tied⟩
  all_goals simp [keywords]

namespace Atom

theorem join_append (atoms others : List Atom) : join (atoms ++ others) = join atoms ++ join others := by
  rw [join, List.map_append, String.join_append]
  rfl

theorem join_cons (atom : Atom) (rest : List Atom) : join (atom :: rest) = atom.text ++ join rest := by
  rw [join, List.map_cons, String.join_cons]
  rfl

theorem join_nil : join [] = "" := rfl

end Atom

namespace Link

theorem join_joinedAtoms (link : Link) : Atom.join link.joinedAtoms = link.joined := by
  simp only [joinedAtoms, equalityAtom, Atom.join_cons, Atom.join_nil, Atom.text, joined, source,
    equality, String.append_empty, String.append_assoc]

theorem join_fromAtoms (links : List Link) : Atom.join (fromAtoms links) = fromText links := by
  cases links with
  | nil => rfl
  | cons first rest =>
      have further : Atom.join (rest.flatMap joinedAtoms) = String.join (rest.map joined) := by
        induction rest with
        | nil => rfl
        | cons link rest ih =>
            rw [List.flatMap_cons, Atom.join_append, join_joinedAtoms, ih, List.map_cons,
              String.join_cons]
      rw [fromAtoms, Atom.join_cons, further]
      rfl

theorem join_whereAtoms (links : List Link) : Atom.join (whereAtoms links) = whereText links := by
  cases links with
  | nil => rfl
  | cons first rest =>
      rw [whereAtoms, Atom.join_cons, Atom.join_nil, String.append_empty]
      rfl

theorem join_selectAtoms (what : Atom) (links : List Link) :
    Atom.join (selectAtoms what links) = selectText what.text links := by
  simp only [selectAtoms, Atom.join_append, Atom.join_cons, Atom.join_nil, join_fromAtoms,
    join_whereAtoms, Atom.text, selectText, String.append_empty, String.append_assoc]

end Link

theorem sql_listPieces (values : List Value) :
    (Fragment.ofPieces (listPieces values)).sql =
      String.intercalate ", " (values.map fun _ => "?") := by
  match values with
  | [] => rfl
  | [value] => simp [listPieces, Fragment.ofPieces, Piece.text]
  | value :: next :: rest =>
      have later := sql_listPieces (next :: rest)
      rw [listPieces, Fragment.sql_cons, Fragment.sql_cons, later]
      simp only [List.map_cons, String.intercalate_cons_cons, Piece.text, String.append_assoc]

theorem sql_conditionPieces (subject : String) (condition : Condition) :
    (Fragment.ofPieces (conditionPieces subject condition)).sql = subject ++ condition.test := by
  cases condition with
  | within values =>
      simp only [conditionPieces, List.cons_append, Fragment.sql_cons, Fragment.sql_append,
        Fragment.sql_nil, sql_listPieces, Piece.text, Condition.test, String.append_empty,
        String.append_assoc]
  | set => simp only [conditionPieces, Fragment.sql_cons, Fragment.sql_nil, Piece.text,
      Condition.test, String.append_empty]
  | notSet => simp only [conditionPieces, Fragment.sql_cons, Fragment.sql_nil, Piece.text,
      Condition.test, String.append_empty]
  | _ =>
      simp only [conditionPieces, Fragment.sql_cons, Fragment.sql_nil, Piece.text, Condition.test,
        String.append_empty, String.append_assoc]
      rfl

namespace Block

/-- The parts of a block. -/
def parts : Block → List Part
  | .glue text => [.plain (.word text)]
  | .column used path condition =>
    let links := Link.ofHops .optionalObjects used path.hops
    let reference : ColumnRef := ⟨used + path.hops.length, path.column⟩
    if path.hops.isEmpty then
      [.plain (.column ⟨0, path.column⟩), .plain (.word condition.test)]
    else if path.isQuantified then
      [.plain (.word "EXISTS "), .query (Link.selectAtoms (.word "1") links ++
        [.word " AND ", .column reference, .word condition.test])]
    else [.query (Link.selectAtoms (.column reference) links), .plain (.word condition.test)]
  | .related used path present =>
    [.plain (.word (if present then "EXISTS " else "NOT EXISTS ")),
      .query (Link.selectAtoms (.word "1") (Link.ofHops .required used path.hops))]

section Column

variable (used : Nat) {path : ColumnPath} (condition : Condition)

theorem parts_column_direct (direct : path.hops = []) : parts (.column used path condition) =
    [.plain (.column ⟨0, path.column⟩), .plain (.word condition.test)] := by
  simp [parts, direct]

theorem parts_column_many (many : path.isQuantified = true) :
    parts (.column used path condition) =
      [.plain (.word "EXISTS "),
        .query (Link.selectAtoms (.word "1") (Link.ofHops .optionalObjects used path.hops) ++
          [.word " AND ", .column ⟨used + path.hops.length, path.column⟩,
            .word condition.test])] := by
  have crossed : path.hops.isEmpty = false := by
    rw [List.isEmpty_eq_false_iff]
    intro direct
    rw [ColumnPath.isQuantified, direct] at many
    cases many
  simp [parts, crossed, many]

theorem parts_column_one (crossed : path.hops ≠ []) (one : path.isQuantified = false) :
    parts (.column used path condition) =
      [.query (Link.selectAtoms (.column ⟨used + path.hops.length, path.column⟩)
          (Link.ofHops .optionalObjects used path.hops)),
        .plain (.word condition.test)] := by
  simp [parts, crossed, one]

end Column

theorem join_parts (block : Block) : String.join (block.parts.map Part.text) = block.text := by
  have opening (text : String) : "EXISTS " ++ ("(" ++ text) = "EXISTS (" ++ text := by
    rw [← String.append_assoc]
    rfl
  have absent (text : String) : "NOT EXISTS " ++ ("(" ++ text) = "NOT EXISTS (" ++ text := by
    rw [← String.append_assoc]
    rfl
  cases block with
  | glue text => rfl
  | column used path condition =>
      unfold parts text pieces Formula.ofColumn
      dsimp only
      split
      · simp [Formula.pieces, sql_conditionPieces, Part.text, Atom.text, Operand.text]
      · split
        · simp [Formula.pieces, Fragment.sql_cons, Fragment.sql_append, Fragment.sql_nil,
            sql_conditionPieces, Part.text, Atom.text, Atom.join_append, Atom.join_cons,
            Atom.join_nil, Link.join_selectAtoms, Piece.text, opening, String.append_assoc]
        · simp [Formula.pieces, sql_conditionPieces, Part.text, Atom.text, Operand.text,
            Link.join_selectAtoms, String.append_assoc]
  | related used path present =>
      cases present <;>
        simp [parts, text, pieces, Formula.ofRelation, Formula.pieces, Fragment.sql_cons,
          Fragment.sql_nil, Part.text, Atom.text, Link.join_selectAtoms, Piece.text, opening, absent,
          String.append_assoc]

end Block

end Sql

namespace Predicate

/-- The text of a predicate in parts. -/
def parts (predicate : Predicate) : List Part := (predicate.blocks 0).flatMap Block.parts

theorem join_parts (predicate : Predicate) :
    String.join (predicate.parts.map Part.text) = predicate.fragment.sql := by
  have blockwise (blocks : List Block) :
      String.join ((blocks.flatMap Block.parts).map Part.text) =
        String.join (blocks.map Block.text) := by
    induction blocks with
    | nil => rfl
    | cons block rest ih =>
        rw [List.flatMap_cons, List.map_append, String.join_append, Block.join_parts, ih,
          List.map_cons, String.join_cons]
  rw [parts, blockwise, join_blocks]

end Predicate

end PartnerSearch
