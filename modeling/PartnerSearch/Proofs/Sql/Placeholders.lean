import PartnerSearch.Directory.Schema
import PartnerSearch.Proofs.Schema.Names
import PartnerSearch.Proofs.Sql.Binds
import PartnerSearch.Proofs.Sql.Layout
import PartnerSearch.Proofs.Sql.Lexer

set_option autoImplicit false

/-!
Placeholders and binds. Over names without question marks the text of a predicate has a question mark
for each bind, and each bind is the operand at its question mark.
-/

namespace PartnerSearch

namespace Sql

/-- The number of question marks in a text. -/
def marks (text : String) : Nat := text.toList.count '?'

theorem marks_append (first second : String) : marks (first ++ second) = marks first + marks second := by
  rw [marks, String.toList_append, List.count_append]
  rfl

theorem marks_eq_zero {text : String} : marks text = 0 ↔ '?' ∉ text.toList := List.count_eq_zero

/-- A text can be cut at any of its question marks. -/
theorem exists_mark {text : String} {place : Nat} (inside : place < marks text) :
    ∃ head tail, text = head ++ "?" ++ tail ∧ marks head = place := by
  have cut (chars : List Char) (place : Nat) (inside : place < chars.count '?') :
      ∃ head tail, chars = head ++ '?' :: tail ∧ head.count '?' = place := by
    induction chars generalizing place with
    | nil => cases inside
    | cons c rest ih =>
        by_cases mark : c = '?'
        · subst mark
          rw [List.count_cons_self] at inside
          cases place with
          | zero => exact ⟨[], rest, rfl, rfl⟩
          | succ place =>
              obtain ⟨head, tail, rfl, before⟩ := ih place (Nat.lt_of_succ_lt_succ inside)
              exact ⟨'?' :: head, tail, rfl, by rw [List.count_cons_self, before]⟩
        · rw [List.count_cons_of_ne mark] at inside
          obtain ⟨head, tail, rfl, before⟩ := ih place inside
          exact ⟨c :: head, tail, rfl, by rw [List.count_cons_of_ne mark, before]⟩
  obtain ⟨head, tail, same, before⟩ := cut text.toList place inside
  refine ⟨String.ofList head, String.ofList tail, String.toList_injective ?_, ?_⟩
  · rw [same]
    simp
  · rw [marks, String.toList_ofList, before]

theorem marks_aliasName (slot : Nat) : marks (aliasName slot) = 0 := by
  rw [marks_eq_zero, toList_aliasName]
  intro member
  rcases List.mem_cons.mp member with letter | digit
  · cases letter
  · have digit := Nat.isDigit_of_mem_toDigits (by decide) (by decide) digit
    cases digit

theorem marks_reference {reference : ColumnRef} (unmarked : '?' ∉ reference.column.toList) :
    marks reference.text = 0 := by
  have dot : marks "." = 0 := by decide
  rw [ColumnRef.text, marks_append, marks_append, marks_aliasName, dot, marks_eq_zero.mpr unmarked]

/-- A character that is not in the commas is in the list as often as in its marks. -/
theorem count_list {c : Char} (other : ", ".toList.count c = 0) (values : List Value) :
    (String.intercalate ", " (values.map fun _ => "?")).toList.count c =
      values.length * "?".toList.count c := by
  match values with
  | [] => simp
  | [value] => simp
  | value :: next :: rest =>
      have later := count_list other (next :: rest)
      have size : (value :: next :: rest).length = (next :: rest).length + 1 := rfl
      rw [List.map_cons] at later
      rw [List.map_cons, List.map_cons, String.intercalate_cons_cons, String.toList_append,
        String.toList_append, List.count_append, List.count_append, other, later, size,
        Nat.add_one_mul, Nat.add_zero, Nat.add_comm]

theorem marks_list (values : List Value) :
    marks (String.intercalate ", " (values.map fun _ => "?")) = values.length :=
  (count_list (by decide) values).trans (Nat.mul_one values.length)

/-- A condition has a question mark for each of its values. -/
theorem marks_test (condition : Condition) : marks condition.test = condition.values.length := by
  cases condition with
  | compare comparison value =>
      have mark : marks (" " ++ comparisonWord comparison ++ " ?") = 1 := by
        cases comparison <;> decide
      exact mark
  | within values =>
      have opening : marks " IN (" = 0 := by decide
      have closing : marks ")" = 0 := by decide
      rw [Condition.test, marks_append, marks_append, opening, closing, marks_list, Nat.zero_add]
      rfl
  | contains needle =>
      have mark : marks " LIKE ? ESCAPE '\\'" = 1 := by decide
      exact mark
  | set => rfl
  | notSet => rfl
  | between low high =>
      have pair : marks " BETWEEN ? AND ?" = 2 := by decide
      exact pair

namespace Link

/-- The table and the columns have no question marks. -/
def Unmarked (link : Link) : Prop :=
  '?' ∉ link.table.toList ∧ '?' ∉ link.remote.toList ∧ '?' ∉ link.home.toList

theorem unmarked_ofHops (mode : JoinMode) {hops : List Hop}
    (unmarked : ∀ name ∈ hops.flatMap Hop.names, '?' ∉ name.toList) (used : Nat) :
    ∀ link ∈ ofHops mode used hops, link.Unmarked := by
  apply forall_ofHops
  intro hop member kind parent slot
  have names : ∀ name ∈ hop.names, '?' ∉ name.toList :=
    fun name named => unmarked name (List.mem_flatMap.mpr ⟨hop, member, named⟩)
  simpa [Hop.names, Unmarked, ofHop] using names

theorem marks_atoms {atoms : List Atom} (unmarked : ∀ atom ∈ atoms, marks atom.text = 0) :
    marks (Atom.join atoms) = 0 := by
  induction atoms with
  | nil => rfl
  | cons atom rest ih =>
      obtain ⟨first, others⟩ := List.forall_mem_cons.mp unmarked
      rw [Atom.join_cons, marks_append, first, ih others]

/-- A query over names without question marks has none, if what it selects has none. -/
theorem marks_selectText {links : List Link} (unmarked : ∀ link ∈ links, link.Unmarked)
    {what : String} (said : marks what = 0) : marks (selectText what links) = 0 := by
  have atoms := join_selectAtoms (.word what) links
  rw [Atom.text] at atoms
  rw [← atoms]
  apply marks_atoms
  apply forall_selectAtoms
  · decide
  · intro link inside
    obtain ⟨table, remote, home⟩ := unmarked link inside
    have space : marks " " = 0 := by decide
    have equals : marks " = " = 0 := by decide
    have own : marks (ColumnRef.mk link.slot link.remote).text = 0 := marks_reference remote
    have outer : marks (ColumnRef.mk link.parent link.home).text = 0 := marks_reference home
    constructor
    · rw [Atom.text, marks_append, marks_append, space, marks_aliasName, marks_eq_zero.mpr table]
    · rw [equalityAtom, Atom.text, marks_append, marks_append, equals, own, outer]
  · exact said

end Link

end Sql

open Sql

namespace ColumnPath

variable (used : Nat) (path : ColumnPath)

/-- The links of a path whose aliases come after the first `used`. -/
def links : List Link := Link.ofHops .optionalObjects used path.hops

/-- What stands before the subject of a condition on the path. -/
def opening : String :=
  if path.isQuantified then "EXISTS (" ++ Link.selectText "1" (path.links used) ++ " AND " else ""

/-- What a condition on the path is put on. -/
def subject : String :=
  if path.hops.isEmpty then (ColumnRef.mk 0 path.column).text
  else if path.isQuantified then (ColumnRef.mk (used + path.hops.length) path.column).text
  else (Operand.subquery ⟨used + path.hops.length, path.column⟩ (path.links used)).text

def closing : String := if path.isQuantified then ")" else ""

theorem text_block (condition : Condition) : (Block.column used path condition).text =
    path.opening used ++ path.subject used ++ condition.test ++ path.closing := by
  by_cases direct : path.hops = []
  · have single : path.isQuantified = false := by
      rw [isQuantified, direct]
      rfl
    simp [Block.text, Block.pieces, Formula.ofColumn, Formula.pieces, sql_conditionPieces, direct,
      opening, subject, closing, single, Operand.text]
  · cases many : path.isQuantified with
    | true =>
        simp [Block.text, Block.pieces, Formula.ofColumn, Formula.pieces, Fragment.sql_cons,
          Fragment.sql_append, Fragment.sql_nil, sql_conditionPieces, direct, opening, subject,
          closing, many, Piece.text, links, String.append_assoc]
    | false =>
        simp [Block.text, Block.pieces, Formula.ofColumn, Formula.pieces, sql_conditionPieces,
          direct, opening, subject, closing, many, links]

theorem marks_around (unmarked : ∀ name ∈ path.column :: path.hops.flatMap Hop.names,
    '?' ∉ name.toList) : marks (path.opening used ++ path.subject used) = 0 ∧
      marks path.closing = 0 := by
  obtain ⟨column, hops⟩ := List.forall_mem_cons.mp unmarked
  have joined := Link.unmarked_ofHops .optionalObjects hops used
  have one : marks "1" = 0 := by decide
  have before : marks "EXISTS (" = 0 := by decide
  have between : marks " AND " = 0 := by decide
  have left : marks "(" = 0 := by decide
  have right : marks ")" = 0 := by decide
  have reference (slot : Nat) : marks (ColumnRef.mk slot path.column).text = 0 :=
    marks_reference column
  have opening : marks (path.opening used) = 0 := by
    unfold ColumnPath.opening
    split
    · have select : marks (Link.selectText "1" (path.links used)) = 0 :=
        Link.marks_selectText joined one
      rw [marks_append, marks_append, before, select, between]
    · rfl
  have subject : marks (path.subject used) = 0 := by
    unfold ColumnPath.subject
    split
    · exact reference 0
    · split
      · exact reference _
      · have select : marks (Link.selectText
            (ColumnRef.mk (used + path.hops.length) path.column).text (path.links used)) = 0 :=
          Link.marks_selectText joined (reference _)
        rw [Operand.text, marks_append, marks_append, left, select, right]
  refine ⟨?_, ?_⟩
  · rw [marks_append, opening, subject]
  · unfold closing
    split
    · exact right
    · rfl

end ColumnPath

namespace Sql.Block

/-- The values whose question marks stand in a block. -/
def values : Block → List Value
  | .glue _ => []
  | .column _ _ condition => condition.values
  | .related _ _ _ => []

/-- The names in a block have no question marks. -/
def Unmarked : Block → Prop
  | .glue text => text ∈ separators
  | .column _ path _ => ∀ name ∈ path.column :: path.hops.flatMap Hop.names, '?' ∉ name.toList
  | .related _ path _ => ∀ name ∈ path.hops.flatMap Hop.names, '?' ∉ name.toList

theorem marks_text {block : Block} (unmarked : block.Unmarked) :
    marks block.text = block.values.length := by
  cases block with
  | glue text =>
      have plain : ∀ text ∈ separators, marks text = 0 := by decide
      have none := plain text unmarked
      simpa [Block.text, pieces, Fragment.sql_cons, Fragment.sql_nil, Piece.text, values] using none
  | column used path condition =>
      obtain ⟨before, after⟩ := path.marks_around used unmarked
      rw [ColumnPath.text_block, marks_append, marks_append, before, after, marks_test,
        Nat.zero_add]
      rfl
  | related used path present =>
      have one : marks "1" = 0 := by decide
      have select := Link.marks_selectText (Link.unmarked_ofHops .required unmarked used) one
      have right : marks ")" = 0 := by decide
      have positive : marks "EXISTS (" = 0 := by decide
      have negative : marks "NOT EXISTS (" = 0 := by decide
      cases present <;>
        simp [Block.text, pieces, Formula.ofRelation, Formula.pieces, Fragment.sql_cons,
          Fragment.sql_nil, Piece.text, marks_append, select, right, positive, negative, values]

theorem marks_join {blocks : List Block} (unmarked : ∀ block ∈ blocks, block.Unmarked) :
    marks (String.join (blocks.map text)) = (blocks.flatMap values).length := by
  induction blocks with
  | nil => rfl
  | cons block rest ih =>
      obtain ⟨first, others⟩ := List.forall_mem_cons.mp unmarked
      rw [List.map_cons, String.join_cons, marks_append, marks_text first, ih others,
        List.flatMap_cons, List.length_append]

/-- Only conditions have values. -/
theorem values_flatMap (blocks : List Block) :
    blocks.flatMap values = (blocks.filterMap condition?).flatMap fun item => item.2.values := by
  induction blocks with
  | nil => rfl
  | cons block rest ih =>
      rw [List.flatMap_cons, ih]
      cases block <;> rfl

end Sql.Block

namespace Predicate

theorem values_numbered (used : Nat) (items : List Predicate) :
    ((numbered used items).flatMap fun item => item.2.values) = items.flatMap values := by
  induction items generalizing used with
  | nil => rfl
  | cons item rest ih => rw [numbered, List.flatMap_cons, ih, List.flatMap_cons]

theorem mem_of_mem_numbered {slot used : Nat} {item : Predicate} {items : List Predicate}
    (member : (slot, item) ∈ numbered used items) : item ∈ items := by
  induction items generalizing used with
  | nil => cases member
  | cons first rest ih =>
      rcases List.mem_cons.mp member with here | later
      · cases here
        exact List.mem_cons_self
      · exact List.mem_cons_of_mem first (ih later)

theorem names_of_mem_conditions {predicate item : Predicate} (inside : item ∈ predicate.conditions) :
    ∀ name ∈ item.names, name ∈ predicate.names := by
  induction predicate with
  | always => cases inside
  | column path condition =>
      cases List.mem_singleton.mp inside
      exact fun name named => named
  | related path present =>
      cases List.mem_singleton.mp inside
      exact fun name named => named
  | group connective items ih =>
      rw [conditions, listConditions_eq_flatMap] at inside
      obtain ⟨holder, member, here⟩ := List.mem_flatMap.mp inside
      exact fun name named => mem_listNames.mpr ⟨holder, member, ih holder member here name named⟩

theorem unmarked_blocks {predicate : Predicate}
    (unmarked : ∀ name ∈ predicate.names, '?' ∉ name.toList) :
    ∀ block ∈ predicate.blocks 0, block.Unmarked := by
  intro block member
  have condition {slot : Nat} {item : Predicate} (here : block.condition? = some (slot, item)) :
      ∀ name ∈ item.names, '?' ∉ name.toList := by
    have listed := List.mem_filterMap.mpr ⟨block, member, here⟩
    rw [conditions_blocks] at listed
    intro name named
    exact unmarked name (names_of_mem_conditions (mem_of_mem_numbered listed) name named)
  cases block with
  | glue text => exact mem_separators_of_mem_blocks predicate 0 member
  | column used path condition => exact condition rfl
  | related used path present => exact condition rfl

/-- A value of one of the items is the value at some place of its item. -/
theorem split_values {items : List Predicate} {index : Nat} {value : Value}
    (found : (items.flatMap values)[index]? = some value) :
    ∃ before item after place, items = before ++ item :: after ∧
      index = (before.flatMap values).length + place ∧ item.values[place]? = some value := by
  induction items generalizing index with
  | nil => cases found
  | cons item rest ih =>
      rw [List.flatMap_cons] at found
      by_cases inside : index < item.values.length
      · rw [List.getElem?_append_left inside] at found
        exact ⟨[], item, rest, index, rfl, (Nat.zero_add index).symm, found⟩
      · have beyond := Nat.le_of_not_lt inside
        rw [List.getElem?_append_right beyond] at found
        obtain ⟨before, holder, after, place, rfl, same, here⟩ := ih found
        refine ⟨item :: before, holder, after, place, rfl, ?_, here⟩
        rw [List.flatMap_cons, List.length_append, Nat.add_assoc, ← same,
          Nat.add_sub_of_le beyond]

/-- The question mark number `index` of the text stands in a condition on a path. In the text of this
condition alone it has the place that `value` has among the operands, and in front of the condition
stand the question marks of all operands of the conditions before. -/
inductive Placeholder (predicate : Predicate) (index : Nat) (value : Value) : Prop
  | intro (before : List Predicate) (path : ColumnPath) (condition : Condition)
      (after : List Predicate) (front head tail back : String)
      (cut : predicate.conditions = before ++ .column path condition :: after)
      (test : condition.test = head ++ "?" ++ tail)
      (text : predicate.fragment.sql = front ++
        (path.opening (listHops before).length ++ path.subject (listHops before).length ++
          (head ++ "?" ++ tail) ++ path.closing) ++ back)
      (earlier : marks front = (before.flatMap values).length)
      (operand : condition.values[marks head]? = some value)
      (position : index = marks (front ++
        (path.opening (listHops before).length ++ path.subject (listHops before).length ++ head)))

theorem placeholder_of_bind {predicate : Predicate}
    (unmarked : ∀ name ∈ predicate.names, '?' ∉ name.toList) {index : Nat} {value : Value}
    (bound : predicate.values[index]? = some value) : predicate.Placeholder index value := by
  rw [values_eq_flatMap] at bound
  obtain ⟨before, item, after, place, cut, same, operand⟩ := split_values bound
  obtain ⟨front, block, back, all, earlier, here⟩ := split_blocks cut
  have clean := unmarked_blocks unmarked
  rw [all, List.forall_mem_append, List.forall_mem_cons] at clean
  obtain ⟨cleanFront, cleanBlock, -⟩ := clean
  cases block with
  | glue text => cases here
  | related used path present =>
      cases here
      cases operand
  | column used path condition =>
      cases here
      have within : place < marks condition.test := by
        rw [marks_test]
        exact (List.getElem?_eq_some_iff.mp operand).1
      obtain ⟨head, tail, test, count⟩ := exists_mark within
      have marksFront : marks (String.join (front.map Block.text)) =
          (before.flatMap values).length := by
        rw [Block.marks_join cleanFront, Block.values_flatMap, earlier, values_numbered]
      refine .intro before path condition after (String.join (front.map Block.text)) head tail
        (String.join (back.map Block.text)) cut test ?_ marksFront ?_ ?_
      · rw [← join_blocks, all, List.map_append, List.map_cons, String.join_append,
          String.join_cons, ColumnPath.text_block, test]
        simp only [String.append_assoc]
      · rw [count]
        exact operand
      · rw [marks_append, marks_append, marksFront, (path.marks_around _ cleanBlock).1, count, same,
          Nat.zero_add]

/-- Over names without question marks there are as many question marks as binds. The binds are the
values of the conditions in the order of the text, and each of them is the operand at its question
mark. -/
theorem placeholders_aligned {schema : Schema} (clean : ∀ name ∈ schema.names, '?' ∉ name.toList)
    {predicate : Predicate} (drawn : ∀ name ∈ predicate.names, name ∈ schema.names) :
    marks predicate.fragment.sql = predicate.fragment.binds.length ∧
      predicate.fragment.binds = predicate.conditions.flatMap values ∧
      ∀ index value, predicate.fragment.binds[index]? = some value →
        predicate.Placeholder index value := by
  have unmarked : ∀ name ∈ predicate.names, '?' ∉ name.toList :=
    fun name named => clean name (drawn name named)
  rw [binds_fragment]
  refine ⟨?_, values_eq_flatMap predicate, ?_⟩
  · rw [← join_blocks, Block.marks_join (unmarked_blocks unmarked), Block.values_flatMap,
      conditions_blocks, values_numbered, ← values_eq_flatMap]
  · intro index value bound
    exact placeholder_of_bind unmarked bound

/-- A name across two hops. -/
def partnerName : ColumnPath :=
  ⟨"attributes.partner.name",
    [⟨"attributes", "partner_attributes", ⟨"id", "partner_id"⟩, .many⟩,
      ⟨"partner", "partners", ⟨"partner_id", "id"⟩, .one⟩], "name", .text⟩

/-- Conditions with two operands, with one and with none, and a group of nothing. -/
def nested : Predicate :=
  let contact : Hop := ⟨"contact", "contacts", ⟨"contact_id", "id"⟩, .one⟩
  let attributes : Hop := ⟨"attributes", "partner_attributes", ⟨"id", "partner_id"⟩, .many⟩
  .group .any [
    .group .all [
      .column ⟨"contact.country", [contact], "country", .text⟩ (.within [.text "DE", .text "?"]),
      .related ⟨"attributes", [attributes]⟩ false],
    .group .all [],
    .column partnerName (.contains "50%"),
    .column ⟨"tier", [], "tier", .integer⟩ (.between (.integer 1) (.integer 3))]

theorem placeholders_aligned_nested :
    (∀ name ∈ Directory.schema.names, '?' ∉ name.toList) ∧
      (∀ name ∈ nested.names, name ∈ Directory.schema.names) ∧
      marks nested.fragment.sql = 5 ∧ nested.Placeholder 4 (.integer 3) := by
  have clean : ∀ name ∈ Directory.schema.names, '?' ∉ name.toList := by decide
  have drawn : ∀ name ∈ nested.names, name ∈ Directory.schema.names := by decide
  obtain ⟨count, -, each⟩ := placeholders_aligned clean drawn
  exact ⟨clean, drawn, count, each 4 _ rfl⟩

end Predicate

end PartnerSearch
