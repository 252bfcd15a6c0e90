import PartnerSearch.Proofs.Predicate.Fold
import PartnerSearch.Sql.Fragment

set_option autoImplicit false

/-!
What the text of a predicate is made of. A bare predicate keeps tables, joins, columns and the kinds
of its conditions, and has neither values nor names of fields; its text is that of the predicate.
-/

namespace PartnerSearch

open Sql

namespace Condition

/-- The value in the place of every value. -/
def blank : Value := .boolean false

def bare : Condition → Condition
  | .compare comparison _ => .compare comparison blank
  | .within values => .within (values.map fun _ => blank)
  | .contains _ => .contains ""
  | .set => .set
  | .notSet => .notSet
  | .between _ _ => .between blank blank

end Condition

def Hop.bare (hop : Hop) : Hop := { hop with field := "" }

def ColumnPath.bare (path : ColumnPath) : ColumnPath :=
  ⟨"", path.hops.map Hop.bare, path.column, .text⟩

def RelationPath.bare (path : RelationPath) : RelationPath := ⟨"", path.hops.map Hop.bare⟩

namespace Predicate

mutual

def bare : Predicate → Predicate
  | .always => .always
  | .column path condition => .column path.bare condition.bare
  | .related path present => .related path.bare present
  | .group connective items => .group connective (listBare items)

def listBare : List Predicate → List Predicate
  | [] => []
  | item :: rest => item.bare :: listBare rest

end

theorem listBare_eq_map (items : List Predicate) : listBare items = items.map bare := by
  induction items with
  | nil => rfl
  | cons item rest ih => rw [listBare, ih, List.map_cons]

theorem isAlways_bare (predicate : Predicate) : predicate.bare.isAlways = predicate.isAlways := by
  cases predicate <;> rfl

theorem bare_ofItems (connective : Connective) (items : List Predicate) :
    (ofItems connective items).bare = ofItems connective (items.map bare) := by
  match items with
  | [] => rfl
  | [item] => rfl
  | first :: second :: rest =>
      have same := listBare_eq_map (first :: second :: rest)
      exact congrArg (group connective) same

/-- Only whether an item always holds counts in folding. -/
theorem bare_fold (connective : Connective) (items : List Predicate) :
    (fold connective items).bare = fold connective (items.map bare) := by
  have same : isAlways ∘ bare = isAlways := funext isAlways_bare
  cases connective with
  | all =>
      rw [fold, fold, bare_ofItems, List.filter_map]
      congr 3
      funext item
      exact congrArg not (isAlways_bare item).symm
  | any =>
      rw [fold, fold, List.any_map, same]
      split
      · rfl
      · exact bare_ofItems .any items

theorem hopCount_bare (predicate : Predicate) : predicate.bare.hopCount = predicate.hopCount := by
  induction predicate with
  | always => rfl
  | column path condition => exact List.length_map Hop.bare
  | related path present => exact List.length_map Hop.bare
  | group connective items ih =>
      rw [bare, hopCount, hopCount]
      clear connective
      induction items with
      | nil => rfl
      | cons item rest later =>
          rw [listBare, listHopCount, listHopCount, ih item List.mem_cons_self,
            later fun other member => ih other (List.mem_cons_of_mem item member)]

end Predicate

namespace Sql

/-- What of a piece is text of its own; nothing is for an operand. -/
def Piece.word? : Piece → Option String
  | .word text => some text
  | .operand _ => none

namespace Fragment

theorem sql_eq_of_words {pieces others : List Piece}
    (same : pieces.map Piece.word? = others.map Piece.word?) :
    (ofPieces pieces).sql = (ofPieces others).sql := by
  have text (piece : Piece) : piece.text = piece.word?.getD "?" := by cases piece <;> rfl
  have texts (pieces : List Piece) :
      pieces.map Piece.text = (pieces.map Piece.word?).map fun word => word.getD "?" := by
    rw [List.map_map]
    exact List.map_congr_left fun piece _ => text piece
  rw [ofPieces, ofPieces, texts, texts, same]

theorem length_binds_eq_of_words {pieces others : List Piece}
    (same : pieces.map Piece.word? = others.map Piece.word?) :
    (ofPieces pieces).binds.length = (ofPieces others).binds.length := by
  have count (pieces : List Piece) :
      (ofPieces pieces).binds.length = (pieces.map Piece.word?).countP Option.isNone := by
    rw [List.countP_map]
    induction pieces with
    | nil => rfl
    | cons piece rest ih =>
        cases piece with
        | word text =>
            rw [List.countP_cons_of_neg (by simp [Piece.word?])]
            exact ih
        | operand value =>
            rw [List.countP_cons_of_pos (by simp [Piece.word?])]
            exact congrArg (· + 1) ih
  rw [count, count, same]

end Fragment

/-- What separates lists is mapped with them. -/
theorem map_intercalate {α β : Type} (change : α → β) (between : List α) (lists : List (List α)) :
    (between.intercalate lists).map change =
      (between.map change).intercalate (lists.map (List.map change)) := by
  match lists with
  | [] => rfl
  | [list] => simp
  | first :: second :: rest =>
      have later := map_intercalate change between (second :: rest)
      rw [List.map_cons] at later
      simp only [List.intercalate_cons_cons, List.map_append, List.map_cons, later]

theorem listPieces_eq_intercalate (values : List Value) :
    listPieces values = [.word ", "].intercalate (values.map fun value => [.operand value]) := by
  match values with
  | [] => rfl
  | [value] => rfl
  | value :: next :: rest =>
      rw [listPieces, listPieces_eq_intercalate (next :: rest)]
      simp only [List.map_cons, List.intercalate_cons_cons, List.cons_append, List.nil_append]

theorem Formula.itemPieces_eq_intercalate (between : String) (items : List Formula) :
    itemPieces between items = [.word between].intercalate (items.map pieces) := by
  match items with
  | [] => rfl
  | [item] => simp [itemPieces]
  | first :: second :: rest =>
      rw [itemPieces, itemPieces_eq_intercalate between (second :: rest)]
      simp only [List.map_cons, List.intercalate_cons_cons, List.cons_append, List.nil_append,
        List.append_assoc]

/-- The words of a list of values tell no more than how many there are. -/
theorem words_listPieces (values : List Value) :
    (listPieces values).map Piece.word? =
      [some ", "].intercalate (List.replicate values.length [none]) := by
  rw [listPieces_eq_intercalate, map_intercalate, List.map_map, ← List.map_const]
  rfl

theorem words_conditionPieces_bare (subject : String) (condition : Condition) :
    (conditionPieces subject condition.bare).map Piece.word? =
      (conditionPieces subject condition).map Piece.word? := by
  cases condition with
  | within values =>
      simp only [Condition.bare, conditionPieces, List.cons_append, List.map_cons, List.map_append,
        words_listPieces, List.length_map]
  | compare comparison value => rfl
  | contains needle => rfl
  | set => rfl
  | notSet => rfl
  | between low high => rfl

namespace Link

theorem ofFurtherHops_bare (mode : JoinMode) (used : Nat) (hops : List Hop) :
    ofFurtherHops mode used (hops.map Hop.bare) = ofFurtherHops mode used hops := by
  induction hops generalizing used with
  | nil => rfl
  | cons hop rest ih =>
      rw [List.map_cons, ofFurtherHops, ofFurtherHops, ih]
      rfl

theorem ofHops_bare (mode : JoinMode) (used : Nat) (hops : List Hop) :
    ofHops mode used (hops.map Hop.bare) = ofHops mode used hops := by
  cases hops with
  | nil => rfl
  | cons hop rest =>
      rw [List.map_cons, ofHops, ofHops, ofFurtherHops_bare]
      rfl

end Link

namespace Formula

theorem ofColumn_bare (used : Nat) (path : ColumnPath) (condition : Condition) :
    ofColumn used path.bare condition = ofColumn used path condition := by
  have quantified : path.bare.isQuantified = path.isQuantified := List.any_map
  unfold ofColumn
  rw [quantified]
  simp only [ColumnPath.bare, List.isEmpty_map, List.length_map, Link.ofHops_bare]

theorem words_ofColumn_bare (used : Nat) (path : ColumnPath) (condition : Condition) :
    (ofColumn used path condition.bare).pieces.map Piece.word? =
      (ofColumn used path condition).pieces.map Piece.word? := by
  unfold ofColumn
  dsimp only
  split
  · exact words_conditionPieces_bare _ condition
  · split
    · simp only [pieces, List.cons_append, List.map_cons, List.map_append,
        words_conditionPieces_bare]
    · exact words_conditionPieces_bare _ condition

theorem words_itemPieces (between : String) (items : List Formula) :
    (itemPieces between items).map Piece.word? =
      [some between].intercalate (items.map fun item => item.pieces.map Piece.word?) := by
  rw [itemPieces_eq_intercalate, map_intercalate, List.map_map]
  rfl

theorem words_ofPredicate_bare (predicate : Predicate) (used : Nat) :
    (ofPredicate used predicate.bare).pieces.map Piece.word? =
      (ofPredicate used predicate).pieces.map Piece.word? := by
  induction predicate generalizing used with
  | always => rfl
  | column path condition =>
      rw [Predicate.bare, ofPredicate, ofPredicate, ofColumn_bare, words_ofColumn_bare]
  | related path wanted =>
      simp only [Predicate.bare, ofPredicate, ofRelation, RelationPath.bare, Link.ofHops_bare]
  | group connective items ih =>
      have each : (ofPredicates used (Predicate.listBare items)).map
            (fun item => item.pieces.map Piece.word?) =
          (ofPredicates used items).map fun item => item.pieces.map Piece.word? := by
        clear connective
        induction items generalizing used with
        | nil => rfl
        | cons item rest later =>
            rw [Predicate.listBare, ofPredicates, ofPredicates, List.map_cons, List.map_cons,
              Predicate.hopCount_bare, ih item List.mem_cons_self,
              later fun other member => ih other (List.mem_cons_of_mem item member)]
      simp only [Predicate.bare, ofPredicate, pieces, List.cons_append, List.map_cons,
        List.map_append, words_itemPieces, each]

end Formula

end Sql

namespace Predicate

theorem sql_fragment_bare (predicate : Predicate) :
    predicate.bare.fragment.sql = predicate.fragment.sql :=
  Fragment.sql_eq_of_words (Formula.words_ofPredicate_bare predicate 0)

theorem length_binds_fragment_bare (predicate : Predicate) :
    predicate.bare.fragment.binds.length = predicate.fragment.binds.length :=
  Fragment.length_binds_eq_of_words (Formula.words_ofPredicate_bare predicate 0)

end Predicate

end PartnerSearch
