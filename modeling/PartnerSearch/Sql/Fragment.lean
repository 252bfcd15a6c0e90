import PartnerSearch.Sql.Formula
import PartnerSearch.Sql.Pattern

set_option autoImplicit false

/-!
The text of a formula. Operands are never part of the text: a placeholder stands for each of them,
and their values follow in the order of the placeholders.
-/

namespace PartnerSearch.Sql

/-- A part of the text, or a value with its placeholder. -/
inductive Piece where
  | word (text : String)
  | operand (value : Value)
  deriving DecidableEq, Repr

namespace Piece

def text : Piece → String
  | .word text => text
  | .operand _ => "?"

def value? : Piece → Option Value
  | .word _ => none
  | .operand value => some value

end Piece

structure Fragment where
  sql : String
  binds : List Value
  deriving DecidableEq, Repr

def Fragment.ofPieces (pieces : List Piece) : Fragment :=
  ⟨String.join (pieces.map Piece.text), pieces.filterMap Piece.value?⟩

namespace Fragment

theorem sql_nil : (ofPieces []).sql = "" := rfl

theorem sql_cons (piece : Piece) (rest : List Piece) :
    (ofPieces (piece :: rest)).sql = piece.text ++ (ofPieces rest).sql := by
  rw [ofPieces, List.map_cons, String.join_cons]
  rfl

theorem sql_append (pieces others : List Piece) :
    (ofPieces (pieces ++ others)).sql = (ofPieces pieces).sql ++ (ofPieces others).sql := by
  rw [ofPieces, List.map_append, String.join_append]
  rfl

end Fragment

def aliasName (slot : Nat) : String := "t" ++ toString slot

def ColumnRef.text (reference : ColumnRef) : String :=
  aliasName reference.slot ++ "." ++ reference.column

namespace Link

def source (link : Link) : String := link.table ++ " " ++ aliasName link.slot

/-- The equality by which a row belongs to the row before. -/
def equality (link : Link) : String :=
  (ColumnRef.mk link.slot link.remote).text ++ " = " ++ (ColumnRef.mk link.parent link.home).text

def joinWord : JoinKind → String
  | .inner => " JOIN "
  | .left => " LEFT JOIN "

def joined (link : Link) : String :=
  joinWord link.kind ++ link.source ++ " ON " ++ link.equality

/-- The tables from the first link on. -/
def fromText : List Link → String
  | [] => ""
  | first :: rest => first.source ++ String.join (rest.map joined)

/-- What ties the first link to the row outside. -/
def whereText : List Link → String
  | [] => ""
  | first :: _ => first.equality

def selectText (what : String) (links : List Link) : String :=
  "SELECT " ++ what ++ " FROM " ++ fromText links ++ " WHERE " ++ whereText links

end Link

def Operand.text : Operand → String
  | .column reference => reference.text
  | .subquery reference links => "(" ++ Link.selectText reference.text links ++ ")"

def comparisonWord : Comparison → String
  | .equal => "="
  | .notEqual => "IS NOT"
  | .greater => ">"
  | .greaterOrEqual => ">="
  | .less => "<"
  | .lessOrEqual => "<="

/-- Values with commas between them. -/
def listPieces : List Value → List Piece
  | [] => []
  | [value] => [.operand value]
  | value :: next :: rest => .operand value :: .word ", " :: listPieces (next :: rest)

/-- A condition after the text of what it is put on. -/
def conditionPieces (subject : String) : Condition → List Piece
  | .compare comparison value =>
    [.word (subject ++ " " ++ comparisonWord comparison ++ " "), .operand value]
  | .within values => .word (subject ++ " IN (") :: listPieces values ++ [.word ")"]
  | .contains needle =>
    [.word (subject ++ " LIKE "), .operand (.text (Pattern.containing needle)),
      .word " ESCAPE '\\'"]
  | .set => [.word (subject ++ " IS NOT NULL")]
  | .notSet => [.word (subject ++ " IS NULL")]
  | .between low high =>
    [.word (subject ++ " BETWEEN "), .operand low, .word " AND ", .operand high]

def connectiveWord : Connective → String
  | .all => " AND "
  | .any => " OR "

namespace Formula

mutual

def pieces : Formula → List Piece
  | .always => [.word "1 = 1"]
  | .test operand condition => conditionPieces operand.text condition
  | .existsWhere links reference condition =>
    .word ("EXISTS (" ++ Link.selectText "1" links ++ " AND ") ::
      conditionPieces reference.text condition ++ [.word ")"]
  | .present links => [.word ("EXISTS (" ++ Link.selectText "1" links ++ ")")]
  | .absent links => [.word ("NOT EXISTS (" ++ Link.selectText "1" links ++ ")")]
  | .group connective items =>
    .word "(" :: itemPieces (connectiveWord connective) items ++ [.word ")"]

/-- Items with a connective between them. -/
def itemPieces (between : String) : List Formula → List Piece
  | [] => []
  | [item] => item.pieces
  | item :: next :: rest => item.pieces ++ .word between :: itemPieces between (next :: rest)

end

def fragment (formula : Formula) : Fragment := .ofPieces formula.pieces

end Formula

end PartnerSearch.Sql

namespace PartnerSearch.Predicate

/-- The predicate as a condition on rows of the root table. -/
def formula (predicate : Predicate) : Sql.Formula := .ofPredicate 0 predicate

def fragment (predicate : Predicate) : Sql.Fragment := predicate.formula.fragment

end PartnerSearch.Predicate
