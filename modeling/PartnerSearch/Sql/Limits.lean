import PartnerSearch.Sql.Evaluation

set_option autoImplicit false

/-!
What the engine refuses to execute. It reads a statement from the left and counts operands and the
height of expressions, looks its tables up, and resolves each subquery within the condition around it.
A pattern that is too long is refused when a row comes to it. Paths cross fewer tables than a join may
have.
-/

namespace PartnerSearch

namespace Sql

/-- What a statement has too much of. -/
inductive Excess where
  | operands
  | height
  | references (table : String)
  | pattern
  deriving DecidableEq, Repr

/-- The most operands of a statement. -/
def operandLimit : Nat := 32766

/-- The greatest height of an expression. -/
def heightLimit : Nat := 1000

/-- How often a statement may name a table. -/
def referenceLimit : Nat := 65534

def Excess.message : Excess → String
  | .operands => "too many SQL variables"
  | .height => "Expression tree is too large (maximum depth " ++ toString heightLimit ++ ")"
  | .references table =>
    "too many references to \"" ++ table ++ "\": max " ++ toString (referenceLimit + 1)
  | .pattern => "LIKE or GLOB pattern too complex"

end Sql

namespace Condition

/-- How many operands stand in the text of the condition. -/
def operandCount : Condition → Nat
  | .compare _ _ => 1
  | .within values => values.length
  | .contains _ => 1
  | .set => 0
  | .notSet => 0
  | .between _ _ => 2

def isTooLong : Condition → Bool
  | .contains needle => Sql.Pattern.isTooLong (Sql.Pattern.containing needle)
  | _ => false

end Condition

namespace Sql

/-- The height counts the nodes on the way down: a column is an alias and a name under a dot. -/
def columnHeight : Nat := 2

def equalityHeight : Nat := columnHeight + 1

def Operand.height : Operand → Nat
  | .column _ => columnHeight
  | .subquery _ _ => equalityHeight + 1

/-- The height of what has been read, and the operands so far. -/
structure Parsed where
  height : Nat
  operands : Nat
  deriving DecidableEq, Repr

/-- The operands of a condition after `used` others. -/
def takeOperands (used : Nat) (condition : Condition) : Except Excess Nat :=
  if operandLimit < used + condition.operandCount then .error .operands
  else .ok (used + condition.operandCount)

/-- A connective is a node over all that is before it and the next item. -/
def Parsed.joined (before next : Parsed) : Except Excess Parsed :=
  let height := if before.height = 0 then next.height else max before.height next.height + 1
  if heightLimit < height then .error .height else .ok ⟨height, next.operands⟩

namespace Formula

mutual

/-- Reads a formula after `used` operands. The first excess in the text is told. -/
def parse (used : Nat) : Formula → Except Excess Parsed
  | .always => .ok ⟨columnHeight, used⟩
  | .test operand condition => do return ⟨operand.height + 1, ← takeOperands used condition⟩
  | .existsWhere _ _ condition => do return ⟨equalityHeight + 2, ← takeOperands used condition⟩
  | .present _ => .ok ⟨equalityHeight + 1, used⟩
  | .absent _ => .ok ⟨equalityHeight + 2, used⟩
  | .group _ items => parseItems ⟨0, used⟩ items

/-- Reads the items of a group after those before. -/
def parseItems (before : Parsed) : List Formula → Except Excess Parsed
  | [] => .ok before
  | item :: rest => do
    let next ← item.parse before.operands
    let joined ← before.joined next
    parseItems joined rest

end

mutual

/-- The heights of the conditions of subqueries, to which each further link adds its equality. -/
def subqueryHeights : Formula → List Nat
  | .always => []
  | .test (.column _) _ => []
  | .test (.subquery _ links) _ => [equalityHeight + (links.length - 1)]
  | .existsWhere links _ _ => [equalityHeight + 1 + (links.length - 1)]
  | .present links => [equalityHeight + (links.length - 1)]
  | .absent links => [equalityHeight + (links.length - 1)]
  | .group _ items => listSubqueryHeights items

def listSubqueryHeights : List Formula → List Nat
  | [] => []
  | item :: rest => item.subqueryHeights ++ listSubqueryHeights rest

end

/-- Resolves the subqueries of a formula that is `height` high. -/
def resolve (formula : Formula) (height : Nat) : Except Excess Unit :=
  if formula.subqueryHeights.any fun inner => heightLimit < height + inner then .error .height
  else .ok ()

/-- Whether an item leaves the truth of its group to the items after it. -/
def goesOn (connective : Connective) (holds : Bool) : Bool :=
  match connective with
  | .all => holds
  | .any => !holds

mutual

/-- Whether a row comes to a pattern that is too long. Items are tested from the left, until one of
them decides. -/
def overruns (tables : Tables) (scope : Scope) : Formula → Bool
  | .always => false
  | .test _ condition => condition.isTooLong
  | .existsWhere links _ condition =>
    condition.isTooLong && !(Link.select tables scope links).isEmpty
  | .present _ => false
  | .absent _ => false
  | .group connective items => listOverruns tables scope connective items

def listOverruns (tables : Tables) (scope : Scope) (connective : Connective) :
    List Formula → Bool
  | [] => false
  | item :: rest =>
    item.overruns tables scope ||
      goesOn connective (item.eval tables scope).holds && listOverruns tables scope connective rest

end

mutual

/-- What must hold for a row to be selected, one by one. -/
def conjuncts : Formula → List Formula
  | .group .all items => listConjuncts items
  | formula => [formula]

def listConjuncts : List Formula → List Formula
  | [] => []
  | item :: rest => item.conjuncts ++ listConjuncts rest

end

/-- The conjuncts as they are tested, those with a subquery behind the others. This is the plan of an
engine without indexes. One that seeks a name, a status or an id, or puts the value of an equality in
place of the column, may come to more patterns or to fewer. -/
def tested (formula : Formula) : List Formula :=
  let (plain, nested) := formula.conjuncts.partition fun item => item.links.isEmpty
  plain ++ nested

end Formula

end Sql

end PartnerSearch
