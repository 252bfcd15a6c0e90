import PartnerSearch.Sql.Cell
import PartnerSearch.Sql.Formula
import PartnerSearch.Sql.Pattern

set_option autoImplicit false

/-! The truth of a formula for a row of the root table. -/

namespace PartnerSearch.Sql

/-- The cells of a row by column. -/
abbrev Row := String → Cell

/-- The rows of every table. -/
abbrev Tables := String → List Row

/-- The row that each alias stands for. -/
abbrev Scope := Nat → Row

/-- The row of an absent object. -/
def Row.unset : Row := fun _ => .null

namespace Scope

def ofRoot (row : Row) : Scope := fun slot => if slot = 0 then row else Row.unset

def bind (scope : Scope) (slot : Nat) (row : Row) : Scope :=
  fun other => if other = slot then row else scope other

def read (scope : Scope) (reference : ColumnRef) : Cell := scope reference.slot reference.column

@[simp] theorem bind_same (scope : Scope) (slot : Nat) (row : Row) :
    scope.bind slot row slot = row := by simp [bind]

theorem bind_other (scope : Scope) {slot other : Nat} (row : Row) (differs : other ≠ slot) :
    scope.bind slot row other = scope other := by simp [bind, differs]

end Scope

namespace Link

/-- Whether the row of the link belongs to the row before. -/
def belongs (link : Link) (scope : Scope) : Bool :=
  ((scope link.slot link.remote).equal (scope link.parent link.home)).holds

def rows (link : Link) (tables : Tables) (scope : Scope) : List Scope :=
  (tables link.table).map (scope.bind link.slot)

def join (link : Link) (tables : Tables) (scope : Scope) : List Scope :=
  let found := (link.rows tables scope).filter link.belongs
  match link.kind with
  | .inner => found
  | .left => if found.isEmpty then [scope.bind link.slot Row.unset] else found

def joinAll (tables : Tables) : List Link → List Scope → List Scope
  | [], scopes => scopes
  | link :: rest, scopes => joinAll tables rest (scopes.flatMap (link.join tables))

/-- The rows that a subquery over links yields. -/
def select (tables : Tables) (scope : Scope) : List Link → List Scope
  | [] => [scope]
  | first :: rest => (joinAll tables rest (first.rows tables scope)).filter first.belongs

end Link

/-- A column, or the first row of a subquery; without a row it is unset. -/
def Operand.read (tables : Tables) (scope : Scope) : Operand → Cell
  | .column reference => scope.read reference
  | .subquery reference links =>
    ((Link.select tables scope links).head?.map fun found => found.read reference).getD .null

def compare (comparison : Comparison) (cell other : Cell) : Truth :=
  match comparison with
  | .equal => cell.equal other
  | .notEqual => some !(cell.same other)
  | .greater => (cell.order? other).map fun order => order == .gt
  | .greaterOrEqual => (cell.order? other).map fun order => order != .lt
  | .less => (cell.order? other).map fun order => order == .lt
  | .lessOrEqual => (cell.order? other).map fun order => order != .gt

/-- Only columns of text are asked for a pattern; what the text of a number would match is left out. A
pattern that is too long is not applied. -/
def like (pattern : String) (cell : Cell) : Truth :=
  if Pattern.isTooLong pattern then none
  else
    match cell with
    | .null => none
    | .text text => some (matchesPattern pattern text)
    | _ => some false

def satisfies (condition : Condition) (cell : Cell) : Truth :=
  match condition with
  | .compare comparison value => compare comparison cell (.ofValue value)
  | .within values => Truth.any (values.map fun value => cell.equal (.ofValue value))
  | .contains needle => like (Pattern.containing needle) cell
  | .set => some (cell != .null)
  | .notSet => some (cell == .null)
  | .between low high =>
    (compare .greaterOrEqual cell (.ofValue low)).and (compare .lessOrEqual cell (.ofValue high))

namespace Formula

mutual

def eval (tables : Tables) (scope : Scope) : Formula → Truth
  | .always => some true
  | .test operand condition => satisfies condition (operand.read tables scope)
  | .existsWhere links reference condition =>
    some ((Link.select tables scope links).any fun found =>
      (satisfies condition (found.read reference)).holds)
  | .present links => some !(Link.select tables scope links).isEmpty
  | .absent links => some (Link.select tables scope links).isEmpty
  | .group .all items => Truth.all (listEval tables scope items)
  | .group .any items => Truth.any (listEval tables scope items)

def listEval (tables : Tables) (scope : Scope) : List Formula → List Truth
  | [] => []
  | item :: rest => item.eval tables scope :: listEval tables scope rest

end

theorem listEval_eq_map (tables : Tables) (scope : Scope) (items : List Formula) :
    listEval tables scope items = items.map (eval tables scope) := by
  induction items with
  | nil => rfl
  | cons item rest ih => rw [listEval, ih, List.map_cons]

/-- Whether a row of the root table is selected. -/
def selects (formula : Formula) (tables : Tables) (row : Row) : Bool :=
  (formula.eval tables (Scope.ofRoot row)).holds

end Formula

end PartnerSearch.Sql
