import PartnerSearch.Proofs.Sql.Lexer
import PartnerSearch.Sql.Evaluation

set_option autoImplicit false

/-!
Conditions of SQL: how they are read from tokens, and their truth. AND binds tighter than OR, NOT
tighter than both; tables are joined from left to right, and a query in parentheses sees the tables
around it.
-/

namespace PartnerSearch.Sql

mutual

inductive Scalar where
  | constant (cell : Cell)
  | column (table name : String)
  | subquery (what : Scalar) (source : Source) (condition : Test)

/-- Tables under their aliases. -/
inductive Source where
  | table (name label : String)
  | join (kind : JoinKind) (left : Source) (name label : String) (condition : Test)

inductive Test where
  | compare (comparison : Comparison) (left right : Scalar)
  | isNull (scalar : Scalar)
  | isNotNull (scalar : Scalar)
  | among (scalar : Scalar) (cells : List Cell)
  | like (scalar : Scalar) (pattern : String)
  | between (scalar low high : Scalar)
  | exists (source : Source) (condition : Test)
  | not (test : Test)
  | and (left right : Test)
  | or (left right : Test)

end

/-- The aliases that a source brings. -/
def Source.aliases : Source → List String
  | .table _ label => [label]
  | .join _ left _ label _ => label :: left.aliases

mutual

/-- Every column belongs to a table in sight, and no two tables of a query share an alias. -/
def Scalar.Resolves (known : List String) : Scalar → Prop
  | .constant _ => True
  | .column table _ => table ∈ known
  | .subquery what source condition =>
    source.Resolves known ∧ what.Resolves (source.aliases ++ known) ∧
      condition.Resolves (source.aliases ++ known)

def Source.Resolves (known : List String) : Source → Prop
  | .table _ _ => True
  | .join _ left _ label condition =>
    left.Resolves known ∧ label ∉ left.aliases ∧
      condition.Resolves (label :: left.aliases ++ known)

def Test.Resolves (known : List String) : Test → Prop
  | .compare _ left right => left.Resolves known ∧ right.Resolves known
  | .isNull scalar => scalar.Resolves known
  | .isNotNull scalar => scalar.Resolves known
  | .among scalar _ => scalar.Resolves known
  | .like scalar _ => scalar.Resolves known
  | .between scalar low high => scalar.Resolves known ∧ low.Resolves known ∧ high.Resolves known
  | .exists source condition =>
    source.Resolves known ∧ condition.Resolves (source.aliases ++ known)
  | .not test => test.Resolves known
  | .and left right => left.Resolves known ∧ right.Resolves known
  | .or left right => left.Resolves known ∧ right.Resolves known

end

/-- The row under every alias. -/
abbrev Aliases := String → Row

def Aliases.bind (aliases : Aliases) (label : String) (row : Row) : Aliases :=
  fun other => if other = label then row else aliases other

def Truth.not (truth : Truth) : Truth := truth.map fun decided => !decided

mutual

/-- The cell of the first row, or an unset one, for a query. -/
def Scalar.eval (tables : Tables) : Scalar → Aliases → Cell
  | .constant cell, _ => cell
  | .column table name, aliases => aliases table name
  | .subquery what source condition, aliases =>
    let found := (source.rows tables aliases).filter fun row => (condition.eval tables row).holds
    (found.head?.map (what.eval tables)).getD .null

/-- Every combination of rows for which the joins hold. -/
def Source.rows (tables : Tables) : Source → Aliases → List Aliases
  | .table name label, aliases => (tables name).map (aliases.bind label)
  | .join kind left name label condition, aliases =>
    (left.rows tables aliases).flatMap fun row =>
      let found := ((tables name).map (row.bind label)).filter fun next =>
        (condition.eval tables next).holds
      match kind with
      | .inner => found
      | .left => if found.isEmpty then [row.bind label Row.unset] else found

def Test.eval (tables : Tables) : Test → Aliases → Truth
  | .compare comparison left right, aliases =>
    Sql.compare comparison (left.eval tables aliases) (right.eval tables aliases)
  | .isNull scalar, aliases => some (scalar.eval tables aliases == .null)
  | .isNotNull scalar, aliases => some (scalar.eval tables aliases != .null)
  | .among scalar cells, aliases => Truth.any (cells.map (scalar.eval tables aliases).equal)
  | .like scalar pattern, aliases => Sql.like pattern (scalar.eval tables aliases)
  | .between scalar low high, aliases =>
    (Sql.compare .greaterOrEqual (scalar.eval tables aliases) (low.eval tables aliases)).and
      (Sql.compare .lessOrEqual (scalar.eval tables aliases) (high.eval tables aliases))
  | .exists source condition, aliases =>
    some ((source.rows tables aliases).any fun row => (condition.eval tables row).holds)
  | .not test, aliases => (test.eval tables aliases).not
  | .and left right, aliases => (left.eval tables aliases).and (right.eval tables aliases)
  | .or left right, aliases => (left.eval tables aliases).or (right.eval tables aliases)

end

/-- Reads from the front of tokens. -/
abbrev Reader (α : Type) := List Token → Option (α × List Token)

def Token.constant? : Token → Option Cell
  | .number size => if size < 0x8000000000000000 then some (.integer (.ofNat size)) else none
  | .literal text => some (.text text)
  | .value bound => some (.ofValue bound)
  | .keyword .NULL => some .null
  | _ => none

/-- A column or a constant. -/
def readScalar : Reader Scalar
  | .name table :: .dot :: .name column :: rest => some (.column table column, rest)
  | token :: rest => token.constant?.map fun cell => (.constant cell, rest)
  | [] => none

/-- Constants up to the end of the parentheses. -/
def readConstants : Reader (List Cell)
  | token :: .closing :: rest => token.constant?.map fun cell => ([cell], rest)
  | token :: .comma :: rest => do
    let cell ← token.constant?
    let (others, after) ← readConstants rest
    return (cell :: others, after)
  | _ => none

/-- Tests joined by a keyword. -/
def readChain (keyword : Keyword) (join : Test → Test → Test) (item : Reader Test) :
    Nat → Reader Test
  | 0, _ => none
  | fuel + 1, tokens => do
    let (first, rest) ← item tokens
    match rest with
    | .keyword next :: rest =>
      if next = keyword then
        let (others, after) ← readChain keyword join item fuel rest
        return (join first others, after)
      else return (first, .keyword next :: rest)
    | rest => return (first, rest)

/-- The joins after a source. -/
def readJoins (test : Reader Test) : Nat → Source → Reader Source
  | 0, _, _ => none
  | fuel + 1, left, tokens =>
    match tokens with
    | .keyword .JOIN :: .name table :: .name label :: .keyword .ON :: rest => do
      let (condition, after) ← test rest
      readJoins test fuel (.join .inner left table label condition) after
    | .keyword .LEFT :: .keyword .JOIN :: .name table :: .name label :: .keyword .ON :: rest => do
      let (condition, after) ← test rest
      readJoins test fuel (.join .left left table label condition) after
    | tokens => some (left, tokens)

/-- A query up to the end of the parentheses. -/
def readQuery (test : Reader Test) : Reader (Scalar × Source × Test)
  | .keyword .SELECT :: tokens => do
    let (what, rest) ← readScalar tokens
    let .keyword .FROM :: .name table :: .name label :: rest := rest | none
    let (source, rest) ← readJoins test rest.length (.table table label) rest
    let .keyword .WHERE :: rest := rest | none
    let (condition, rest) ← test rest
    let .closing :: rest := rest | none
    return ((what, source, condition), rest)
  | _ => none

/-- What is said of a scalar. -/
def readPredicate (subject : Scalar) : Reader Test
  | .comparison comparison :: rest =>
    (readScalar rest).map fun (other, after) => (.compare comparison subject other, after)
  | .keyword .IS :: .keyword .NULL :: rest => some (.isNull subject, rest)
  | .keyword .IS :: .keyword .NOT :: .keyword .NULL :: rest => some (.isNotNull subject, rest)
  | .keyword .IS :: .keyword .NOT :: rest =>
    (readScalar rest).map fun (other, after) => (.compare .notEqual subject other, after)
  | .keyword .IN :: .opening :: rest =>
    (readConstants rest).map fun (cells, after) => (.among subject cells, after)
  | .keyword .LIKE :: token :: .keyword .ESCAPE :: .literal "\\" :: rest =>
    match token.constant? with
    | some (.text pattern) => some (.like subject pattern, rest)
    | _ => none
  | .keyword .BETWEEN :: rest => do
    let (low, rest) ← readScalar rest
    let .keyword .AND :: rest := rest | none
    let (high, rest) ← readScalar rest
    return (.between subject low high, rest)
  | _ => none

/-- A test that no AND or OR takes apart. -/
def readUnit (test : Reader Test) : Reader Test
  | .keyword .NOT :: rest => (readUnit test rest).map fun (unit, after) => (.not unit, after)
  | .keyword .EXISTS :: .opening :: rest =>
    (readQuery test rest).map fun ((_, source, condition), after) =>
      (.exists source condition, after)
  | .opening :: .keyword .SELECT :: rest => do
    let ((what, source, condition), after) ← readQuery test (.keyword .SELECT :: rest)
    readPredicate (.subquery what source condition) after
  | .opening :: rest => do
    let (inner, rest) ← test rest
    let .closing :: rest := rest | none
    return (inner, rest)
  | tokens => do
    let (subject, rest) ← readScalar tokens
    readPredicate subject rest

/-- Tests joined by a keyword, as many as the tokens have room for. -/
def readAll (keyword : Keyword) (join : Test → Test → Test) (item : Reader Test) : Reader Test :=
  fun tokens => readChain keyword join item tokens.length tokens

/-- A condition with parentheses nested up to `depth`. -/
def readTest : Nat → Reader Test
  | 0 => fun _ => none
  | depth + 1 => readAll .OR .or (readAll .AND .and (readUnit (readTest depth)))

/-- The condition that the text of a fragment is, with its binds for the parameters. -/
def Fragment.read (fragment : Fragment) : Option Test := do
  let spelled ← lex fragment.sql
  let tokens ← fill spelled fragment.binds
  match readTest (tokens.length + 1) tokens with
  | some (test, []) => some test
  | _ => none

end PartnerSearch.Sql
