import PartnerSearch.Text.Bytes

set_option autoImplicit false

/-!
Text patterns: a percent sign stands for any text, an underscore for any character, and a backslash
takes the meaning from the character after it. Letters of the Latin alphabet match in either case.
Patterns and texts end at their first NUL, and U+FFFE and U+FFFF are read as U+FFFD.
-/

namespace PartnerSearch.Sql

inductive PatternItem where
  | anyText
  | anyChar
  | literal (c : Char)
  deriving DecidableEq, Repr

namespace Pattern

def isSpecial (c : Char) : Bool := c == '%' || c == '_' || c == '\\'

/-- Takes the meaning from every special character. -/
def escape (needle : List Char) : List Char :=
  needle.flatMap fun c => if isSpecial c then ['\\', c] else [c]

/-- The pattern of the texts that contain `needle`. -/
def containing (needle : String) : String :=
  String.ofList ('%' :: escape needle.toList ++ ['%'])

/-- Reads a pattern; one that ends in a lone backslash matches nothing. -/
def items? : List Char → Option (List PatternItem)
  | [] => some []
  | ['\\'] => none
  | '\\' :: c :: rest => (items? rest).map (.literal c :: ·)
  | '%' :: rest => (items? rest).map (.anyText :: ·)
  | '_' :: rest => (items? rest).map (.anyChar :: ·)
  | c :: rest => (items? rest).map (.literal c :: ·)

/-- Whether `test` holds of the text or of what remains after some of its characters. -/
def anyRest (test : List Char → Bool) : List Char → Bool
  | [] => test []
  | c :: rest => test (c :: rest) || anyRest test rest

def matchesItems : List PatternItem → List Char → Bool
  | [], text => text.isEmpty
  | .anyText :: items, text => anyRest (matchesItems items) text
  | .anyChar :: items, _ :: rest => matchesItems items rest
  | .literal c :: items, d :: rest => c.toLower == d.toLower && matchesItems items rest
  | _ :: _, [] => false

def readChar (c : Char) : Char := if c = '\uFFFE' ∨ c = '\uFFFF' then '\uFFFD' else c

/-- The characters of a pattern or a text as they are compared. -/
def characters (text : String) : List Char := (text.toList.takeWhile (· != '\x00')).map readChar

/-- The longest pattern that is applied, in bytes. -/
def sizeLimit : Nat := 50000

def isTooLong (pattern : String) : Bool := sizeLimit < (Text.bytes pattern).length

end Pattern

/-- Whether a text has the form of a pattern. -/
def matchesPattern (pattern text : String) : Bool :=
  match Pattern.items? (Pattern.characters pattern) with
  | some items => Pattern.matchesItems items (Pattern.characters text)
  | none => false

end PartnerSearch.Sql
