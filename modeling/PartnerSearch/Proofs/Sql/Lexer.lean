import PartnerSearch.Path
import PartnerSearch.Sql.Fragment

set_option autoImplicit false

/-!
The tokens of SQL text, as far as conditions need them. Words go on as long as there are letters and
digits, the keywords of conditions count in either case, and in quotes a doubled quote stands for one.
Other reserved words of SQL are words like any other here.
-/

namespace PartnerSearch.Sql

/-- The reserved words that a condition is written with. -/
inductive Keyword where
  | SELECT
  | FROM
  | WHERE
  | JOIN
  | LEFT
  | ON
  | AND
  | OR
  | NOT
  | EXISTS
  | IN
  | LIKE
  | ESCAPE
  | IS
  | NULL
  | BETWEEN
  deriving DecidableEq, Repr

namespace Keyword

def spelling : Keyword → String
  | SELECT => "SELECT"
  | FROM => "FROM"
  | WHERE => "WHERE"
  | JOIN => "JOIN"
  | LEFT => "LEFT"
  | ON => "ON"
  | AND => "AND"
  | OR => "OR"
  | NOT => "NOT"
  | EXISTS => "EXISTS"
  | IN => "IN"
  | LIKE => "LIKE"
  | ESCAPE => "ESCAPE"
  | IS => "IS"
  | NULL => "NULL"
  | BETWEEN => "BETWEEN"

def all : List Keyword :=
  [SELECT, FROM, WHERE, JOIN, LEFT, ON, AND, OR, NOT, EXISTS, IN, LIKE, ESCAPE, IS, NULL, BETWEEN]

def ofWord? (word : List Char) : Option Keyword :=
  all.find? fun keyword => keyword.spelling.toList == word.map Char.toUpper

end Keyword

inductive Token where
  | keyword (reserved : Keyword)
  | name (text : String)
  | number (size : Nat)
  | literal (text : String)
  | parameter
  | value (bound : Value)
  | comparison (comparison : Comparison)
  | opening
  | closing
  | comma
  | dot
  deriving DecidableEq, Repr

namespace Token

/-- A word that starts with a digit is a number or nothing. -/
def ofWord? (word : List Char) : Option Token :=
  match Keyword.ofWord? word with
  | some reserved => some (.keyword reserved)
  | none =>
    if Path.isFieldName word then some (.name (String.ofList word))
    else if word.all Char.isDigit then some (.number (Nat.ofDigitChars 10 word 0))
    else none

end Token

/-- What has been read of a token that may go on. -/
inductive Pending where
  | nothing
  | word (chars : List Char)
  | less
  | greater
  | literal (chars : List Char)
  | quote (chars : List Char)

namespace Pending

/-- The token if it does not go on. Text in quotes has to end. -/
def finish : Pending → Option (List Token)
  | .nothing => some []
  | .word chars => (Token.ofWord? chars).map fun token => [token]
  | .less => some [.comparison .less]
  | .greater => some [.comparison .greater]
  | .literal _ => none
  | .quote chars => some [.literal (String.ofList chars)]

/-- A character that no token before it goes on with. -/
def start (c : Char) : Option (List Token × Pending) :=
  match c with
  | ' ' => some ([], .nothing)
  | '(' => some ([.opening], .nothing)
  | ')' => some ([.closing], .nothing)
  | ',' => some ([.comma], .nothing)
  | '.' => some ([.dot], .nothing)
  | '?' => some ([.parameter], .nothing)
  | '=' => some ([.comparison .equal], .nothing)
  | '<' => some ([], .less)
  | '>' => some ([], .greater)
  | '\'' => some ([], .literal [])
  | c => if Path.isLetterOrDigit c then some ([], .word [c]) else none

/-- Ends the token before and starts with the character. -/
def restart (pending : Pending) (c : Char) : Option (List Token × Pending) :=
  pending.finish.bind fun done => (start c).map fun (more, next) => (done ++ more, next)

def step (pending : Pending) (c : Char) : Option (List Token × Pending) :=
  match pending with
  | .word chars =>
    if Path.isLetterOrDigit c then some ([], .word (chars ++ [c])) else pending.restart c
  | .less => if c = '=' then some ([.comparison .lessOrEqual], .nothing) else pending.restart c
  | .greater =>
    if c = '=' then some ([.comparison .greaterOrEqual], .nothing) else pending.restart c
  | .literal chars =>
    if c = '\'' then some ([], .quote chars) else some ([], .literal (chars ++ [c]))
  | .quote chars => if c = '\'' then some ([], .literal (chars ++ [c])) else pending.restart c
  | .nothing => start c

end Pending

/-- The tokens that the characters complete, and what is left pending. -/
def scan : Pending → List Char → Option (List Token × Pending)
  | pending, [] => some ([], pending)
  | pending, c :: rest =>
    (pending.step c).bind fun (done, next) =>
      (scan next rest).map fun (later, last) => (done ++ later, last)

def lexChars (text : List Char) : Option (List Token) :=
  (scan .nothing text).bind fun (done, last) => last.finish.map fun more => done ++ more

def lex (text : String) : Option (List Token) := lexChars text.toList

/-- Puts values in the place of the parameters, one for each. -/
def fill : List Token → List Value → Option (List Token)
  | [], [] => some []
  | [], _ :: _ => none
  | .parameter :: _, [] => none
  | .parameter :: rest, value :: values =>
    (fill rest values).map fun others => .value value :: others
  | token :: rest, values => (fill rest values).map fun others => token :: others

theorem scan_append (pending : Pending) (first second : List Char) :
    scan pending (first ++ second) = (scan pending first).bind fun (done, next) =>
      (scan next second).map fun (later, last) => (done ++ later, last) := by
  induction first generalizing pending with
  | nil => cases scan pending second <;> simp [scan, *]
  | cons c rest ih =>
      rw [List.cons_append, scan, scan]
      cases pending.step c with
      | none => rfl
      | some stepped =>
          obtain ⟨done, next⟩ := stepped
          simp only [Option.bind_some, ih]
          cases scan next rest with
          | none => rfl
          | some scanned =>
              obtain ⟨more, last⟩ := scanned
              simp only [Option.bind_some, Option.map_some, Option.map_map]
              cases scan last second <;> simp

/-- The characters that end any token but one in quotes. -/
def isBreak (c : Char) : Bool :=
  c == ' ' || c == '(' || c == ')' || c == ',' || c == '.' || c == '?'

theorem Pending.step_of_isBreak {pending : Pending} {last : List Token}
    (finished : pending.finish = some last) {c : Char} (breaks : isBreak c = true) :
    pending.step c = (start c).map fun (more, next) => (last ++ more, next) := by
  have no_letter : Path.isLetterOrDigit c = false := by
    simp only [isBreak, Bool.or_eq_true, beq_iff_eq] at breaks
    rcases breaks with ((((rfl | rfl) | rfl) | rfl) | rfl) | rfl <;> decide
  have no_equal : c ≠ '=' := by
    rintro rfl
    cases breaks
  have no_quote : c ≠ '\'' := by
    rintro rfl
    cases breaks
  have again : pending.restart c = (start c).map fun (more, next) => (last ++ more, next) := by
    rw [restart, finished, Option.bind_some]
  cases pending with
  | nothing =>
      cases Option.some.inj finished
      cases begun : start c <;> simp [step, begun]
  | word chars => rw [step, if_neg (by simp [no_letter]), again]
  | less => rw [step, if_neg no_equal, again]
  | greater => rw [step, if_neg no_equal, again]
  | literal chars => cases finished
  | quote chars => rw [step, if_neg no_quote, again]

/-- No token before the text goes on into it. -/
def Breaks (text : String) : Prop := ∃ c rest, text.toList = c :: rest ∧ isBreak c = true

theorem Breaks.append {first : String} (breaks : Breaks first) (second : String) :
    Breaks (first ++ second) := by
  obtain ⟨c, rest, same, here⟩ := breaks
  exact ⟨c, rest ++ second.toList, by rw [String.toList_append, same, List.cons_append], here⟩

/-- What follows is scanned behind a token as it is at the start. -/
theorem scan_of_breaks {pending : Pending} {more : List Token}
    (finished : pending.finish = some more) {text : String} (breaks : Breaks text) :
    scan pending text.toList =
      (scan .nothing text.toList).map fun (later, last) => (more ++ later, last) := by
  obtain ⟨c, rest, same, here⟩ := breaks
  have begun : Pending.nothing.step c = Pending.start c := rfl
  rw [same, scan, scan, Pending.step_of_isBreak finished here, begun]
  cases Pending.start c with
  | none => rfl
  | some started =>
      obtain ⟨first, next⟩ := started
      simp only [Option.map_some, Option.bind_some, Option.map_map]
      cases scan next rest <;> simp

/-- How a text ends: between tokens, or with one that may go on. -/
inductive Ending where
  | complete
  | pending
  deriving DecidableEq, Repr

/-- The tokens of a text that ends so. -/
def Lexes (text : String) (tokens : List Token) (ending : Ending) : Prop :=
  ∃ done last more, scan .nothing text.toList = some (done, last) ∧ last.finish = some more ∧
    done ++ more = tokens ∧ (ending = .complete → last = .nothing)

theorem Lexes.lex_eq {text : String} {tokens : List Token} {ending : Ending}
    (lexes : Lexes text tokens ending) : lex text = some tokens := by
  obtain ⟨done, last, more, scanned, finished, same, -⟩ := lexes
  rw [lex, lexChars, scanned, Option.bind_some, ← same]
  dsimp only
  rw [finished, Option.map_some]

/-- Texts have their tokens one after the other, unless a token goes on from one to the next. -/
theorem Lexes.append {first second : String} {tokens others : List Token} {middle ending : Ending}
    (lexes : Lexes first tokens middle) (later : Lexes second others ending)
    (apart : middle = .complete ∨ Breaks second) :
    Lexes (first ++ second) (tokens ++ others) ending := by
  obtain ⟨done, last, more, scanned, finished, rfl, closed⟩ := lexes
  obtain ⟨done', last', more', scanned', finished', rfl, closed'⟩ := later
  have onward : scan last second.toList = some (more ++ done', last') := by
    rcases apart with complete | breaks
    · rw [closed complete] at finished ⊢
      cases Option.some.inj finished
      exact scanned'
    · rw [scan_of_breaks finished breaks, scanned']
      rfl
  refine ⟨done ++ (more ++ done'), last', more', ?_, finished', ?_, closed'⟩
  · rw [String.toList_append, scan_append, scanned, Option.bind_some]
    dsimp only
    rw [onward]
    rfl
  · simp only [List.append_assoc]

/-- An identifier that is none of the keywords of conditions. -/
def IsPlainName (text : String) : Prop :=
  Path.isFieldName text.toList = true ∧ Keyword.ofWord? text.toList = none

theorem scan_word {chars : List Char} (letters : chars.all Path.isLetterOrDigit = true)
    (before : List Char) : scan (.word before) chars = some ([], .word (before ++ chars)) := by
  induction chars generalizing before with
  | nil => rw [scan, List.append_nil]
  | cons c rest ih =>
      rw [List.all_cons, Bool.and_eq_true] at letters
      have later := ih letters.2 (before ++ [c])
      rw [scan, Pending.step, if_pos letters.1, Option.bind_some]
      dsimp only
      rw [later, List.append_assoc]
      rfl

theorem Pending.start_of_isLetterOrDigit {c : Char} (letter : Path.isLetterOrDigit c = true) :
    start c = some ([], .word [c]) := by
  unfold start
  split
  case h_11 => exact if_pos letter
  all_goals exact absurd letter (by decide)

/-- A word is scanned as one. -/
theorem scan_nothing_word {c : Char} {rest : List Char}
    (letters : (c :: rest).all Path.isLetterOrDigit = true) :
    scan .nothing (c :: rest) = some ([], .word (c :: rest)) := by
  rw [List.all_cons, Bool.and_eq_true] at letters
  have later := scan_word letters.2 [c]
  rw [scan, Pending.step, Pending.start_of_isLetterOrDigit letters.1, Option.bind_some]
  dsimp only
  rw [later]
  rfl

theorem lexes_name {text : String} (plain : IsPlainName text) :
    Lexes text [.name text] .pending := by
  obtain ⟨identifier, free⟩ := plain
  have word : Token.ofWord? text.toList = some (.name text) := by
    rw [Token.ofWord?, free]
    dsimp only
    rw [if_pos identifier, String.ofList_toList]
  have letters := Path.all_isLetterOrDigit_of_isFieldName identifier
  cases same : text.toList with
  | nil =>
      rw [same] at identifier
      cases identifier
  | cons c rest =>
      rw [same] at letters word
      refine ⟨[], .word (c :: rest), [.name text], ?_, ?_, rfl, by simp⟩
      · rw [same, scan_nothing_word letters]
      · rw [Pending.finish, word]
        rfl

theorem isLetterOrDigit_of_isDigit {c : Char} (digit : c.isDigit = true) :
    Path.isLetterOrDigit c = true := by
  have bounds : '0' ≤ c ∧ c ≤ '9' := by
    simpa [Char.isDigit, Char.le_def] using digit
  rw [Path.isLetterOrDigit, decide_eq_true bounds.1, decide_eq_true bounds.2]
  exact Bool.or_true _

theorem toList_aliasName (slot : Nat) : (aliasName slot).toList = 't' :: Nat.toDigits 10 slot := by
  rw [aliasName, String.toList_append]
  exact congrArg ('t' :: ·) Nat.toList_repr

theorem aliasName_injective {slot other : Nat} (same : aliasName slot = aliasName other) :
    slot = other := by
  have chars := congrArg String.toList same
  rw [toList_aliasName, toList_aliasName] at chars
  have digits := congrArg (fun chars => Nat.ofDigitChars 10 chars 0) (List.cons.inj chars).2
  simpa using digits

/-- The letter of the aliases starts no keyword. -/
theorem isPlainName_aliasName (slot : Nat) : IsPlainName (aliasName slot) := by
  rw [IsPlainName, toList_aliasName]
  constructor
  · have digits : (Nat.toDigits 10 slot).all Path.isLetterOrDigit = true := by
      rw [List.all_eq_true]
      intro c member
      exact isLetterOrDigit_of_isDigit (Nat.isDigit_of_mem_toDigits (by decide) (by decide) member)
    rw [Path.isFieldName, digits]
    decide
  · rw [Keyword.ofWord?, List.find?_eq_none]
    intro keyword _
    cases keyword <;> simp [Keyword.spelling]

end PartnerSearch.Sql
