import PartnerSearch.Json.Number
import PartnerSearch.Json.Syntax
import PartnerSearch.Text.Bytes
import PartnerSearch.Text.Hex

set_option autoImplicit false

/-!
Reading JSON from bytes. Faults come in document order and the first one wins. Every reader leaves
fewer bytes than it was given, which is what the loops over items and members end by.

Bytes stand by their ASCII codes: 22 quote, 2B plus, 2C comma, 2D minus, 2E point, 30 zero, 3A colon,
5B and 5D brackets, 5C backslash, 75 the letter u, 7B and 7D braces.
-/

namespace PartnerSearch.Json

open Text (Bytes)

/-- A value at the front of `input`, and the fewer bytes after it. -/
structure Front (α : Type) (input : Bytes) where
  value : α
  rest : Bytes
  shorter : rest.length < input.length

/-- A reader of values at the front of its input. -/
abbrev Reader (ε α : Type) := (input : Bytes) → Except ε (Front α input)

def Front.map {α β : Type} {input : Bytes} (f : α → β) (front : Front α input) : Front β input :=
  ⟨f front.value, front.rest, front.shorter⟩

/-- The front of a part of the input is a front of the input. -/
def Front.within {α : Type} {part input : Bytes} (bound : part.length ≤ input.length)
    (front : Front α part) : Front α input :=
  ⟨front.value, front.rest, Nat.lt_of_lt_of_le front.shorter bound⟩

/-- The front of what another front leaves. -/
def Front.after {α β : Type} {input : Bytes} (first : Front α input) (next : Front β first.rest) :
    Front β input :=
  ⟨next.value, next.rest, Nat.lt_trans next.shorter first.shorter⟩

/-- Space, tab, line feed and carriage return. -/
def isBlankByte (b : UInt8) : Bool := b == 0x20 || b == 0x09 || b == 0x0A || b == 0x0D

def skipBlanks (input : Bytes) : Bytes := input.dropWhile isBlankByte

theorem length_skipBlanks_le (input : Bytes) : (skipBlanks input).length ≤ input.length :=
  (List.dropWhile_suffix isBlankByte).length_le

theorem length_lt_of_skipBlanks {input rest : Bytes} {b : UInt8}
    (skipped : skipBlanks input = b :: rest) : rest.length < input.length := by
  have bound := length_skipBlanks_le input
  rw [skipped] at bound
  exact bound

/-- What stands after blanks and one more byte is at the front of the input too. -/
def Front.afterByte {α : Type} {input rest : Bytes} (b : UInt8)
    (skipped : skipBlanks input = b :: rest) (front : Front α rest) : Front α input :=
  front.within (Nat.le_of_lt (length_lt_of_skipBlanks skipped))

/-- The byte that a one-letter escape stands for. -/
def simpleEscape? (b : UInt8) : Option UInt8 :=
  match Char.ofUInt8 b with
  | '"' => some 0x22
  | '\\' => some 0x5C
  | '/' => some 0x2F
  | 'b' => some 0x08
  | 'f' => some 0x0C
  | 'n' => some 0x0A
  | 'r' => some 0x0D
  | 't' => some 0x09
  | _ => none

def readHex : Reader SyntaxFault Nat
  | a :: b :: c :: d :: rest =>
    match Text.hexPair? (Char.ofUInt8 a) (Char.ofUInt8 b),
        Text.hexPair? (Char.ofUInt8 c) (Char.ofUInt8 d) with
    | some high, some low => .ok ⟨high * 256 + low, rest, by simp only [List.length_cons]; omega⟩
    | _, _ => .error .invalidEscape
  | _ => .error .unclosedString

def codePointBytes (n : Nat) : Bytes := String.utf8EncodeChar (Char.ofNat n)

/-- One escape of four digits, or two that make up a surrogate pair. -/
def readUnicodeEscape : Reader SyntaxFault Bytes := fun input => do
  let first ← readHex input
  if 0xDC00 ≤ first.value ∧ first.value ≤ 0xDFFF then .error .loneSurrogate
  else if first.value < 0xD800 ∨ 0xDFFF < first.value then
    return first.map codePointBytes
  else
    match next : first.rest with
    | [] => .error .unclosedString
    | [0x5C] => .error .unclosedString
    | 0x5C :: 0x75 :: rest =>
      let second ← readHex rest
      if 0xDC00 ≤ second.value ∧ second.value ≤ 0xDFFF then
        let point := 0x10000 + (first.value - 0xD800) * 0x400 + (second.value - 0xDC00)
        return (second.map fun _ => codePointBytes point).within (by
          have := first.shorter
          rw [next] at this
          simp only [List.length_cons] at this
          omega)
      else .error .loneSurrogate
    | _ => .error .unfinishedSurrogatePair

/-- What follows a backslash. -/
def readEscape : Reader SyntaxFault Bytes
  | [] => .error .unclosedString
  | b :: rest =>
    match simpleEscape? b with
    | some value => .ok ⟨[value], rest, by simp⟩
    | none =>
      if b = 0x75 then (readUnicodeEscape rest).map (·.within (by simp))
      else .error .invalidEscape

/-- The content of a string up to its closing quote. -/
def readContent (input : Bytes) : Except SyntaxFault (Front Bytes input) :=
  match input with
  | [] => .error .unclosedString
  | 0x22 :: rest => .ok ⟨[], rest, by simp⟩
  | 0x5C :: rest => do
    let escape ← readEscape rest
    let content ← readContent escape.rest
    return ⟨escape.value ++ content.value, content.rest, by
      have := escape.shorter
      have := content.shorter
      simp only [List.length_cons]
      omega⟩
  | b :: rest =>
    if b < 0x20 then .error .controlCharacter
    else do
      let content ← readContent rest
      return ⟨b :: content.value, content.rest, by
        have := content.shorter
        simp only [List.length_cons]
        omega⟩
termination_by input.length
decreasing_by
  all_goals simp only [List.length_cons]
  · have := escape.shorter
    omega
  · omega

/-- A string after its opening quote. -/
def readString : Reader SyntaxFault String := fun input => do
  let content ← readContent input
  match Text.ofBytes? content.value with
  | some text => return content.map fun _ => text
  | none => .error .invalidUnicode

def digitByte? (b : UInt8) : Option Nat := Text.digit? (Char.ofUInt8 b)

def isDigitByte (b : UInt8) : Bool := (digitByte? b).isSome

/-- The digits in front, and the bytes after them. -/
def splitDigits (input : Bytes) : List Nat × Bytes :=
  ((input.takeWhile isDigitByte).filterMap digitByte?, input.dropWhile isDigitByte)

theorem length_splitDigits_lt (b : UInt8) (rest : Bytes) :
    (splitDigits rest).2.length < (b :: rest).length :=
  Nat.lt_succ_of_le (List.dropWhile_suffix isDigitByte).length_le

/-- At least one digit. -/
def readDigits (input : Bytes) : Except SyntaxFault (Front (List Nat) input) :=
  match input with
  | [] => .error .missingValue
  | b :: rest =>
    match digitByte? b with
    | none => .error .invalidNumber
    | some digit =>
      .ok ⟨digit :: (splitDigits rest).1, (splitDigits rest).2, length_splitDigits_lt b rest⟩

/-- The digits before the point; a leading zero stands alone. -/
def readWhole (input : Bytes) : Except SyntaxFault (Front (List Nat) input) :=
  match input with
  | 0x30 :: rest =>
    if (splitDigits rest).1.isEmpty then .ok ⟨[0], rest, by simp⟩ else .error .invalidNumber
  | input => readDigits input

/-- The part of a number that follows `mark`, where there is one. -/
def readPart {α : Type} (isMark : UInt8 → Bool) (part : Reader SyntaxFault α) (input : Bytes) :
    Except SyntaxFault (Option α × { rest : Bytes // rest.length ≤ input.length }) :=
  match input with
  | [] => .ok (none, ⟨[], Nat.le_refl _⟩)
  | b :: rest =>
    if isMark b then do
      let front ← part rest
      return (some front.value, ⟨front.rest, by
        have := front.shorter
        simp only [List.length_cons]
        omega⟩)
    else .ok (none, ⟨b :: rest, Nat.le_refl _⟩)

def digitsValue (digits : List Nat) : Nat := digits.foldl (fun value digit => value * 10 + digit) 0

/-- An exponent after its mark: an optional sign and digits. -/
def readExponent : Reader SyntaxFault Int
  | 0x2D :: rest => (readDigits rest).map fun front =>
    (front.map fun digits => -(digitsValue digits : Int)).within (by simp)
  | 0x2B :: rest => (readDigits rest).map fun front =>
    (front.map fun digits => (digitsValue digits : Int)).within (by simp)
  | input => (readDigits input).map (·.map fun digits => (digitsValue digits : Int))

/-- A number after its sign. -/
def readNumber (negative : Bool) : Reader SyntaxFault Number := fun input => do
  let whole ← readWhole input
  let (fraction, ⟨afterFraction, fractionBound⟩) ← readPart (· == 0x2E) readDigits whole.rest
  let (exponent, ⟨afterExponent, exponentBound⟩) ←
    readPart (fun b => b == 0x65 || b == 0x45) readExponent afterFraction
  match Number.ofParts? negative whole.value fraction exponent with
  | some value => return ⟨value, afterExponent, by
      have := whole.shorter
      omega⟩
  | none => .error .numberOutOfRange

/-- The rest of a word whose first letter has been read. -/
def readWord (input : Bytes) : List UInt8 → Except SyntaxFault { rest : Bytes // rest.length ≤ input.length }
  | [] => .ok ⟨input, Nat.le_refl _⟩
  | expected :: word =>
    match input with
    | [] => .error .missingValue
    | b :: rest =>
      if b = expected then (readWord rest word).map fun after =>
        ⟨after.val, Nat.le_trans after.property (by simp)⟩
      else .error .expectedWord

def readLiteral (value : Json) (word : List UInt8) : Reader SyntaxFault Json
  | [] => .error .missingValue
  | _ :: rest => (readWord rest word).map fun after =>
    ⟨value, after.val, Nat.lt_of_le_of_lt after.property (by simp)⟩

/-- A value that is neither a list nor an object, its first byte included. -/
def readScalar : Reader SyntaxFault Json
  | [] => .error .missingValue
  | b :: rest =>
    match b with
    | 0x6E => readLiteral .null [0x75, 0x6C, 0x6C] (0x6E :: rest)
    | 0x74 => readLiteral (.bool true) [0x72, 0x75, 0x65] (0x74 :: rest)
    | 0x66 => readLiteral (.bool false) [0x61, 0x6C, 0x73, 0x65] (0x66 :: rest)
    | 0x22 => (readString rest).map fun front => (front.map .string).within (by simp)
    | 0x2D => (readNumber true rest).map fun front => (front.map .number).within (by simp)
    | b =>
      if isDigitByte b then (readNumber false (b :: rest)).map (·.map .number)
      else .error .expectedValue

/-- The items after the first one of a list, up to its closing bracket. -/
def readMoreItems {ε α : Type} (syntaxFault : SyntaxFault → ε) (item : Reader ε α) (input : Bytes) :
    Except ε (Front (List α) input) :=
  match skipped : skipBlanks input with
  | [] => .error (syntaxFault .unclosedList)
  | 0x5D :: rest => .ok ⟨[], rest, length_lt_of_skipBlanks skipped⟩
  | 0x2C :: rest =>
    match skipBlanks rest with
    | [] => .error (syntaxFault .missingValue)
    | 0x5D :: _ => .error (syntaxFault .trailingComma)
    | _ => do
      let first ← item rest
      let others ← readMoreItems syntaxFault item first.rest
      return ⟨first.value :: others.value, others.rest, by
        have := length_lt_of_skipBlanks skipped
        have := first.shorter
        have := others.shorter
        omega⟩
  | _ => .error (syntaxFault .expectedListCommaOrEnd)
termination_by input.length
decreasing_by
  have := length_lt_of_skipBlanks skipped
  have := first.shorter
  omega

/-- A list after its opening bracket. -/
def readItems {ε α : Type} (syntaxFault : SyntaxFault → ε) (item : Reader ε α) :
    Reader ε (List α) := fun input =>
  match skipped : skipBlanks input with
  | [] => .error (syntaxFault .unclosedList)
  | 0x5D :: rest => .ok ⟨[], rest, length_lt_of_skipBlanks skipped⟩
  | _ => do
    let first ← item input
    let others ← readMoreItems syntaxFault item first.rest
    return ⟨first.value :: others.value, others.rest, Nat.lt_trans others.shorter first.shorter⟩

/-- The colon between a name and its value. -/
def readColon : Reader SyntaxFault Unit := fun input =>
  match skipped : skipBlanks input with
  | [] => .error .unclosedObject
  | 0x3A :: rest => .ok ⟨(), rest, length_lt_of_skipBlanks skipped⟩
  | _ => .error .expectedColon

/-- The first name of an object after its opening brace, or nothing when the object ends. -/
def readFirstName : Reader SyntaxFault (Option String) := fun input =>
  match skipped : skipBlanks input with
  | [] => .error .unclosedObject
  | 0x7D :: rest => .ok ⟨none, rest, length_lt_of_skipBlanks skipped⟩
  | 0x22 :: rest => (readString rest).map fun front =>
    (front.map some).within (Nat.le_of_lt (length_lt_of_skipBlanks skipped))
  | _ => .error .keyNotString

/-- The next name of an object after a member, or nothing when the object ends. -/
def readNextName : Reader SyntaxFault (Option String) := fun input =>
  match skipped : skipBlanks input with
  | [] => .error .unclosedObject
  | 0x7D :: rest => .ok ⟨none, rest, length_lt_of_skipBlanks skipped⟩
  | 0x2C :: rest =>
    match next : skipBlanks rest with
    | [] => .error .missingValue
    | 0x7D :: _ => .error .trailingComma
    | 0x22 :: after => (readString after).map fun front =>
      (front.map some).within (by
        have := length_lt_of_skipBlanks skipped
        have := length_lt_of_skipBlanks next
        omega)
    | _ => .error .keyNotString
  | _ => .error .expectedObjectCommaOrEnd

/-- The members of an object from the value of `name` on, in document order. -/
def readMembers (child : Reader SyntaxFault Json) (name : String) (input : Bytes) :
    Except SyntaxFault (Front (List (String × Json)) input) := do
  let colon ← readColon input
  let value ← child colon.rest
  let next ← readNextName value.rest
  match next.value with
  | none => return colon.after (value.after (next.map fun _ => [(name, value.value)]))
  | some following =>
    let others ← readMembers child following next.rest
    return colon.after (value.after (next.after (others.map ((name, value.value) :: ·))))
termination_by input.length
decreasing_by
  have := colon.shorter
  have := value.shorter
  have := next.shorter
  omega

/-- An object whose first name is this one stands for the document in the text of that member, which
is its only one. -/
def embeddedName : String := "$serde_json::private::RawValue"

/-- What the value in front is called; of a list or an object only the bracket is read. -/
def describeFront (input : Bytes) : Except SyntaxFault String :=
  match skipBlanks input with
  | 0x5B :: _ => .ok (Json.array []).describe
  | 0x7B :: _ => .ok (Json.object []).describe
  | rest => (readScalar rest).map fun front => front.value.describe

def readEmbeddedText : Reader SyntaxFault String := fun input =>
  match skipped : skipBlanks input with
  | 0x22 :: rest => (readString rest).map (·.afterByte 0x22 skipped)
  | _ => do .error (.embeddedNotText (← describeFront input))

/-- The closing brace after the only member of an object. -/
def readClosingBrace : Reader SyntaxFault Unit := fun input =>
  match skipped : skipBlanks input with
  | [] => .error .unclosedObject
  | 0x7D :: rest => .ok ⟨(), rest, length_lt_of_skipBlanks skipped⟩
  | 0x2C :: _ => .error .trailingComma
  | _ => .error .trailingCharacters

/-- An embedded document after its name; `embedded` reads it. -/
def readEmbedded (embedded : Bytes → Except SyntaxFault Json) : Reader SyntaxFault Json :=
  fun input => do
    let colon ← readColon input
    let text ← readEmbeddedText colon.rest
    let value ← embedded (Text.bytes text.value)
    let closing ← readClosingBrace text.rest
    return colon.after (text.after (closing.map fun _ => value))

/-- An object after its opening brace. -/
def readObject (embedded : Bytes → Except SyntaxFault Json) (child : Reader SyntaxFault Json) :
    Reader SyntaxFault Json := fun input => do
  let first ← readFirstName input
  match first.value with
  | none => return first.map fun _ => .object []
  | some name =>
    if name = embeddedName then
      let value ← readEmbedded embedded first.rest
      return first.after value
    else
      let members ← readMembers child name first.rest
      return first.after (members.map ofMembers)

/-- A value whose lists and objects hold what `child` reads; without `child` it can have none. -/
def readWith (embedded : Bytes → Except SyntaxFault Json) (child : Option (Reader SyntaxFault Json)) :
    Reader SyntaxFault Json := fun input =>
  match skipped : skipBlanks input with
  | [] => .error .missingValue
  | 0x5B :: rest =>
    match child with
    | none => .error .tooDeep
    | some child => (readItems id child rest).map fun front =>
      (front.map .array).afterByte 0x5B skipped
  | 0x7B :: rest =>
    match child with
    | none => .error .tooDeep
    | some child => (readObject embedded child rest).map (·.afterByte 0x7B skipped)
  | b :: rest => (readScalar (b :: rest)).map (·.within (by
      rw [← skipped]
      exact length_skipBlanks_le input))

/-- A value with at most `levels` lists and objects around any part of it; `embedded` reads the
documents in it, whose levels do not count. -/
def readValue (embedded : Bytes → Except SyntaxFault Json) : (levels : Nat) → Reader SyntaxFault Json
  | 0 => readWith embedded none
  | levels + 1 => readWith embedded (some (readValue embedded levels))

/-- How many lists and objects a document may nest. -/
def nestingLimit : Nat := 127

/-- Only blanks may follow a document. -/
def endOfDocument {α : Type} (value : α) (rest : Bytes) : Except SyntaxFault α :=
  if (skipBlanks rest).isEmpty then .ok value else .error .trailingCharacters

/-- Reads a whole document. One that is embedded in it is shorter. -/
def read (input : Bytes) : Except SyntaxFault Json := do
  let embedded := fun text : Bytes =>
    if _shorter : text.length < input.length then read text else .error .tooDeep
  let front ← readValue embedded nestingLimit input
  endOfDocument front.value front.rest
termination_by input.length

end PartnerSearch.Json
