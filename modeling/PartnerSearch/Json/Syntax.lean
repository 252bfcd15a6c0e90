set_option autoImplicit false

/-! What can be wrong with a JSON document. -/

namespace PartnerSearch.Json

inductive SyntaxFault where
  | unclosedList
  | unclosedObject
  | unclosedString
  | missingValue
  | expectedColon
  | expectedListCommaOrEnd
  | expectedObjectCommaOrEnd
  | expectedWord
  | expectedValue
  | invalidEscape
  | invalidNumber
  | numberOutOfRange
  | invalidUnicode
  | controlCharacter
  | keyNotString
  | loneSurrogate
  | unfinishedSurrogatePair
  | trailingComma
  | trailingCharacters
  | tooDeep
  | embeddedNotText (found : String)
  | embeddedNotAlone (members : Nat)
  deriving DecidableEq, Repr

def SyntaxFault.message : SyntaxFault → String
  | .unclosedList => "EOF while parsing a list"
  | .unclosedObject => "EOF while parsing an object"
  | .unclosedString => "EOF while parsing a string"
  | .missingValue => "EOF while parsing a value"
  | .expectedColon => "expected `:`"
  | .expectedListCommaOrEnd => "expected `,` or `]`"
  | .expectedObjectCommaOrEnd => "expected `,` or `\x7d`"
  | .expectedWord => "expected ident"
  | .expectedValue => "expected value"
  | .invalidEscape => "invalid escape"
  | .invalidNumber => "invalid number"
  | .numberOutOfRange => "number out of range"
  | .invalidUnicode => "invalid unicode code point"
  | .controlCharacter => "control character (\\u0000-\\u001F) found while parsing a string"
  | .keyNotString => "key must be a string"
  | .loneSurrogate => "lone leading surrogate in hex escape"
  | .unfinishedSurrogatePair => "unexpected end of hex escape"
  | .trailingComma => "trailing comma"
  | .trailingCharacters => "trailing characters"
  | .tooDeep => "recursion limit exceeded"
  | .embeddedNotText found => "invalid type: " ++ found ++ ", expected raw value"
  | .embeddedNotAlone members =>
    "invalid length " ++ toString members ++ ", expected fewer elements in map"

end PartnerSearch.Json
