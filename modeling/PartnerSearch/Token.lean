set_option autoImplicit false

/-! Words of closed vocabularies, and what is said of a word outside one. -/

namespace PartnerSearch

/-- A name between ticks. -/
def ticked (name : String) : String := "`" ++ name ++ "`"

/-- The names that would have been right. -/
def oneOf : List String → String
  | [name] => ticked name
  | names => "one of " ++ String.intercalate ", " (names.map ticked)

/-- A word that is not in its vocabulary. -/
structure UnknownToken where
  token : String
  vocabulary : List String
  deriving DecidableEq, Repr

namespace UnknownToken

/-- What a lookup by name reports. -/
def brief (_ : UnknownToken) : String := "Matching variant not found"

/-- What reading a document reports. -/
def message (unknown : UnknownToken) : String :=
  "unknown variant " ++ ticked unknown.token ++ ", expected " ++ oneOf unknown.vocabulary

end UnknownToken

end PartnerSearch
