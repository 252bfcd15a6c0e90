import PartnerSearch.Http.Message

set_option autoImplicit false

/-!
Media types. A type and a subtype are tokens, and parameters may follow. What stands after the last
plus sign of a subtype tells the format it is written in.
-/

namespace PartnerSearch.Http

/-- A place in the parameters of a media type. -/
inductive ParameterPlace where
  | beforeName
  | inName
  | beforeValue
  | inValue
  | beforeQuoted
  | inQuoted
  | afterQuoted
  deriving DecidableEq, Repr

namespace ParameterPlace

def isQuotedChar (c : Char) : Bool := ' ' ≤ c && c ≤ '~'

/-- The place after a character; a quoted value has a character at least, be it a quote. -/
def next? : ParameterPlace → Char → Option ParameterPlace
  | .beforeName, ' ' => some .beforeName
  | .beforeName, c => if isTokenChar c then some .inName else none
  | .inName, '=' => some .beforeValue
  | .inName, c => if isTokenChar c then some .inName else none
  | .beforeValue, '"' => some .beforeQuoted
  | .beforeValue, c => if isTokenChar c then some .inValue else none
  | .inValue, ';' => some .beforeName
  | .inValue, c => if isTokenChar c then some .inValue else none
  | .beforeQuoted, c => if isQuotedChar c then some .inQuoted else none
  | .inQuoted, '"' => some .afterQuoted
  | .inQuoted, c => if isQuotedChar c then some .inQuoted else none
  | .afterQuoted, ' ' => some .afterQuoted
  | .afterQuoted, ';' => some .beforeName
  | .afterQuoted, _ => none

/-- Whether a media type may end here. -/
def mayEnd : ParameterPlace → Bool
  | .beforeName | .beforeValue | .inValue | .afterQuoted => true
  | .inName | .beforeQuoted | .inQuoted => false

end ParameterPlace

/-- The part before the last plus sign and the part after it; a plus sign in front does not count. -/
def subtypeParts (subtype : List Char) : List Char × Option (List Char) :=
  match Text.cutAt '+' subtype.reverse with
  | (suffix, some (c :: name)) => ((c :: name).reverse, some suffix.reverse)
  | _ => (subtype, none)

/-- A media type in lowercase, without its parameters. -/
structure MediaType where
  type : String
  subtype : String
  suffix : Option String
  deriving DecidableEq, Repr

namespace MediaType

def ofParts (type subtype : List Char) : MediaType :=
  let text := fun chars : List Char => String.ofList (chars.map Char.toLower)
  let (name, suffix) := subtypeParts subtype
  ⟨text type, text name, suffix.map text⟩

/-- Whether parameters can be read to their end. -/
def hasParameters (parameters : List Char) : Bool :=
  (parameters.foldlM ParameterPlace.next? .beforeName).any ParameterPlace.mayEnd

def read? (text : String) : Option MediaType :=
  let (type, afterType) := text.toList.span isTokenChar
  match afterType with
  | '/' :: rest =>
    let (subtype, afterSubtype) := rest.span isTokenChar
    if type.isEmpty then none
    else
      match afterSubtype with
      | [] => some (ofParts type subtype)
      | ';' :: parameters =>
        if !subtype.isEmpty && hasParameters parameters then some (ofParts type subtype) else none
      | _ => none
  | _ => none

/-- JSON, or a format that is written as JSON. -/
def isJson (mediaType : MediaType) : Bool :=
  mediaType.type == "application" &&
    (mediaType.subtype == "json" || mediaType.suffix == some "json")

end MediaType

/-- The media type of the body. -/
def Request.mediaType? (request : Request) : Option MediaType :=
  (request.header? "content-type").bind MediaType.read?

end PartnerSearch.Http
