import PartnerSearch.Http.Form
import PartnerSearch.Log

set_option autoImplicit false

/-! Requests and responses. -/

namespace PartnerSearch.Http

open Text (Bytes cutAt)

/-- Letters, digits and the marks that a method or a part of a media type may hold. -/
def isTokenChar (c : Char) : Bool := c.isAlphanum || c ∈ "!#$%&'*+-.^_`|~".toList

def isToken (text : String) : Bool := !text.isEmpty && text.toList.all isTokenChar

/-- What stands after the first colon with two slashes. -/
def afterScheme? : List Char → Option (List Char)
  | ':' :: '/' :: '/' :: rest => some rest
  | _ :: rest => afterScheme? rest
  | [] => none

def isAuthorityChar (c : Char) : Bool := c != '/' && c != '?' && c != '#'

/-- The path of a target and what follows it. An absolute URL has the path `/` if it gives none; an
authority alone has no path. -/
def fromPath (target : List Char) : List Char :=
  match target with
  | '/' :: _ => target
  | ['*'] => target
  | _ =>
    match afterScheme? target with
    | none => []
    | some rest =>
      match rest.dropWhile isAuthorityChar with
      | '/' :: path => '/' :: path
      | other => '/' :: other

structure Request where
  method : String
  target : String
  headers : List (String × String)
  body : Bytes

namespace Request

/-- The path and the query of the target, without its fragment. -/
def targetParts (request : Request) : List Char × Option (List Char) :=
  cutAt '?' (cutAt '#' (fromPath request.target.toList)).1

def path (request : Request) : String := String.ofList request.targetParts.1

def query? (request : Request) : Option String := request.targetParts.2.map String.ofList

/-- The first value of a header; names go without regard to case. -/
def header? (request : Request) (name : String) : Option String :=
  (request.headers.find? fun header => header.1.toLower == name).map Prod.snd

/-- The first value of a query parameter. -/
def parameter? (request : Request) (name : String) : Option String :=
  (formPairs (request.query?.getD "")).lookup name

/-- Whether the query has a parameter `search`, as it is written there. -/
def hasSearch (request : Request) : Bool :=
  (request.query?.getD "").toList |> Text.splitOn '&' |>.any fun pair =>
    (cutAt '=' pair).1 == "search".toList

end Request

/-- The identifier of a request: the client's own, or one drawn for it. -/
inductive RequestId where
  | supplied (text : String)
  | drawn (text : String)
  deriving DecidableEq, Repr

namespace RequestId

def text : RequestId → String
  | .supplied text => text
  | .drawn text => text

def isIdChar (c : Char) : Bool := c.isAlphanum || c == '-' || c == '_'

/-- One to sixty-four ASCII letters, digits, hyphens and underscores. -/
def isValid (text : String) : Bool :=
  let chars := text.toList
  !chars.isEmpty && chars.length ≤ 64 && chars.all isIdChar

/-- Keeps the client's identifier if it is valid, and takes the fresh one otherwise. -/
def ofRequest (request : Request) (fresh : String) : RequestId :=
  match (request.header? "x-request-id").filter isValid with
  | some text => .supplied text
  | none => .drawn fresh

end RequestId

/-- A response; `body` is the text of a JSON response, and content of other types is not kept. -/
structure Response where
  status : Nat
  requestId : Option RequestId
  location : Option String
  allowOrigin : Option String
  body : Option String
  deriving DecidableEq, Repr

end PartnerSearch.Http
