import PartnerSearch.Http.Form

set_option autoImplicit false

/-! What the paths of the service lead to, and the methods that apply there. -/

namespace PartnerSearch.Http

open Text (split)

inductive Resource where
  | home
  | description
  | documentation
  | health
  | partners
  | search
  | partner (id : String)
  deriving DecidableEq, Repr

/-- Why a path leads nowhere. -/
inductive PathRefusal where
  | unknown
  | notText
  deriving DecidableEq, Repr

namespace Resource

/-- The documentation, where `home` leads. -/
def documentationPath : String := "/api/v1/docs"

/-- The resource below the root of the service. -/
def ofServicePath : List String → Except PathRefusal Resource
  | ["openapi.json"] => .ok .description
  | ["docs"] => .ok .documentation
  | ["docs", ""] => .ok .documentation
  | ["docs", "oauth-receiver.html"] => .ok .documentation
  | ["health"] => .ok .health
  | ["partners"] => .ok .partners
  | ["partners", "search"] => .ok .search
  | ["partners", ""] => .error .unknown
  | ["partners", id] =>
    match percentText? id with
    | some id => .ok (.partner id)
    | none => .error .notText
  | _ => .error .unknown

/-- What lies below the root of the service is percent-encoded text, whatever it leads to. -/
def ofPath (path : String) : Except PathRefusal Resource :=
  match split '/' path with
  | ["", ""] => .ok .home
  | "" :: "api" :: "v1" :: rest =>
    if rest.all fun part => (percentText? part).isSome then ofServicePath rest
    else .error .notText
  | _ => .error .unknown

/-- Reading is for all resources but the search, which is posted; documents do not look at the
method. -/
def allows (resource : Resource) (method : String) : Bool :=
  match resource with
  | .description => true
  | .documentation => true
  | .search => method == "POST"
  | _ => method == "GET" || method == "HEAD"

end Resource

end PartnerSearch.Http
