import PartnerSearch.Http.MediaType
import PartnerSearch.Http.Resource
import PartnerSearch.Json.Writer
import PartnerSearch.Service

set_option autoImplicit false

/-! Requests to the service, their responses, and what is logged about both. -/

namespace PartnerSearch

/-- The members that have a value. -/
def Json.ofPresent (members : List (String × Option Json)) : Json :=
  .object (members.filterMap fun (name, value) => value.map (name, ·))

def Json.ofInt64 (value : Int64) : Json := .number (.integer value.toInt)

def Partner.toJson (partner : Partner) : Json :=
  .ofPresent [
    ("id", some (.string partner.id)),
    ("name", some (.string partner.name)),
    ("status", some (.string partner.status.token)),
    ("tier", some (.ofInt64 partner.tier)),
    ("rating", partner.rating.map fun rating => .number (.real rating)),
    ("verified", some (.bool partner.verified)),
    ("website", partner.website.map .string),
    ("contact_id", partner.contactId.map .string),
    ("created_at_ns", some (.ofInt64 partner.createdAt))]

def Contact.toJson (contact : Contact) : Json :=
  .ofPresent [
    ("id", some (.string contact.id)),
    ("name", some (.string contact.name)),
    ("email", contact.email.map .string),
    ("country", contact.country.map .string)]

def PartnerDetails.toJson (details : PartnerDetails) : Json :=
  .ofPresent [
    ("partner", some details.partner.toJson),
    ("contact", details.contact.map Contact.toJson),
    ("attributes", some (.array (details.attributes.map .string)))]

def PartnerPage.toJson (page : PartnerPage) : Json :=
  .object [
    ("items", .array (page.items.map Partner.toJson)),
    ("total", .number (.integer page.total)),
    ("limit", .ofInt64 page.limit),
    ("offset", .ofInt64 page.offset)]

def Health.toJson (health : Health) : Json :=
  .object [
    ("success", .bool health.success),
    ("message", .string health.message),
    ("environment", .string health.environment)]

namespace Http

/-- An answer tells whether it is one; it has the data or the error. -/
structure Envelope where
  success : Bool
  data : Option Json
  error : Option String

def Envelope.toJson (envelope : Envelope) : Json :=
  .ofPresent [
    ("success", some (.bool envelope.success)),
    ("data", envelope.data),
    ("error", envelope.error.map .string)]

/-- What a resource has to say. -/
structure Answer where
  status : Nat
  content : Option Json
  location : Option String
  events : List Log.Event

namespace Answer

def ofJson (content : Json) : Answer := ⟨200, some content, none, []⟩

/-- A document whose content is not kept. -/
def document : Answer := ⟨200, none, none, []⟩

def redirect (location : String) : Answer := ⟨307, none, some location, []⟩

def ofOutcome {α : Type} (toJson : α → Json) : Except Failure α → Answer
  | .ok value => .ofJson (Envelope.mk true (some (toJson value)) none).toJson
  | .error failure =>
    ⟨failure.status, some (Envelope.mk false none (some failure.message)).toJson, none,
      failure.events⟩

end Answer

/-- Requests that do not get as far as a question to the service. -/
inductive Refusal where
  | badRequest
  | notFound
  | methodNotAllowed
  | unsupportedMediaType
  deriving DecidableEq, Repr

def Refusal.status : Refusal → Nat
  | .badRequest => 400
  | .notFound => 404
  | .methodNotAllowed => 405
  | .unsupportedMediaType => 415

/-- A whole number, if the parameter is there. -/
def readInteger? (request : Request) (name : String) : Except Refusal (Option Int64) :=
  match request.parameter? name with
  | none => .ok none
  | some text =>
    match Text.readInt64 text.toList with
    | .ok value => .ok (some value)
    | .error _ => .error .badRequest

/-- The JSON value in the body; an empty body is null. -/
def readBody (request : Request) : Except Refusal Json :=
  if request.mediaType?.any MediaType.isJson then
    if request.body.isEmpty then .ok .null
    else (Json.read request.body).mapError fun _ => .badRequest
  else .error .unsupportedMediaType

/-- What a resource answers to a method that it allows. -/
def answerAt (service : Service) (request : Request) : Resource → Except Refusal Answer
  | .home => .ok (.redirect Resource.documentationPath)
  | .description => .ok .document
  | .documentation => .ok .document
  | .health => .ok (.ofJson service.health.toJson)
  | .partners => do
    let limit ← readInteger? request "limit"
    let offset ← readInteger? request "offset"
    let search := Search.ofQuery (request.parameter? "search")
    return .ofOutcome PartnerPage.toJson (service.searchPartners search limit offset)
  | .search => do
    let body ← readBody request
    let limit ← readInteger? request "limit"
    let offset ← readInteger? request "offset"
    return .ofOutcome PartnerPage.toJson
      (service.searchPartners (Search.ofJson body) limit offset)
  | .partner id => .ok (.ofOutcome PartnerDetails.toJson (service.partnerDetails id))

def answer (service : Service) (request : Request) : Except Refusal Answer :=
  match Resource.ofPath request.path with
  | .error .unknown => .error .notFound
  | .error .notText => .error .badRequest
  | .ok resource =>
    if resource.allows request.method then answerAt service request resource
    else .error .methodNotAllowed

/-- The text of a JSON answer; the head of an answer comes without it. -/
def bodyText (method : String) (content : Json) : String :=
  if method = "HEAD" then "" else content.render

def requestFields (request : Request) (id : RequestId) (status : Nat) : List (String × String) :=
  [("request_id", id.text), ("method", request.method), ("path", request.path),
    ("status", toString status)]

def clientField : String × String := ("client_ip", "unknown")

def searchField (request : Request) : String × String :=
  ("has_search", if request.hasSearch then "true" else "false")

def isSuccess (status : Nat) : Bool := 200 ≤ status && status < 300

def isFailure (status : Nat) : Bool := 400 ≤ status && status < 600

/-- How a request that was answered is logged. -/
def completedEvent (request : Request) (id : RequestId) (status : Nat) : Log.Event :=
  let fields := requestFields request id status
  if isSuccess status then
    ⟨.info, "request completed", fields ++ [searchField request, clientField]⟩
  else if isFailure status then
    ⟨.warning, "request failed", fields ++ [searchField request, clientField]⟩
  else ⟨.debug, "request completed", fields ++ [clientField]⟩

/-- How a request that was refused is logged. -/
def refusedEvent (request : Request) (id : RequestId) (status : Nat) : Log.Event :=
  ⟨.error, "request error", requestFields request id status ++ [clientField]⟩

/-- A page of another origin asks first which requests it may make. -/
def Request.isPreflight (request : Request) : Bool :=
  request.method == "OPTIONS" && (request.header? "origin").isSome

/-- Any method may be used, but one must be named. -/
def preflightResponse (request : Request) : Response :=
  if (request.header? "access-control-request-method").any isToken then
    ⟨200, none, none, request.header? "origin", none⟩
  else ⟨403, none, none, none, none⟩

end Http

/-- The service as an endpoint. -/
def Service.endpoint (service : Service) (request : Http.Request) : Except Nat Http.Answer :=
  (Http.answer service request).mapError Http.Refusal.status

namespace Http

/-- What an endpoint answers, or the status of its error, while the request is identified and logged. An
error carries no request id. -/
def identified (endpoint : Request → Except Nat Answer) (request : Request) (fresh : String) :
    Response × List Log.Event :=
  let id := RequestId.ofRequest request fresh
  let origin := request.header? "origin"
  match endpoint request with
  | .ok answer =>
    (⟨answer.status, some id, answer.location, origin,
        answer.content.map (bodyText request.method)⟩,
      answer.events ++ [completedEvent request id answer.status])
  | .error status => (⟨status, none, none, origin, none⟩, [refusedEvent request id status])

/-- The response to a request, and the log of the exchange. A preflight is not logged. -/
def respond (service : Service) (request : Request) (fresh : String) :
    Response × List Log.Event :=
  if request.isPreflight then (preflightResponse request, [])
  else identified service.endpoint request fresh

end Http

end PartnerSearch
