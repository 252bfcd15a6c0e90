import PartnerSearch.Http.Exchange
import PartnerSearch.Proofs.Service.Paging
import PartnerSearch.Proofs.Uuid.Canonical

set_option autoImplicit false

/-!
The identifier of a request. It is safe to write anywhere, whoever chose it. It is the one that is logged,
and a response tells it, unless the response is what has become of an error.
-/

namespace PartnerSearch

namespace Http

/-- A letter or digit of ASCII, a hyphen or an underscore. -/
def IsSafeChar (c : Char) : Prop :=
  ('A' ≤ c ∧ c ≤ 'Z') ∨ ('a' ≤ c ∧ c ≤ 'z') ∨ ('0' ≤ c ∧ c ≤ '9') ∨ c = '-' ∨ c = '_'

structure IsSafe (text : String) : Prop where
  nonempty : 1 ≤ text.length
  short : text.length ≤ 64
  safe : ∀ c ∈ text.toList, IsSafeChar c

namespace RequestId

theorem isIdChar_iff {c : Char} : isIdChar c = true ↔ IsSafeChar c := by
  have ranges : isIdChar c =
      ((decide ('A' ≤ c ∧ c ≤ 'Z') || (decide ('a' ≤ c) && decide (c ≤ 'z')) ||
        (decide ('0' ≤ c) && decide (c ≤ '9'))) || c == '-' || c == '_') := rfl
  simp only [ranges, Bool.or_eq_true, Bool.and_eq_true, decide_eq_true_eq, beq_iff_eq, IsSafeChar,
    or_assoc]

theorem isValid_iff {text : String} : isValid text = true ↔ IsSafe text := by
  simp only [isValid, Bool.and_eq_true, Bool.not_eq_true', List.isEmpty_eq_false_iff,
    decide_eq_true_eq, List.all_eq_true, isIdChar_iff]
  constructor
  · intro valid
    exact ⟨List.length_pos_iff.mpr valid.1.1, valid.1.2, valid.2⟩
  · intro safe
    exact ⟨⟨List.length_pos_iff.mp safe.nonempty, safe.short⟩, safe.safe⟩

/-- The digits of a UUID, without hyphens. -/
def ofUuid (uuid : Uuid) : String := String.ofList uuid.digits

theorem isSafe_ofUuid (uuid : Uuid) : IsSafe (ofUuid uuid) := by
  have size : (ofUuid uuid).length = 32 := by rw [ofUuid, String.length_ofList, Uuid.length_digits]
  refine ⟨by omega, by omega, fun c member => ?_⟩
  rw [ofUuid, String.toList_ofList] at member
  obtain ⟨n, small, rfl⟩ := Uuid.exists_of_mem_digits member
  have table : ∀ n < 16, isIdChar (Text.hexDigit n) = true := by decide
  exact isIdChar_iff.mp (table n small)

/-- Whose identifier a request has: the client's, if it sent a safe one. -/
inductive Identifies (request : Request) (fresh : String) : RequestId → Prop
  | supplied {text : String} (sent : request.header? "x-request-id" = some text)
      (safe : IsSafe text) : Identifies request fresh (.supplied text)
  | drawn (unfit : ∀ text, request.header? "x-request-id" = some text → ¬ IsSafe text) :
      Identifies request fresh (.drawn fresh)

variable {request : Request} {fresh : String}

theorem identifies_ofRequest : Identifies request fresh (ofRequest request fresh) := by
  rw [ofRequest]
  cases sent : (request.header? "x-request-id").filter isValid with
  | some text =>
      obtain ⟨given, valid⟩ := Option.filter_eq_some_iff.mp sent
      exact .supplied given (isValid_iff.mp valid)
  | none =>
      refine .drawn fun text given safe => ?_
      rw [given, Option.filter_some_pos (isValid_iff.mpr safe)] at sent
      cases sent

theorem Identifies.isSafe {id : RequestId} (identifies : Identifies request fresh id)
    (safe : IsSafe fresh) : IsSafe id.text := by
  cases identifies with
  | supplied _ safe => exact safe
  | drawn _ => exact safe

end RequestId

/-- In this event the request has this identifier and no other. -/
def TellsId (event : Log.Event) (id : RequestId) : Prop :=
  ∀ text, ("request_id", text) ∈ event.fields ↔ text = id.text

theorem tellsId_completedEvent (request : Request) (id : RequestId) (status : Nat) :
    TellsId (completedEvent request id status) id := by
  intro text
  rw [completedEvent]
  split
  · simp [requestFields, searchField, clientField]
  · split
    · simp [requestFields, searchField, clientField]
    · simp [requestFields, clientField]

theorem tellsId_refusedEvent (request : Request) (id : RequestId) (status : Nat) :
    TellsId (refusedEvent request id status) id := by
  intro text
  simp [refusedEvent, requestFields, clientField]

/-- What is logged by an endpoint itself. -/
def ownEvents : Except Nat Answer → List Log.Event
  | .ok answer => answer.events
  | .error _ => []

def outcomeStatus : Except Nat Answer → Nat
  | .ok answer => answer.status
  | .error status => status

variable (endpoint : Request → Except Nat Answer) (request : Request) (fresh : String)

theorem exists_event_of_identified :
    ∃ event, (identified endpoint request fresh).2 = ownEvents (endpoint request) ++ [event] ∧
      TellsId event (RequestId.ofRequest request fresh) := by
  rw [identified]
  cases endpoint request with
  | ok answer => exact ⟨_, rfl, tellsId_completedEvent _ _ _⟩
  | error status => exact ⟨_, rfl, tellsId_refusedEvent _ _ _⟩

end Http

namespace Failure

/-- What is logged about a failure itself does not tell any request. -/
theorem forall_fields (failure : Failure) :
    ∀ event ∈ failure.events, ∀ field ∈ event.fields, field.1 = "member" := by
  cases failure with
  | search error =>
      rw [events, List.forall_mem_singleton, searchEvent]
      split <;> simp
  | _ => simp [events]

end Failure

namespace Http

/-- What was logged for an answer tells no request. -/
def Answer.IsAnonymous (answer : Answer) : Prop :=
  ∀ event ∈ answer.events, ∀ text, ("request_id", text) ∉ event.fields

theorem Answer.isAnonymous_ofOutcome {α : Type} (toJson : α → Json) (outcome : Except Failure α) :
    (ofOutcome toJson outcome).IsAnonymous := by
  cases outcome with
  | ok value => exact nofun
  | error failure =>
      intro event member text field
      have named := failure.forall_fields event member _ field
      exact absurd named (by decide : "request_id" ≠ "member")

theorem isAnonymous_of_answerAt {service : Service} {request : Request} {resource : Resource}
    {answer : Answer} (answered : answerAt service request resource = .ok answer) :
    answer.IsAnonymous := by
  cases resource with
  | partners =>
      obtain ⟨limit, -, answered⟩ := Outcome.bind_eq_ok.mp answered
      obtain ⟨offset, -, answered⟩ := Outcome.bind_eq_ok.mp answered
      cases answered
      exact Answer.isAnonymous_ofOutcome _ _
  | search =>
      obtain ⟨body, -, answered⟩ := Outcome.bind_eq_ok.mp answered
      obtain ⟨limit, -, answered⟩ := Outcome.bind_eq_ok.mp answered
      obtain ⟨offset, -, answered⟩ := Outcome.bind_eq_ok.mp answered
      cases answered
      exact Answer.isAnonymous_ofOutcome _ _
  | partner id =>
      cases answered
      exact Answer.isAnonymous_ofOutcome _ _
  | _ =>
      cases answered
      exact nofun

theorem isAnonymous_of_answer {service : Service} {request : Request} {answer : Answer}
    (answered : Http.answer service request = .ok answer) : answer.IsAnonymous := by
  unfold Http.answer at answered
  split at answered
  · cases answered
  · cases answered
  · split at answered
    · exact isAnonymous_of_answerAt answered
    · cases answered

theorem respond_eq_identified (service : Service) {request : Request}
    (asked : request.isPreflight = false) (fresh : String) :
    respond service request fresh = identified service.endpoint request fresh := by
  rw [respond, asked, if_neg Bool.false_ne_true]

/-- In the log of an exchange with the service there is no other identifier than that of the request. -/
theorem respond_log {service : Service} {request : Request} (asked : request.isPreflight = false)
    {fresh : String} {event : Log.Event} (member : event ∈ (respond service request fresh).2)
    {text : String} (field : ("request_id", text) ∈ event.fields) :
    text = (RequestId.ofRequest request fresh).text := by
  obtain ⟨last, logged, tells⟩ :=
    exists_event_of_identified service.endpoint request fresh
  rw [respond_eq_identified service asked, logged, List.mem_append, List.mem_singleton] at member
  rcases member with own | rfl
  · cases answered : Http.answer service request with
    | ok answer =>
        rw [Service.endpoint, answered] at own
        exact absurd field (isAnonymous_of_answer answered event own text)
    | error refusal =>
        rw [Service.endpoint, answered] at own
        cases own
  · exact (tells text).mp field

/-- Whatever an endpoint does, the request has one safe identifier, the client's own if that is safe, and
the last event that is logged has it. The response has it exactly if it is an answer, of whatever status,
and not what has become of an error. The service logs no other identifier. -/
theorem requestId_told (endpoint : Request → Except Nat Answer) (request : Request) (uuid : Uuid) :
    let id := RequestId.ofRequest request (RequestId.ofUuid uuid)
    let exchange := identified endpoint request (RequestId.ofUuid uuid)
    RequestId.Identifies request (RequestId.ofUuid uuid) id ∧ IsSafe id.text ∧
      exchange.1.status = outcomeStatus (endpoint request) ∧
      (exchange.1.requestId = some id ↔ ∃ answer, endpoint request = .ok answer) ∧
      (exchange.1.requestId = none ↔ ∃ status, endpoint request = .error status) ∧
      (∃ event, exchange.2 = ownEvents (endpoint request) ++ [event] ∧ TellsId event id) ∧
      ∀ service : Service, endpoint = service.endpoint → request.isPreflight = false →
        respond service request (RequestId.ofUuid uuid) = exchange ∧
          ∀ event ∈ exchange.2, ∀ text, ("request_id", text) ∈ event.fields → text = id.text := by
  have identifies := @RequestId.identifies_ofRequest request (RequestId.ofUuid uuid)
  refine ⟨identifies, identifies.isSafe (RequestId.isSafe_ofUuid uuid), ?status, ?told, ?untold,
    exists_event_of_identified endpoint request _, ?service⟩
  case status =>
    rw [identified]
    cases endpoint request <;> rfl
  case told =>
    rw [identified]
    cases endpoint request <;> simp
  case untold =>
    rw [identified]
    cases endpoint request <;> simp
  case service =>
    rintro service rfl asked
    have same := respond_eq_identified service asked (RequestId.ofUuid uuid)
    refine ⟨same, fun event member text field => ?_⟩
    rw [← same] at member
    exact respond_log asked member field

/-- A client's own identifier at a resource that there is. -/
theorem requestId_told_health :
    let request : Request := ⟨"GET", "/api/v1/health", [("x-request-id", "abc-123")], []⟩
    IsSafe (RequestId.supplied "abc-123").text ∧
      (respond Service.sample request (RequestId.ofUuid ⟨0⟩)).1.requestId = some (.supplied "abc-123") ∧
      ∀ event ∈ (respond Service.sample request (RequestId.ofUuid ⟨0⟩)).2, ∀ text,
        ("request_id", text) ∈ event.fields → text = (RequestId.supplied "abc-123").text := by
  intro request
  have asked : request.isPreflight = false := by decide +kernel
  have supplied : RequestId.ofRequest request (RequestId.ofUuid ⟨0⟩) = .supplied "abc-123" := by
    decide +kernel
  have path : Resource.ofPath request.path = .ok .health := by decide +kernel
  have answered : Service.sample.endpoint request = .ok (.ofJson Service.sample.health.toJson) := by
    rw [Service.endpoint, Http.answer, path]
    rfl
  obtain ⟨-, safe, -, told, -, -, served⟩ := requestId_told Service.sample.endpoint request ⟨0⟩
  obtain ⟨same, logged⟩ := served Service.sample rfl asked
  have id := told.mpr ⟨_, answered⟩
  rw [supplied] at safe id logged
  rw [← same] at id logged
  exact ⟨safe, id, logged⟩

/-- At a path that leads nowhere the identifier is logged and not told. -/
theorem requestId_untold :
    let request : Request := ⟨"GET", "/nope", [("x-request-id", "abc-123")], []⟩
    let exchange := respond Service.sample request (RequestId.ofUuid ⟨0⟩)
    request.isPreflight = false ∧ exchange.1.status = 404 ∧ exchange.1.requestId = none ∧
      exchange.2 = [⟨.error, "request error", [("request_id", "abc-123"), ("method", "GET"),
        ("path", "/nope"), ("status", "404"), ("client_ip", "unknown")]⟩] := by
  decide +kernel

end Http

end PartnerSearch
