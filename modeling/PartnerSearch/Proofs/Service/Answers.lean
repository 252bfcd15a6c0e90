import PartnerSearch.Http.Exchange
import PartnerSearch.Proofs.Directory.Details
import PartnerSearch.Proofs.Registry.Validation
import PartnerSearch.Proofs.Service.Paging

set_option autoImplicit false

/-!
Which answer a search ends in. It is read, then its page is judged, then it is compiled; the first
step that fails decides, and only a type without a strategy is not the client's doing.
-/

namespace PartnerSearch

/-- A search as it arrives: a parameter that may be left out, or a JSON document. -/
inductive SearchInput where
  | parameter (raw : Option String)
  | document (value : Json)

def SearchInput.read : SearchInput → Except DecodeFault Search
  | .parameter raw => Search.ofQuery raw
  | .document value => Search.ofJson value

/-- The answer to a search. -/
def Service.answerSearch (service : Service) (input : SearchInput) (limit offset : Option Int64) :
    Http.Answer :=
  .ofOutcome PartnerPage.toJson (service.searchPartners input.read limit offset)

namespace Http

/-- The request asks a resource for a page of the search. -/
inductive Asks (request : Request) (limit offset : Option Int64) : Resource → SearchInput → Prop
  | parameter (limited : readInteger? request "limit" = .ok limit)
      (started : readInteger? request "offset" = .ok offset) :
      Asks request limit offset .partners (.parameter (request.parameter? "search"))
  | document {value : Json} (read : readBody request = .ok value)
      (limited : readInteger? request "limit" = .ok limit)
      (started : readInteger? request "offset" = .ok offset) :
      Asks request limit offset .search (.document value)

theorem answerAt_of_asks {request : Request} {limit offset : Option Int64} {resource : Resource}
    {input : SearchInput} (asks : Asks request limit offset resource input) (service : Service) :
    answerAt service request resource = .ok (service.answerSearch input limit offset) := by
  cases asks with
  | parameter limited started =>
      rw [answerAt, limited, started]
      rfl
  | document read limited started =>
      rw [answerAt, read, limited, started]
      rfl

namespace Answer

/-- The answer has a status and tells why there is no data. -/
structure Refuses (answer : Answer) (status : Nat) (message : String) : Prop where
  status : answer.status = status
  content : answer.content =
    some (.object [("success", .bool false), ("error", .string message)])

/-- The answer has the data. -/
structure Delivers (answer : Answer) (data : Json) : Prop where
  status : answer.status = 200
  content : answer.content = some (.object [("success", .bool true), ("data", data)])

/-- A member of the content. -/
def member? (answer : Answer) (name : String) : Option Json :=
  match answer.content with
  | some (.object members) => members.lookup name
  | _ => none

/-- Success and data come with status 200, and an error comes with any other. -/
structure Coherent (answer : Answer) : Prop where
  success : answer.member? "success" = some (.bool (answer.status == 200))
  data : (answer.member? "data").isSome = (answer.status == 200)
  error : (answer.member? "error").isSome = (answer.status != 200)

variable {answer : Answer}

theorem Refuses.coherent {status : Nat} {message : String} (refuses : answer.Refuses status message)
    (other : status ≠ 200) : answer.Coherent := by
  have failed : (answer.status == 200) = false := by simpa [refuses.status] using other
  constructor
  · rw [failed, member?, refuses.content]
    rfl
  · rw [failed, member?, refuses.content]
    rfl
  · rw [bne, failed, member?, refuses.content]
    rfl

theorem Delivers.coherent {data : Json} (delivers : answer.Delivers data) : answer.Coherent := by
  constructor
  · rw [delivers.status, member?, delivers.content]
    rfl
  · rw [delivers.status, member?, delivers.content]
    rfl
  · rw [delivers.status, member?, delivers.content]
    rfl

end Answer

end Http

/-- What a search ends in: the first of its steps that fails, or its page. -/
inductive Judged (service : Service) (input : SearchInput) (limit offset : Option Int64)
    (answer : Http.Answer) : Prop
  | unreadable {fault : DecodeFault} (unread : input.read = .error fault)
      (refuses : answer.Refuses 400 (SearchError.malformedPayload fault).message)
  | negativeLimit {search : Search} {wanted : Int64} (read : input.read = .ok search)
      (asked : limit = some wanted) (negative : wanted < 0)
      (refuses : answer.Refuses 400 (PageFault.negativeLimit wanted).message)
  | negativeOffset {search : Search} {start : Int64} (read : input.read = .ok search)
      (possible : ∀ wanted ∈ limit, 0 ≤ wanted) (asked : offset = some start) (negative : start < 0)
      (refuses : answer.Refuses 400 (PageFault.negativeOffset start).message)
  | rejected {search : Search} {reason : SearchError} (read : input.read = .ok search)
      (possible : ¬IsNegativeRequest limit offset)
      (failed : search.compile service.registry Directory.schema Directory.root = .error reason)
      (registered : ∀ member type, reason ≠ .unregisteredType member type)
      (refuses : answer.Refuses 400 reason.message)
  | misconfigured {search : Search} {member : String} {type : FieldType}
      (read : input.read = .ok search) (possible : ¬IsNegativeRequest limit offset)
      (failed : search.compile service.registry Directory.schema Directory.root =
        .error (.unregisteredType member type))
      (refuses : answer.Refuses 500 (SearchError.unregisteredType member type).message)
  | answered {search : Search} {predicate : Predicate} {page : PartnerPage}
      (read : input.read = .ok search) (possible : ¬IsNegativeRequest limit offset)
      (compiled : search.compile service.registry Directory.schema Directory.root = .ok predicate)
      (paged : service.searchPartners (.ok search) limit offset = .ok page)
      (delivers : answer.Delivers page.toJson)

namespace Configuration

variable {configuration : Configuration} {limit offset : Option Int64}

theorem page_of_negativeLimit {wanted : Int64} (asked : limit = some wanted) (negative : wanted < 0) :
    configuration.page limit offset = .error (.negativeLimit wanted) := by
  subst asked
  exact if_pos negative

theorem page_of_negativeOffset (sizes : configuration.HasPageSizes) {start : Int64}
    (possible : ∀ wanted ∈ limit, 0 ≤ wanted) (asked : offset = some start) (negative : start < 0) :
    configuration.page limit offset = .error (.negativeOffset start) := by
  have positive : 0 ≤ configuration.defaultPageSize := Int64.le_trans (by decide) sizes.1
  have wanted : 0 ≤ limit.getD configuration.defaultPageSize := by
    cases limit with
    | none => exact positive
    | some wanted => exact possible wanted rfl
  subst asked
  rw [page, if_neg (Int64.not_lt.mpr wanted)]
  exact if_pos negative

end Configuration

theorem Service.searchPartners_of_failed {service : Service} {search : Search} {page : Page}
    {limit offset : Option Int64} (paged : service.configuration.page limit offset = .ok page)
    {reason : SearchError}
    (failed : search.compile service.registry Directory.schema Directory.root = .error reason) :
    service.searchPartners (.ok search) limit offset = .error (.search reason) := by
  rw [searchPartners, paged]
  change (search.compile _ _ _).mapError Failure.search >>= _ = _
  rw [failed]
  rfl

theorem SearchError.status_of_registered {reason : SearchError}
    (registered : ∀ member type, reason ≠ .unregisteredType member type) : reason.status = 400 := by
  cases reason with
  | unregisteredType member type => exact absurd rfl (registered member type)
  | _ => rfl

section Judging

variable {service : Service} {input : SearchInput} {limit offset : Option Int64}

/-- The statements that the search comes to, if it compiles, are executed. -/
def Service.ExecutesSearch (service : Service) (input : SearchInput) : Prop :=
  ∀ search predicate, input.read = .ok search →
    search.compile service.registry Directory.schema Directory.root = .ok predicate →
    service.directory.Executes predicate

/-- With page sizes and statements that are executed, a search ends in what its steps say. -/
theorem judged_answerSearch (sizes : service.configuration.HasPageSizes)
    (executed : service.ExecutesSearch input) :
    Judged service input limit offset (service.answerSearch input limit offset) := by
  unfold Service.answerSearch
  cases read : input.read with
  | error fault => exact .unreadable read ⟨rfl, rfl⟩
  | ok search =>
      by_cases low : ∃ wanted ∈ limit, wanted < 0
      · obtain ⟨wanted, asked, negative⟩ := low
        rw [Service.searchPartners_of_refused (Configuration.page_of_negativeLimit asked negative)]
        exact .negativeLimit read asked negative ⟨rfl, rfl⟩
      have possible : ∀ wanted ∈ limit, 0 ≤ wanted := by
        intro wanted asked
        exact Int64.not_lt.mp fun negative => low ⟨wanted, asked, negative⟩
      by_cases early : ∃ start ∈ offset, start < 0
      · obtain ⟨start, asked, negative⟩ := early
        rw [Service.searchPartners_of_refused
          (Configuration.page_of_negativeOffset sizes possible asked negative)]
        exact .negativeOffset read possible asked negative ⟨rfl, rfl⟩
      have both : ¬IsNegativeRequest limit offset := not_or.mpr ⟨low, early⟩
      have paged := Configuration.page_of_possible sizes both
      cases compiled : search.compile service.registry Directory.schema Directory.root with
      | ok predicate =>
          have answered := Service.searchPartners_of_page compiled
            (executed search predicate read compiled) paged
          rw [answered]
          exact .answered read both compiled answered ⟨rfl, rfl⟩
      | error reason =>
          rw [Service.searchPartners_of_failed paged compiled]
          by_cases unregistered : ∃ member type, reason = .unregisteredType member type
          · obtain ⟨member, type, rfl⟩ := unregistered
            exact .misconfigured read both compiled ⟨rfl, rfl⟩
          · have registered : ∀ member type, reason ≠ .unregisteredType member type :=
              fun member type same => unregistered ⟨member, type, same⟩
            exact .rejected read both compiled registered
              ⟨SearchError.status_of_registered registered, rfl⟩

variable {answer : Http.Answer}

/-- Statuses tell the answers apart, and an answer has either data or an error. -/
theorem Judged.statuses (judged : Judged service input limit offset answer) :
    (answer.status = 500 ↔ ∃ search member type, input.read = .ok search ∧
        ¬IsNegativeRequest limit offset ∧
        search.compile service.registry Directory.schema Directory.root =
          .error (.unregisteredType member type)) ∧
      (answer.status = 200 ↔ ∃ search predicate, input.read = .ok search ∧
        ¬IsNegativeRequest limit offset ∧
        search.compile service.registry Directory.schema Directory.root = .ok predicate) := by
  cases judged with
  | unreadable unread refuses => simp [refuses.status, unread]
  | negativeLimit read asked negative refuses =>
    simp [refuses.status, IsNegativeRequest, asked, negative]
  | negativeOffset read possible asked negative refuses =>
    simp [refuses.status, IsNegativeRequest, asked, negative]
  | rejected read possible failed registered refuses =>
    simp [refuses.status, read, failed, registered]
  | misconfigured read possible failed refuses =>
    simp [refuses.status, read, failed, possible]
  | answered read possible compiled paged delivers =>
    simp [delivers.status, read, compiled, possible]

theorem Judged.coherent (judged : Judged service input limit offset answer) : answer.Coherent := by
  cases judged with
  | unreadable unread refuses => exact refuses.coherent (by decide)
  | negativeLimit read asked negative refuses => exact refuses.coherent (by decide)
  | negativeOffset read possible asked negative refuses => exact refuses.coherent (by decide)
  | rejected read possible failed registered refuses => exact refuses.coherent (by decide)
  | misconfigured read possible failed refuses => exact refuses.coherent (by decide)
  | answered read possible compiled paged delivers => exact delivers.coherent

end Judging

theorem Registry.compile_ne_unregistered {registry : Registry} {schema : Schema}
    {root : Fin schema.size} (validated : registry.validate schema root = .ok ()) (search : Search)
    (member : String) (type : FieldType) :
    search.compile registry schema root ≠ .error (.unregisteredType member type) := by
  intro failed
  obtain ⟨leaf, -, refused⟩ := Search.exists_leaf_of_compile_error failed
  obtain ⟨unregistered, names, reached⟩ := leaf.compile_eq_unregistered refused
  rw [validate_ok validated reached] at unregistered
  cases unregistered

theorem Http.Refusal.status_ne_internal (refusal : Refusal) : refusal.status ≠ 500 := by
  cases refusal <;> decide

section Validated

variable {service : Service}
  (validated : service.registry.validate Directory.schema Directory.root = .ok ())

include validated

theorem Judged.status_ne_internal {input : SearchInput} {limit offset : Option Int64}
    {answer : Http.Answer} (judged : Judged service input limit offset answer) :
    answer.status ≠ 500 := by
  intro failed
  obtain ⟨search, member, type, -, -, refused⟩ := judged.statuses.1.mp failed
  exact Registry.compile_ne_unregistered validated search member type refused

variable (sizes : service.configuration.HasPageSizes) (intact : service.directory.dropped = [])

include sizes intact

namespace Http

variable {request : Request} (executed : ∀ limit offset resource input,
  Asks request limit offset resource input → service.ExecutesSearch input)

include executed

theorem answerAt_status_ne_internal {resource : Resource} {answer : Answer}
    (answered : answerAt service request resource = .ok answer) : answer.status ≠ 500 := by
  have searched {input : SearchInput} {limit offset : Option Int64}
      (asks : Asks request limit offset resource input) :
      (service.answerSearch input limit offset).status ≠ 500 :=
    (judged_answerSearch sizes (executed _ _ _ _ asks)).status_ne_internal validated
  cases resource with
  | home => cases answered; decide
  | description => cases answered; decide
  | documentation => cases answered; decide
  | health => cases answered; exact (by decide : 200 ≠ 500)
  | partners =>
      obtain ⟨limit, limited, rest⟩ := Outcome.bind_eq_ok.mp answered
      obtain ⟨offset, started, -⟩ := Outcome.bind_eq_ok.mp rest
      have asks := Asks.parameter limited started
      cases (answerAt_of_asks asks service).symm.trans answered
      exact searched asks
  | search =>
      obtain ⟨body, read, rest⟩ := Outcome.bind_eq_ok.mp answered
      obtain ⟨limit, limited, rest⟩ := Outcome.bind_eq_ok.mp rest
      obtain ⟨offset, started, -⟩ := Outcome.bind_eq_ok.mp rest
      have asks := Asks.document read limited started
      cases (answerAt_of_asks asks service).symm.trans answered
      exact searched asks
  | partner id =>
      cases answered
      rw [Service.partnerDetails, Directory.details?_intact intact]
      cases service.directory.partners.find? fun partner => partner.id == id with
      | none => exact (by decide : 404 ≠ 500)
      | some partner => exact (by decide : 200 ≠ 500)

theorem answer_status_ne_internal {answer : Answer}
    (answered : Http.answer service request = .ok answer) : answer.status ≠ 500 := by
  unfold Http.answer at answered
  split at answered
  · cases answered
  · cases answered
  · split at answered
    · exact answerAt_status_ne_internal validated sizes intact executed answered
    · cases answered

/-- Whatever the request, the service does not fail. -/
theorem respond_status_ne_internal (fresh : String) :
    (respond service request fresh).1.status ≠ 500 := by
  unfold respond
  split
  · unfold preflightResponse
    split
    · exact (by decide : 200 ≠ 500)
    · exact (by decide : 403 ≠ 500)
  · rw [identified, Service.endpoint]
    cases answered : Http.answer service request with
    | ok answer => exact answer_status_ne_internal validated sizes intact executed answered
    | error refusal => exact refusal.status_ne_internal

end Http

end Validated

namespace Service

/-- A search for partners by name, and a service that cannot search texts. -/
def acmeSearch : Search := ⟨[Directory.test "name" .equals ["Acme"]]⟩

def unprepared : Service := ⟨Directory.sample, .empty, {}⟩

end Service

end PartnerSearch
