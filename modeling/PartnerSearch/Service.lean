import PartnerSearch.Search.Compilation
import PartnerSearch.Configuration
import PartnerSearch.Directory.Store
import PartnerSearch.Search.Parameter

set_option autoImplicit false

/-! Questions to a partner directory: a page of a search, and one partner in detail. -/

namespace PartnerSearch

structure Service where
  directory : Directory
  registry : Registry
  configuration : Configuration

/-- A part of the matching partners, and how many match in all. -/
structure PartnerPage where
  items : List Partner
  total : Nat
  limit : Int64
  offset : Int64
  deriving DecidableEq, Repr

/-- Why a question has no answer. -/
inductive Failure where
  | search (error : SearchError)
  | paging (fault : PageFault)
  | listing (fault : EngineFault)
  | counting (fault : EngineFault)
  | loading (id : String) (fault : EngineFault)
  | partnerNotFound (id : String)
  deriving DecidableEq, Repr

namespace Failure

def status : Failure → Nat
  | .search error => error.status
  | .paging _ => 400
  | .listing _ => 500
  | .counting _ => 500
  | .loading _ _ => 500
  | .partnerNotFound _ => 404

def message : Failure → String
  | .search error => error.message
  | .paging fault => fault.message
  | .listing fault => fault.message
  | .counting fault => fault.message
  | .loading _ fault => fault.message
  | .partnerNotFound id => "Partner " ++ id ++ " not found"

/-- The path that a search error is about, as it is logged. -/
def memberText (error : SearchError) : String :=
  match error.member? with
  | none => "None"
  | some member => "Some(" ++ Text.quoted member ++ ")"

def searchEvent (error : SearchError) : Log.Event :=
  let fields := [("member", memberText error)]
  if error.isClientError then ⟨.warning, "Rejected partner search: " ++ error.message, fields⟩
  else ⟨.error, "Partner search misconfigured: " ++ error.message, fields⟩

/-- What is logged about a failure beside the request itself. -/
def events : Failure → List Log.Event
  | .search error => [searchEvent error]
  | .paging _ => []
  | .listing fault => [⟨.error, "Failed to list partners: " ++ fault.chain, []⟩]
  | .counting fault => [⟨.error, "Failed to count partners: " ++ fault.chain, []⟩]
  | .loading id fault => [⟨.error, "Failed to load partner " ++ id ++ ": " ++ fault.chain, []⟩]
  | .partnerNotFound _ => []

end Failure

/-- Whether the directory can be reached. -/
structure Health where
  success : Bool
  message : String
  environment : String
  deriving DecidableEq, Repr

namespace Service

/-- A page of a search. The search must be readable, then the page possible, then the search
compilable. -/
def searchPartners (service : Service) (search : Except DecodeFault Search)
    (limit offset : Option Int64) : Except Failure PartnerPage := do
  let search ← search.mapError fun fault => .search (.malformedPayload fault)
  let page ← (service.configuration.page limit offset).mapError .paging
  let predicate ← (search.compile service.registry Directory.schema Directory.root).mapError
    .search
  let items ← (service.directory.list predicate (some page.limit) (some page.offset)).mapError
    .listing
  let total ← (service.directory.count predicate).mapError .counting
  return ⟨items, total, page.limit, page.offset⟩

def partnerDetails (service : Service) (id : String) : Except Failure PartnerDetails := do
  match ← (service.directory.details? id).mapError (.loading id) with
  | some details => return details
  | none => .error (.partnerNotFound id)

def health (service : Service) : Health :=
  ⟨true, "Partner API is running", service.configuration.environment⟩

end Service

end PartnerSearch
