import PartnerSearch.Text.Blank
import PartnerSearch.Text.Bytes
import PartnerSearch.Text.Integer
import PartnerSearch.Text.Quoted

set_option autoImplicit false

/-! Settings read from environment variables, and the paging they allow. -/

namespace PartnerSearch

open Text (Bytes IntegerFault quoted trimChars)

/-- The variables that are set. -/
structure Environment where
  entries : List (String × Bytes)

/-- The text of a variable; one that is not well-formed text counts as not set. -/
def Environment.get? (environment : Environment) (name : String) : Option String :=
  (environment.entries.lookup name).bind Text.ofBytes?

structure Configuration where
  databaseUrl : String := "sqlite:./partners.db?mode=rwc"
  port : UInt16 := 8080
  environment : String := "development"
  defaultPageSize : Int64 := 20
  maxPageSize : Int64 := 100
  deriving DecidableEq, Repr

inductive ConfigurationFault where
  | invalidNumber (name raw : String) (fault : IntegerFault)
  | maxPageSizeNotPositive (size : Int64)
  | defaultPageSizeOutOfRange (limit size : Int64)
  deriving DecidableEq, Repr

namespace ConfigurationFault

/-- What is wrong, without the cause. -/
def summary : ConfigurationFault → String
  | .invalidNumber name raw _ => "Invalid value for " ++ name ++ ": " ++ quoted raw
  | .maxPageSizeNotPositive size =>
    "API_MAX_PAGE_SIZE must be positive, got " ++ toString size.toInt
  | .defaultPageSizeOutOfRange limit size =>
    "API_DEFAULT_PAGE_SIZE must be between 1 and API_MAX_PAGE_SIZE (" ++ toString limit.toInt ++
      "), got " ++ toString size.toInt

/-- What is wrong, with the cause. -/
def message : ConfigurationFault → String
  | .invalidNumber name raw fault =>
    (invalidNumber name raw fault).summary ++ ": " ++ fault.message
  | fault => fault.summary

end ConfigurationFault

/-- A page that cannot be asked for. -/
inductive PageFault where
  | negativeLimit (limit : Int64)
  | negativeOffset (offset : Int64)
  deriving DecidableEq, Repr

def PageFault.message : PageFault → String
  | .negativeLimit limit => "limit must not be negative, got " ++ toString limit.toInt
  | .negativeOffset offset => "offset must not be negative, got " ++ toString offset.toInt

/-- The part of a listing that is shown. -/
structure Page where
  limit : Int64
  offset : Int64
  deriving DecidableEq, Repr

namespace Configuration

/-- Reads a variable without the blanks at its ends; one that is not set has its default. -/
def readVariable {α : Type} (environment : Environment) (name : String) (default : α)
    (read : List Char → Except IntegerFault α) : Except ConfigurationFault α :=
  match environment.get? name with
  | none => .ok default
  | some raw => (read (trimChars raw.toList)).mapError (.invalidNumber name raw)

/-- The page sizes are positive, and the default one is within the limit. -/
def checkPageSizes (configuration : Configuration) : Except ConfigurationFault Unit :=
  if configuration.maxPageSize < 1 then
    .error (.maxPageSizeNotPositive configuration.maxPageSize)
  else if configuration.defaultPageSize < 1 ∨
      configuration.maxPageSize < configuration.defaultPageSize then
    .error (.defaultPageSizeOutOfRange configuration.maxPageSize configuration.defaultPageSize)
  else .ok ()

def ofEnvironment (environment : Environment) : Except ConfigurationFault Configuration := do
  let standard : Configuration := {}
  let port ← readVariable environment "PORT" standard.port Text.readPort
  let defaultPageSize ← readVariable environment "API_DEFAULT_PAGE_SIZE" standard.defaultPageSize
    Text.readInt64
  let maxPageSize ← readVariable environment "API_MAX_PAGE_SIZE" standard.maxPageSize
    Text.readInt64
  let configuration : Configuration := {
    databaseUrl := (environment.get? "DATABASE_URL").getD standard.databaseUrl
    port := port
    environment := (environment.get? "ENVIRONMENT").getD standard.environment
    defaultPageSize := defaultPageSize
    maxPageSize := maxPageSize }
  configuration.checkPageSizes
  return configuration

/-- The address to listen on. -/
def bindAddress (configuration : Configuration) : String :=
  "0.0.0.0:" ++ toString configuration.port.toNat

/-- The page for a request: defaults fill what is not asked for, and the limit is capped. -/
def page (configuration : Configuration) (limit offset : Option Int64) : Except PageFault Page :=
  let limit := limit.getD configuration.defaultPageSize
  let offset := offset.getD 0
  if limit < 0 then .error (.negativeLimit limit)
  else if offset < 0 then .error (.negativeOffset offset)
  else .ok ⟨if limit ≤ configuration.maxPageSize then limit else configuration.maxPageSize, offset⟩

end Configuration

end PartnerSearch
