set_option autoImplicit false

/-! Log events. -/

namespace PartnerSearch.Log

inductive Level where
  | debug
  | info
  | warning
  | error
  deriving DecidableEq, Repr

def Level.label : Level → String
  | .debug => "DEBUG"
  | .info => "INFO"
  | .warning => "WARN"
  | .error => "ERROR"

/-- A message with named details. -/
structure Event where
  level : Level
  message : String
  fields : List (String × String)
  deriving DecidableEq, Repr

end PartnerSearch.Log
