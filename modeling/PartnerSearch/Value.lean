import PartnerSearch.Number.Binary64

set_option autoImplicit false

/-! Typed operands of conditions. -/

namespace PartnerSearch

inductive Value where
  | text (value : String)
  | integer (value : Int64)
  | real (value : Binary64)
  | boolean (value : Bool)
  deriving DecidableEq, Repr

end PartnerSearch
