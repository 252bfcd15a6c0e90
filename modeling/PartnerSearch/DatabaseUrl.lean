import PartnerSearch.Http.Form

set_option autoImplicit false

/-! Which texts name a database. -/

namespace PartnerSearch.DatabaseUrl

open Text (Bytes bytes cutAt)

/-- Drops `start` as long as the text begins with it. -/
def dropRepeated (start : List Char) (text : List Char) : List Char :=
  if start.isEmpty then text
  else if start.isPrefixOf text then dropRepeated start (text.drop start.length) else text
termination_by text.length
decreasing_by
  rename_i given found
  have shorter := (List.isPrefixOf_iff_prefix.mp found).length_le
  have some_length := List.length_pos_iff.mpr (mt List.isEmpty_iff.mpr given)
  simp only [List.length_drop]
  omega

/-- The text after the scheme. -/
def withoutScheme (url : String) : List Char :=
  dropRepeated "sqlite:".toList (dropRepeated "sqlite://".toList url.toList)

/-- The values that a parameter may have; any will do for a name of a file system. -/
def allows (name value : String) : Bool :=
  match name with
  | "mode" => value ∈ ["ro", "rw", "rwc", "memory"]
  | "cache" => value ∈ ["private", "shared"]
  | "immutable" => value ∈ ["true", "1", "false", "0"]
  | "vfs" => true
  | _ => false

/-- The path is text after decoding, and every parameter is known and has a value it may have. -/
def isValid (url : String) : Bool :=
  let (path, parameters) := cutAt '?' (withoutScheme url)
  let decoded := Http.percentDecode (bytes (String.ofList path))
  (Text.ofBytes? decoded).isSome &&
    (Http.formPairs (String.ofList (parameters.getD []))).all fun (name, value) =>
      allows name value

end PartnerSearch.DatabaseUrl
