import PartnerSearch.Proofs.Schema.Resolution

set_option autoImplicit false

/-!
Paths put together. Behind a path over relations, a path from where they lead is resolved as it is by
itself, with the relations crossed before its own.
-/

namespace PartnerSearch

variable {schema : Schema} {root middle goal : Fin schema.size}

theorem Schema.Leads.append {front back : List Hop} (first : schema.Leads root front middle)
    (second : schema.Leads middle back goal) : schema.Leads root (front ++ back) goal := by
  induction first with
  | here position => exact second
  | cross denoted onward ih => exact .cross denoted (ih second)

namespace Path

variable {front back : String} {leading segments : List String}

theorem Cut.append (first : Cut front leading) (second : Cut back segments)
    (few : (leading ++ segments).length ≤ segmentLimit) :
    Cut (front ++ "." ++ back) (leading ++ segments) where
  spelled := by
    rw [String.intercalate_append_of_ne_nil first.some_segment second.some_segment, ← first.spelled,
      ← second.spelled]
  some_segment := List.append_ne_nil_of_left_ne_nil first.some_segment segments
  few := few
  identifiers := List.forall_mem_append.mpr ⟨first.identifiers, second.identifiers⟩

theorem exists_denotes {member : String} {resolved : Resolved}
    (success : PartnerSearch.resolve schema root member = .ok resolved) :
    ∃ segments, Cut member segments ∧ Denotes schema root member segments resolved := by
  rcases denotes_or_refused schema root member with ⟨segments, other, cut, denotes⟩ | ⟨_, refused⟩
  · rw [denotes.resolve cut] at success
    cases success
    exact ⟨segments, cut, denotes⟩
  · rw [refused.resolve] at success
    cases success

/-- The relations that a path to a column crosses are those that its segments denote. -/
theorem leads_of_resolve_column {member : String} {path : ColumnPath}
    (success : PartnerSearch.resolve schema root member = .ok (.column path)) :
    ∃ goal, schema.Leads root path.hops goal := by
  obtain ⟨segments, -, denotes⟩ := exists_denotes success
  cases denotes with
  | column crossed single denoted => exact ⟨_, crossed⟩

theorem resolve_append {hops : List Hop} {path : ColumnPath} (cut : Cut front (hops.map Hop.field))
    (leads : schema.Leads root hops middle)
    (resolved : PartnerSearch.resolve schema middle back = .ok (.column path))
    (few : (hops ++ path.hops).length < segmentLimit)
    (single : (hops ++ path.hops).countP Hop.isMany ≤ 1) :
    PartnerSearch.resolve schema root (front ++ "." ++ back) =
      .ok (.column ⟨front ++ "." ++ back, hops ++ path.hops, path.column, path.type⟩) := by
  obtain ⟨segments, own, denotes⟩ := exists_denotes resolved
  cases denotes with
  | @column further goal name column type crossed _ denoted =>
      have whole : Cut (front ++ "." ++ back) ((hops ++ further).map Hop.field ++ [name]) := by
        rw [List.map_append, List.append_assoc]
        apply cut.append own
        rw [← List.append_assoc, ← List.map_append, List.length_append, List.length_map]
        exact few
      exact (Denotes.column (leads.append crossed) single denoted).resolve whole

end Path

end PartnerSearch
