import PartnerSearch.Path
import PartnerSearch.Proofs.Outcome

set_option autoImplicit false

/-!
Walks over a field graph: relations crossed one after another. What a member path resolves to is a
walk from the root, with at most one collection on it.
-/

namespace PartnerSearch

/-- Every hop is a relation of the entity that the hops before it arrive at. -/
inductive Schema.Walk (schema : Schema) : Fin schema.size → List Hop → Fin schema.size → Prop
  | here (position : Fin schema.size) : Walk schema position [] position
  | cross {position target goal : Fin schema.size} {name : String} {cardinality : Cardinality}
      {join : Join} {hops : List Hop}
      (declared : .relation name target cardinality join ∈ (schema.entity position).fields)
      (onward : Walk schema target hops goal) :
      Walk schema position (⟨name, (schema.entity target).table, join, cardinality⟩ :: hops) goal

theorem Schema.Walk.append {schema : Schema} {start middle goal : Fin schema.size}
    {front back : List Hop} (first : schema.Walk start front middle)
    (second : schema.Walk middle back goal) : schema.Walk start (front ++ back) goal := by
  induction first with
  | here position => exact second
  | cross declared onward ih => exact .cross declared (ih second)

/-- The names lead over relations from the root to a scalar field of that type. -/
def Schema.ScalarAt (schema : Schema) (root : Fin schema.size) (names : List String)
    (type : FieldType) : Prop :=
  ∃ hops position name column, schema.Walk root hops position ∧
    .scalar name column type ∈ (schema.entity position).fields ∧
    names = hops.map Hop.field ++ [name]

namespace Path

variable {schema : Schema} {member : String}

/-- What one segment of a path that can be walked is: the scalar at its end, or a relation that is
crossed, which is not a second collection. -/
theorem walk_cons_ok {segment : String} {rest : List String} {position : Fin schema.size}
    {crossed : Bool} {result : Walk}
    (success : walk schema member (segment :: rest) position crossed = .ok result) :
    (∃ column type, .scalar segment column type ∈ (schema.entity position).fields ∧
        rest = [] ∧ result = ⟨[], some (column, type)⟩) ∨
      ∃ target cardinality join next,
        .relation segment target cardinality join ∈ (schema.entity position).fields ∧
        (crossed = true → cardinality = .one) ∧
        walk schema member rest target (crossed || cardinality == .many) = .ok next ∧
        result = next.through ⟨segment, (schema.entity target).table, join, cardinality⟩ := by
  simp only [walk] at success
  split at success
  · cases success
  · rename_i name column type found
    have declared := Entity.mem_of_field? found
    have named : name = segment := Entity.name_of_field? found
    subst named
    split at success
    · rename_i last
      exact .inl ⟨column, type, declared, List.isEmpty_iff.mp last, (Except.ok.inj success).symm⟩
    · cases success
  · rename_i name target cardinality join found
    have declared := Entity.mem_of_field? found
    have named : name = segment := Entity.name_of_field? found
    subst named
    split at success
    · cases success
    · rename_i allowed
      cases onward : walk schema member rest target (crossed || cardinality == .many) with
      | error reason =>
          rw [onward] at success
          cases success
      | ok next =>
          rw [onward] at success
          refine .inr ⟨target, cardinality, join, next, declared, ?_, onward,
            (Except.ok.inj success).symm⟩
          intro behind
          cases cardinality with
          | one => rfl
          | many => simp [behind] at allowed

/-- The hops of a walked path are a walk over the graph, and a scalar at its end is a field of the
entity that they arrive at. -/
theorem walk_walks {segments : List String} {position : Fin schema.size} {crossed : Bool}
    {result : Walk} (success : walk schema member segments position crossed = .ok result) :
    ∃ goal, schema.Walk position result.hops goal ∧
      ∀ column type, result.scalar = some (column, type) →
        ∃ name, .scalar name column type ∈ (schema.entity goal).fields := by
  induction segments generalizing position crossed result with
  | nil =>
      cases success
      exact ⟨position, .here position, by simp⟩
  | cons segment rest ih =>
      rcases walk_cons_ok success with
        ⟨column, type, declared, -, rfl⟩ |
        ⟨target, cardinality, join, next, declared, -, onward, rfl⟩
      · refine ⟨position, .here position, ?_⟩
        rintro _ _ ⟨⟩
        exact ⟨segment, declared⟩
      · obtain ⟨goal, walked, scalar⟩ := ih onward
        exact ⟨goal, .cross declared walked, scalar⟩

/-- A walk with a collection behind it crosses no other, and any walk crosses one at most. -/
theorem walk_many {segments : List String} {position : Fin schema.size} {crossed : Bool}
    {result : Walk} (success : walk schema member segments position crossed = .ok result) :
    result.hops.countP Hop.isMany ≤ if crossed then 0 else 1 := by
  induction segments generalizing position crossed result with
  | nil =>
      cases success
      simp
  | cons segment rest ih =>
      rcases walk_cons_ok success with
        ⟨column, type, -, -, rfl⟩ | ⟨target, cardinality, join, next, -, single, onward, rfl⟩
      · simp
      · have later := ih onward
        simp only [Walk.through, List.countP_cons, Hop.isMany]
        cases cardinality with
        | one => simpa using later
        | many =>
            have fresh : crossed = false := by
              cases crossed with
              | false => rfl
              | true => cases single rfl
            subst fresh
            simpa using later

theorem length_hops_le_of_walk {segments : List String} {position : Fin schema.size}
    {crossed : Bool} {result : Walk}
    (success : walk schema member segments position crossed = .ok result) :
    result.hops.length ≤ segments.length := by
  induction segments generalizing position crossed result with
  | nil =>
      cases success
      exact Nat.le_refl 0
  | cons segment rest ih =>
      rcases walk_cons_ok success with
        ⟨column, type, -, -, rfl⟩ | ⟨target, cardinality, join, next, -, -, onward, rfl⟩
      · exact Nat.zero_le _
      · exact Nat.succ_le_succ (ih onward)

theorem length_segments_le {parts : List String} (cut : segments member = .ok parts) :
    parts.length ≤ segmentLimit := by
  obtain ⟨-, cut⟩ := Outcome.refuse_eq_ok.mp cut
  obtain ⟨few, cut⟩ := Outcome.refuse_eq_ok.mp cut
  split at cut
  · cases cut
  · cases cut
    exact Nat.not_lt.mp few

end Path

variable {schema : Schema} {root : Fin schema.size} {member : String}

/-- A resolved path was cut into segments and walked. -/
theorem resolve_ok {resolved : Resolved} (success : resolve schema root member = .ok resolved) :
    ∃ segments walk, Path.segments member = .ok segments ∧
      Path.walk schema member segments root false = .ok walk ∧ resolved = walk.resolved member := by
  simp only [resolve, Outcome.bind_eq_ok, Outcome.pure_eq_ok] at success
  obtain ⟨segments, cut, walk, walked, same⟩ := success
  exact ⟨segments, walk, cut, walked, same.symm⟩

theorem Path.Walk.eq_of_resolved_column {walk : Path.Walk} {path : ColumnPath}
    (same : walk.resolved member = .column path) :
    walk.hops = path.hops ∧ walk.scalar = some (path.column, path.type) := by
  unfold Path.Walk.resolved at same
  split at same
  · rename_i column type found
    cases same
    exact ⟨rfl, found⟩
  · cases same

theorem Path.Walk.eq_of_resolved_relation {walk : Path.Walk} {path : RelationPath}
    (same : walk.resolved member = .relation path) :
    walk.hops = path.hops ∧ walk.scalar = none := by
  unfold Path.Walk.resolved at same
  split at same
  · cases same
  · rename_i found
    cases same
    exact ⟨rfl, found⟩

/-- A path crosses no more relations than it may have segments. -/
theorem length_hops_of_resolve {resolved : Resolved}
    (success : resolve schema root member = .ok resolved) :
    (∀ path, resolved = .column path → path.hops.length ≤ Path.segmentLimit) ∧
      ∀ path, resolved = .relation path → path.hops.length ≤ Path.segmentLimit := by
  obtain ⟨segments, walk, cut, walked, same⟩ := resolve_ok success
  have short := Nat.le_trans (Path.length_hops_le_of_walk walked) (Path.length_segments_le cut)
  constructor
  · rintro path rfl
    rw [← (Path.Walk.eq_of_resolved_column same.symm).1]
    exact short
  · rintro path rfl
    rw [← (Path.Walk.eq_of_resolved_relation same.symm).1]
    exact short

/-- The column that a path resolves to is a scalar field at the end of a walk. -/
theorem walk_of_resolve_column {path : ColumnPath}
    (success : resolve schema root member = .ok (.column path)) :
    ∃ position name, schema.Walk root path.hops position ∧
      .scalar name path.column path.type ∈ (schema.entity position).fields := by
  obtain ⟨segments, walk, -, walked, same⟩ := resolve_ok success
  obtain ⟨position, hops, scalar⟩ := Path.walk_walks walked
  obtain ⟨sameHops, sameScalar⟩ := Path.Walk.eq_of_resolved_column same.symm
  obtain ⟨name, declared⟩ := scalar _ _ sameScalar
  exact ⟨position, name, sameHops ▸ hops, declared⟩

end PartnerSearch
