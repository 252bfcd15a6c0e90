import PartnerSearch.Proofs.Schema.Walk

set_option autoImplicit false

/-!
Legal paths. A path is legal if its segments are identifiers, each the name of a field of the entity
that the segments before it lead to, and if it crosses relations up to its last segment, among them
one collection at most. What resolves is exactly that; anything else is refused for its form, or for
its leftmost segment at fault.
-/

namespace PartnerSearch

/-- Every hop is the relation that its name denotes in the entity that the hops before it arrive
at. -/
inductive Schema.Leads (schema : Schema) : Fin schema.size → List Hop → Fin schema.size → Prop
  | here (position : Fin schema.size) : Leads schema position [] position
  | cross {position target goal : Fin schema.size} {name : String} {cardinality : Cardinality}
      {join : Join} {hops : List Hop}
      (denoted : (schema.entity position).field? name = some (.relation name target cardinality join))
      (onward : Leads schema target hops goal) :
      Leads schema position (⟨name, (schema.entity target).table, join, cardinality⟩ :: hops) goal

namespace Path

/-- The member is these segments with dots between them: one identifier or more, up to the limit. -/
structure Cut (member : String) (segments : List String) : Prop where
  spelled : member = String.intercalate "." segments
  some_segment : segments ≠ []
  few : segments.length ≤ segmentLimit
  identifiers : ∀ segment ∈ segments, isFieldName segment.toList = true

/-- What the segments lead to from the root: a scalar field at the end of relations, or the last of
the relations itself. -/
inductive Denotes (schema : Schema) (root : Fin schema.size) (member : String) :
    List String → Resolved → Prop
  | column {hops : List Hop} {goal : Fin schema.size} {name column : String} {type : FieldType}
      (crossed : schema.Leads root hops goal) (single : hops.countP Hop.isMany ≤ 1)
      (denoted : (schema.entity goal).field? name = some (.scalar name column type)) :
      Denotes schema root member (hops.map Hop.field ++ [name])
        (.column ⟨member, hops, column, type⟩)
  | relation {hops : List Hop} {goal : Fin schema.size} (crossed : schema.Leads root hops goal)
      (single : hops.countP Hop.isMany ≤ 1) :
      Denotes schema root member (hops.map Hop.field) (.relation ⟨member, hops⟩)

/-- Why no path goes on over the segment, with or without a collection behind it. -/
inductive FaultAt (schema : Schema) (member : String) (position : Fin schema.size)
    (crossed : Bool) (segment : String) (after : List String) : SearchError → Prop
  | unknown (absent : (schema.entity position).field? segment = none) :
      FaultAt schema member position crossed segment after
        (.fieldNotFound member segment (schema.entity position).name)
  | scalar {column : String} {type : FieldType}
      (denoted : (schema.entity position).field? segment = some (.scalar segment column type))
      (more : after ≠ []) :
      FaultAt schema member position crossed segment after
        (.invalidPath member (.scalarHasNoMembers segment))
  | collection {target : Fin schema.size} {join : Join}
      (denoted : (schema.entity position).field? segment =
        some (.relation segment target .many join))
      (behind : crossed = true) :
      FaultAt schema member position crossed segment after (.nestedCollection member segment)

/-- Why a member is refused: for its form, which is judged first, or for the first segment at fault
behind relations that can be crossed. -/
inductive Refused (schema : Schema) (root : Fin schema.size) (member : String) : SearchError → Prop
  | blank (blank : ∀ c ∈ member.toList, Text.isBlank c = true) :
      Refused schema root member (.invalidPath member .blank)
  | tooLong {parts : List String} (visible : ¬∀ c ∈ member.toList, Text.isBlank c = true)
      (cut : Text.split '.' member = parts) (many : segmentLimit < parts.length) :
      Refused schema root member (.invalidPath member (.tooLong parts.length segmentLimit))
  | badSegment {before after : List String} {part : String}
      (visible : ¬∀ c ∈ member.toList, Text.isBlank c = true)
      (cut : Text.split '.' member = before ++ part :: after)
      (few : (before ++ part :: after).length ≤ segmentLimit)
      (identifiers : ∀ other ∈ before, isFieldName other.toList = true)
      (bad : isFieldName part.toList = false) :
      Refused schema root member (.invalidPath member (.badSegment part))
  | fault {hops : List Hop} {position : Fin schema.size} {segment : String} {after : List String}
      {reason : SearchError} (cut : Cut member (hops.map Hop.field ++ segment :: after))
      (crossed : schema.Leads root hops position) (single : hops.countP Hop.isMany ≤ 1)
      (fault : FaultAt schema member position (hops.any Hop.isMany) segment after reason) :
      Refused schema root member reason

variable {schema : Schema} {member : String}

theorem isBlankText_iff {text : String} :
    Text.isBlankText text = true ↔ ∀ c ∈ text.toList, Text.isBlank c = true :=
  List.all_eq_true

theorem isBlank_of_isLetterOrDigit {c : Char} (letter : isLetterOrDigit c = true) :
    Text.isBlank c = false := by
  simp only [isLetterOrDigit, isLetter, Bool.or_eq_true, Bool.and_eq_true, decide_eq_true_eq,
    beq_iff_eq, Char.le_def, UInt32.le_iff_toNat_le] at letter
  simp only [Text.isBlank, Bool.or_eq_false_iff, Bool.and_eq_false_iff, decide_eq_false_iff_not,
    beq_eq_false_iff_ne, Char.toNat]
  rcases letter with ((upper | lower) | rfl) | digit
  · have bounds : 'A'.val.toNat = 65 ∧ 'Z'.val.toNat = 90 := ⟨rfl, rfl⟩
    omega
  · have bounds : 'a'.val.toNat = 97 ∧ 'z'.val.toNat = 122 := ⟨rfl, rfl⟩
    omega
  · decide
  · have bounds : '0'.val.toNat = 48 ∧ '9'.val.toNat = 57 := ⟨rfl, rfl⟩
    omega

/-- A text that is cut into identifiers starts with a letter. -/
theorem Cut.visible {segments : List String} (cut : Cut member segments) :
    ¬∀ c ∈ member.toList, Text.isBlank c = true := by
  obtain ⟨spelled, some_segment, -, identifiers⟩ := cut
  obtain ⟨first, rest, rfl⟩ := List.exists_cons_of_ne_nil some_segment
  have identifier := identifiers first List.mem_cons_self
  have letters := all_isLetterOrDigit_of_isFieldName identifier
  cases shape : first.toList with
  | nil =>
      rw [shape] at identifier
      cases identifier
  | cons c chars =>
      have letter : isLetterOrDigit c = true := by
        rw [shape, List.all_cons, Bool.and_eq_true] at letters
        exact letters.1
      have inside : c ∈ member.toList := by
        rw [spelled, String.toList_intercalate, List.map_cons, shape]
        cases rest with
        | nil => simp
        | cons next others => simp [List.intercalate_cons_cons]
      intro blank
      have here := blank c inside
      rw [isBlank_of_isLetterOrDigit letter] at here
      cases here

theorem Cut.split {segments : List String} (cut : Cut member segments) :
    Text.split '.' member = segments := by
  apply Text.split_eq_iff.mpr
  refine ⟨cut.some_segment, cut.spelled, ?_⟩
  intro segment inside dotted
  have letters := all_isLetterOrDigit_of_isFieldName (cut.identifiers segment inside)
  have dot := List.all_eq_true.mp letters '.' dotted
  exact absurd dot (by decide)

theorem segments_of_cut {segments : List String} (cut : Cut member segments) :
    Path.segments member = .ok segments := by
  have visible : ¬Text.isBlankText member = true := fun blank =>
    cut.visible (isBlankText_iff.mp blank)
  have none_bad : segments.find? (fun part => !isFieldName part.toList) = none := by
    rw [List.find?_eq_none]
    intro segment inside
    simp [cut.identifiers segment inside]
  unfold Path.segments
  dsimp only
  rw [cut.split, if_neg visible, if_neg (Nat.not_lt.mpr cut.few), none_bad]

/-- A member is cut into identifiers, or refused for its form. -/
theorem cut_or_refused (schema : Schema) (root : Fin schema.size) (member : String) :
    (∃ segments, Cut member segments) ∨ ∃ reason, Refused schema root member reason := by
  by_cases blank : ∀ c ∈ member.toList, Text.isBlank c = true
  · exact .inr ⟨_, .blank blank⟩
  by_cases many : segmentLimit < (Text.split '.' member).length
  · exact .inr ⟨_, .tooLong blank rfl many⟩
  cases bad : (Text.split '.' member).find? fun part => !isFieldName part.toList with
  | none =>
      obtain ⟨some_segment, spelled, -⟩ := Text.split_eq_iff.mp (Eq.refl (Text.split '.' member))
      have identifiers : ∀ segment ∈ Text.split '.' member, isFieldName segment.toList = true := by
        simpa using List.find?_eq_none.mp bad
      exact .inl ⟨_, spelled, some_segment, Nat.not_lt.mp many, identifiers⟩
  | some part =>
      obtain ⟨notName, before, after, cut, earlier⟩ := List.find?_eq_some_iff_append.mp bad
      rw [cut] at many
      refine .inr ⟨_, .badSegment blank cut (Nat.not_lt.mp many) ?_ ?_⟩
      · simpa using earlier
      · simpa using notName

theorem FaultAt.walk {position : Fin schema.size} {crossed : Bool} {segment : String}
    {after : List String} {reason : SearchError}
    (fault : FaultAt schema member position crossed segment after reason) :
    walk schema member (segment :: after) position crossed = .error reason := by
  cases fault with
  | unknown absent => simp only [Path.walk, absent]
  | scalar denoted more =>
      simp only [Path.walk, denoted]
      rw [if_neg (by simpa using more)]
  | collection denoted behind =>
      simp only [Path.walk, denoted]
      rw [if_pos (by simp [behind])]

/-- A hop may be crossed unless it is a second collection, and then the others as far as it lets
them. -/
theorem single_cons {hop : Hop} {rest : List Hop} {crossed : Bool} :
    (hop :: rest).countP Hop.isMany ≤ (if crossed then 0 else 1) ↔
      ¬(crossed && hop.isMany) = true ∧
        rest.countP Hop.isMany ≤ if crossed || hop.isMany then 0 else 1 := by
  rw [List.countP_cons]
  cases crossed <;> cases hop.isMany <;> simp

/-- Relations are crossed one after the other, unless two of them are collections. -/
theorem walk_leads {start goal : Fin schema.size} {hops : List Hop}
    (leads : schema.Leads start hops goal) {crossed : Bool}
    (single : hops.countP Hop.isMany ≤ if crossed then 0 else 1) (rest : List String) :
    walk schema member (hops.map Hop.field ++ rest) start crossed =
      (walk schema member rest goal (crossed || hops.any Hop.isMany)).map fun walk =>
        ⟨hops ++ walk.hops, walk.scalar⟩ := by
  induction leads generalizing crossed with
  | here position =>
      rw [List.map_nil, List.nil_append, List.any_nil, Bool.or_false]
      cases walk schema member rest position crossed <;> rfl
  | @cross position target goal name cardinality join hops denoted onward ih =>
      obtain ⟨allowed, further⟩ := single_cons.mp single
      have first : (⟨name, (schema.entity target).table, join, cardinality⟩ : Hop).isMany =
          (cardinality == .many) := rfl
      rw [first] at allowed further
      rw [List.map_cons, List.cons_append, Path.walk, denoted]
      dsimp only
      rw [if_neg allowed, ih further, List.any_cons, first, Bool.or_assoc]
      cases walk schema member rest goal (crossed || (cardinality == .many || hops.any Hop.isMany))
        <;> rfl

theorem walk_leads_root {root goal : Fin schema.size} {hops : List Hop}
    (leads : schema.Leads root hops goal) (single : hops.countP Hop.isMany ≤ 1)
    (rest : List String) :
    walk schema member (hops.map Hop.field ++ rest) root false =
      (walk schema member rest goal (hops.any Hop.isMany)).map fun walk =>
        ⟨hops ++ walk.hops, walk.scalar⟩ := by
  apply walk_leads leads
  exact single

/-- Where the segments of a path stop to lead over relations. -/
inductive Stops (schema : Schema) (member : String) (position : Fin schema.size) (crossed : Bool) :
    List String → Prop
  | ended : Stops schema member position crossed []
  | scalar {name column : String} {type : FieldType}
      (denoted : (schema.entity position).field? name = some (.scalar name column type)) :
      Stops schema member position crossed [name]
  | fault {segment : String} {after : List String} {reason : SearchError}
      (fault : FaultAt schema member position crossed segment after reason) :
      Stops schema member position crossed (segment :: after)

/-- All segments lead over relations up to where they stop to. -/
theorem exists_leads (member : String) (segments : List String) (start : Fin schema.size) (crossed : Bool) :
    ∃ hops goal rest, segments = hops.map Hop.field ++ rest ∧ schema.Leads start hops goal ∧
      hops.countP Hop.isMany ≤ (if crossed then 0 else 1) ∧
      Stops schema member goal (crossed || hops.any Hop.isMany) rest := by
  induction segments generalizing start crossed with
  | nil => exact ⟨[], start, [], rfl, .here start, by simp, .ended⟩
  | cons segment after ih =>
      have stays {rest : List String} (stops : Stops schema member start crossed rest) :
          ∃ hops goal further, rest = hops.map Hop.field ++ further ∧
            schema.Leads start hops goal ∧
            hops.countP Hop.isMany ≤ (if crossed then 0 else 1) ∧
            Stops schema member goal (crossed || hops.any Hop.isMany) further :=
        ⟨[], start, rest, rfl, .here start, by simp, by simpa using stops⟩
      cases denoted : (schema.entity start).field? segment with
      | none => exact stays (.fault (.unknown denoted))
      | some field =>
          have named := Entity.name_of_field? denoted
          cases field with
          | scalar name column type =>
              obtain rfl : name = segment := named
              cases after with
              | nil => exact stays (.scalar denoted)
              | cons next others =>
                  exact stays (.fault (.scalar denoted (List.cons_ne_nil next others)))
          | relation name target cardinality join =>
              obtain rfl : name = segment := named
              have second : (crossed && cardinality == .many) = true ∨
                  ¬(crossed && cardinality == .many) = true := Classical.em _
              rcases second with refused | allowed
              · obtain ⟨behind, many⟩ : crossed = true ∧ cardinality = .many := by
                  simpa using refused
                subst many
                exact stays (.fault (.collection denoted behind))
              · obtain ⟨hops, goal, rest, spelled, leads, single, stops⟩ :=
                  ih target (crossed || cardinality == .many)
                refine ⟨_, goal, rest, ?_, .cross denoted leads, single_cons.mpr ⟨allowed, single⟩, ?_⟩
                · rw [spelled]
                  rfl
                · rw [List.any_cons, ← Bool.or_assoc]
                  exact stops

/-- A member leads to something, or is refused. -/
theorem denotes_or_refused (schema : Schema) (root : Fin schema.size) (member : String) :
    (∃ segments resolved, Cut member segments ∧ Denotes schema root member segments resolved) ∨
      ∃ reason, Refused schema root member reason := by
  rcases cut_or_refused schema root member with ⟨segments, cut⟩ | refused
  · obtain ⟨hops, goal, rest, rfl, leads, single, stops⟩ := exists_leads member segments root false
    cases stops with
    | ended =>
        rw [List.append_nil] at cut
        exact .inl ⟨_, _, cut, .relation leads single⟩
    | scalar denoted => exact .inl ⟨_, _, cut, .column leads single denoted⟩
    | fault fault => exact .inr ⟨_, .fault cut leads single fault⟩
  · exact .inr refused

theorem Cut.resolve {segments : List String} (cut : Cut member segments)
    (root : Fin schema.size) :
    resolve schema root member =
      (walk schema member segments root false).map fun walk => walk.resolved member := by
  rw [PartnerSearch.resolve, segments_of_cut cut]
  change (walk schema member segments root false >>= fun walk => pure (walk.resolved member)) = _
  cases walk schema member segments root false <;> rfl

theorem Denotes.resolve {root : Fin schema.size} {segments : List String} {resolved : Resolved}
    (denotes : Denotes schema root member segments resolved) (cut : Cut member segments) :
    resolve schema root member = .ok resolved := by
  rw [cut.resolve]
  cases denotes with
  | @column hops goal name column type crossed single denoted =>
      have last : walk schema member [name] goal (hops.any Hop.isMany) =
          .ok ⟨[], some (column, type)⟩ := by
        rw [walk, denoted]
        rfl
      rw [walk_leads_root crossed single, last]
      simp [Except.map, Walk.resolved]
  | @relation hops goal crossed single =>
      rw [← List.append_nil (hops.map Hop.field), walk_leads_root crossed single]
      simp [Except.map, Walk.resolved, walk]

theorem Refused.resolve {root : Fin schema.size} {reason : SearchError}
    (refused : Refused schema root member reason) : resolve schema root member = .error reason := by
  have formless {reason : SearchError} (failed : Path.segments member = .error reason) :
      PartnerSearch.resolve schema root member = .error reason := by
    rw [PartnerSearch.resolve, failed]
    rfl
  cases refused with
  | blank blank =>
      apply formless
      rw [Path.segments, if_pos (isBlankText_iff.mpr blank)]
  | tooLong visible cut many =>
      apply formless
      rw [Path.segments, if_neg fun blank => visible (isBlankText_iff.mp blank), cut, if_pos many]
  | @badSegment before after part visible cut few identifiers bad =>
      have found : (before ++ part :: after).find? (fun part => !isFieldName part.toList) =
          some part := by
        rw [List.find?_eq_some_iff_append]
        exact ⟨by simp [bad], before, after, rfl, by simpa using identifiers⟩
      apply formless
      unfold Path.segments
      dsimp only
      rw [if_neg fun blank => visible (isBlankText_iff.mp blank), cut,
        if_neg (Nat.not_lt.mpr few), found]
  | @fault hops position segment after _ cut crossed single fault =>
      rw [cut.resolve, walk_leads_root crossed single, fault.walk]
      rfl

end Path

/-- A path resolves exactly if its segments are identifiers and walk legally over the schema, and
then to the field that they lead to with the relations crossed. Otherwise it is refused for its form,
or else for the leftmost segment at fault. -/
theorem resolve_exact (schema : Schema) (root : Fin schema.size) (member : String) :
    (∀ resolved, resolve schema root member = .ok resolved ↔
        ∃ segments, Path.Cut member segments ∧ Path.Denotes schema root member segments resolved) ∧
      ∀ reason, resolve schema root member = .error reason ↔
        Path.Refused schema root member reason := by
  have either := Path.denotes_or_refused schema root member
  constructor
  · intro resolved
    constructor
    · intro success
      rcases either with ⟨segments, other, cut, denotes⟩ | ⟨reason, refused⟩
      · rw [denotes.resolve cut] at success
        cases success
        exact ⟨segments, cut, denotes⟩
      · rw [refused.resolve] at success
        cases success
    · intro denoted
      obtain ⟨segments, cut, denotes⟩ := denoted
      exact denotes.resolve cut
  · intro reason
    constructor
    · intro failed
      rcases either with ⟨segments, other, cut, denotes⟩ | ⟨other, refused⟩
      · rw [denotes.resolve cut] at failed
        cases failed
      · rw [refused.resolve] at failed
        cases failed
        exact refused
    · exact Path.Refused.resolve

end PartnerSearch
