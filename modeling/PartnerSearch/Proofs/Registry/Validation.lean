import PartnerSearch.Proofs.Search.Refusal

set_option autoImplicit false

/-!
Validation of a registry against a field graph. It succeeds exactly when every scalar field within
reach has a strategy, and then no search over that root meets a type without one.
-/

namespace PartnerSearch

namespace Registry

variable {size : Nat}

/-- Names with dots between them. -/
def dotted (names : List String) : String := String.intercalate "." names

theorem foldl_memberPath_of_nonempty (names : List String) (path : String)
    (nonempty : path.isEmpty = false) :
    names.foldl memberPath path = dotted (path :: names) := by
  induction names generalizing path with
  | nil => rfl
  | cons name rest ih =>
      have extended : (path ++ "." ++ name).isEmpty = false := by simp
      have step : memberPath path name = path ++ "." ++ name := by
        simp [memberPath, nonempty]
      rw [List.foldl_cons, step, ih _ extended]
      rfl

/-- The path built up along a walk. Only empty names in front leave no trace in it. -/
theorem foldl_memberPath (names : List String) :
    names.foldl memberPath "" = dotted (names.dropWhile String.isEmpty) := by
  induction names with
  | nil => rfl
  | cons name rest ih =>
      cases empty : name.isEmpty with
      | true =>
          have same : name = "" := String.isEmpty_iff.mp empty
          subst same
          exact ih
      | false =>
          have step : memberPath "" name = name := rfl
          rw [List.foldl_cons, step, foldl_memberPath_of_nonempty rest name empty,
            List.dropWhile_cons_of_neg (by simp [empty])]

theorem checkFields_ok {registry : Registry} {path : String} {fields : List (Field size)}
    {relations : List (Fin size × String)}
    (success : registry.checkFields path fields = .ok relations) :
    (∀ name column type, .scalar name column type ∈ fields → registry.contains type = true) ∧
      ∀ target onward, (target, onward) ∈ relations ↔ ∃ name cardinality join,
        .relation name target cardinality join ∈ fields ∧ onward = memberPath path name := by
  induction fields generalizing relations with
  | nil =>
      cases success
      simp
  | cons field rest ih =>
      cases field with
      | scalar name column type =>
          obtain ⟨strategy, found, later⟩ := Outcome.bind_eq_ok.mp success
          obtain ⟨registered, handed⟩ := ih later
          refine ⟨?_, by simpa using handed⟩
          intro other otherColumn otherType member
          rcases List.mem_cons.mp member with same | member
          · cases same
            exact contains_of_get_ok found
          · exact registered other otherColumn otherType member
      | relation name target cardinality join =>
          obtain ⟨others, later, same⟩ := Outcome.bind_eq_ok.mp success
          obtain ⟨registered, handed⟩ := ih later
          refine ⟨by simpa using registered, ?_⟩
          intro goal onward
          cases same
          rw [List.mem_cons, handed goal onward]
          constructor
          · intro handed
            rcases handed with same | ⟨other, number, columns, member, rfl⟩
            · cases same
              exact ⟨name, cardinality, join, List.mem_cons_self, rfl⟩
            · exact ⟨other, number, columns, List.mem_cons_of_mem _ member, rfl⟩
          · intro declared
            obtain ⟨other, number, columns, member, rfl⟩ := declared
            rcases List.mem_cons.mp member with same | member
            · cases same
              exact .inl rfl
            · exact .inr ⟨other, number, columns, member, rfl⟩

theorem checkFields_error {registry : Registry} {path : String} {fields : List (Field size)}
    {reason : SearchError} (failed : registry.checkFields path fields = .error reason) :
    ∃ name column type, .scalar name column type ∈ fields ∧ registry.contains type = false ∧
      reason = .unregisteredType (memberPath path name) type := by
  induction fields with
  | nil => cases failed
  | cons field rest ih =>
      cases field with
      | scalar name column type =>
          rcases Outcome.bind_eq_error.mp failed with missing | ⟨strategy, -, later⟩
          · obtain ⟨unregistered, same⟩ := get_eq_error.mp missing
            exact ⟨name, column, type, List.mem_cons_self, unregistered, same⟩
          · obtain ⟨other, otherColumn, otherType, member, rest⟩ := ih later
            exact ⟨other, otherColumn, otherType, List.mem_cons_of_mem _ member, rest⟩
      | relation name target cardinality join =>
          rcases Outcome.bind_eq_error.mp failed with later | ⟨others, -, impossible⟩
          · obtain ⟨other, otherColumn, otherType, member, rest⟩ := ih later
            exact ⟨other, otherColumn, otherType, List.mem_cons_of_mem _ member, rest⟩
          · cases impossible

section Traversal

variable {registry : Registry} {schema : Schema} {root : Fin schema.size}

/-- An entity whose scalar fields are all registered and whose relations stay inside `area`. -/
def Settled (registry : Registry) (schema : Schema) (area : Fin schema.size → Prop)
    (position : Fin schema.size) : Prop :=
  (∀ name column type, .scalar name column type ∈ (schema.entity position).fields →
      registry.contains type = true) ∧
    ∀ name target cardinality join,
      .relation name target cardinality join ∈ (schema.entity position).fields → area target

theorem Settled.mono {area wider : Fin schema.size → Prop} {position : Fin schema.size}
    (settled : Settled registry schema area position)
    (within : ∀ target, area target → wider target) : Settled registry schema wider position :=
  ⟨settled.1, fun name target cardinality join declared =>
    within target (settled.2 name target cardinality join declared)⟩

/-- The entities that have been visited or wait on the stack. -/
def Known (visited : List (Fin schema.size)) (pending : List (Fin schema.size × String))
    (position : Fin schema.size) : Prop :=
  position ∈ visited ∨ ∃ path, (position, path) ∈ pending

/-- The entities of the stack are where their paths say. -/
def Placed (schema : Schema) (root : Fin schema.size) (pending : List (Fin schema.size × String)) :
    Prop :=
  ∀ position path, (position, path) ∈ pending →
    ∃ hops, schema.Walk root hops position ∧ path = (hops.map Hop.field).foldl memberPath ""

/-- What has been visited is settled up to what is still on the stack. When the stack runs empty
without a fault, all that was visited or pending lies in an area that is settled in itself. -/
theorem validateFrom_ok {visited : List (Fin schema.size)}
    {pending : List (Fin schema.size × String)}
    (settled : ∀ position ∈ visited, Settled registry schema (Known visited pending) position)
    (success : registry.validateFrom schema.entity visited pending = .ok ()) :
    ∃ area : Fin schema.size → Prop,
      (∀ position, Known visited pending position → area position) ∧
      ∀ position, area position → Settled registry schema area position := by
  fun_induction registry.validateFrom schema.entity visited pending with
  | case1 visited =>
      have done (target : Fin schema.size) : Known visited [] target → target ∈ visited := by
        simp [Known]
      exact ⟨fun position => position ∈ visited, done,
        fun position member => (settled position member).mono done⟩
  | case2 visited position path rest seen ih =>
      have known (target : Fin schema.size) :
          Known visited ((position, path) :: rest) target → Known visited rest target := by
        intro known
        rcases known with old | ⟨onward, waiting⟩
        · exact .inl old
        · rcases List.mem_cons.mp waiting with same | waiting
          · cases same
            exact .inl seen
          · exact .inr ⟨onward, waiting⟩
      obtain ⟨area, covers, closed⟩ :=
        ih (fun other member => (settled other member).mono known) success
      exact ⟨area, fun other old => covers other (known other old), closed⟩
  | case3 visited position path rest fresh reason failed => cases success
  | case4 visited position path rest fresh relations checked ih =>
      obtain ⟨registered, handed⟩ := checkFields_ok checked
      have known (target : Fin schema.size) : Known visited ((position, path) :: rest) target →
          Known (position :: visited) (relations.reverse ++ rest) target := by
        intro known
        rcases known with old | ⟨onward, waiting⟩
        · exact .inl (List.mem_cons_of_mem position old)
        · rcases List.mem_cons.mp waiting with same | waiting
          · cases same
            exact .inl List.mem_cons_self
          · exact .inr ⟨onward, List.mem_append_right _ waiting⟩
      have entered : Settled registry schema
          (Known (position :: visited) (relations.reverse ++ rest)) position := by
        refine ⟨registered, fun name target cardinality join declared =>
          .inr ⟨memberPath path name, ?_⟩⟩
        rw [List.mem_append, List.mem_reverse]
        exact .inl ((handed target _).mpr ⟨name, cardinality, join, declared, rfl⟩)
      have still : ∀ other ∈ position :: visited, Settled registry schema
          (Known (position :: visited) (relations.reverse ++ rest)) other := by
        intro other member
        rcases List.mem_cons.mp member with rfl | member
        · exact entered
        · exact (settled other member).mono known
      obtain ⟨area, covers, closed⟩ := ih still success
      exact ⟨area, fun other old => covers other (known other old), closed⟩

/-- The fault of a traversal is an unregistered scalar at the end of a walk, under the path built
up along it. -/
theorem validateFrom_error {visited : List (Fin schema.size)}
    {pending : List (Fin schema.size × String)} {reason : SearchError}
    (placed : Placed schema root pending)
    (failed : registry.validateFrom schema.entity visited pending = .error reason) :
    ∃ names type, schema.ScalarAt root names type ∧ registry.contains type = false ∧
      reason = .unregisteredType (names.foldl memberPath "") type := by
  fun_induction registry.validateFrom schema.entity visited pending with
  | case1 visited => cases failed
  | case2 visited position path rest seen ih =>
      exact ih (fun other onward waiting => placed other onward (List.mem_cons_of_mem _ waiting))
        failed
  | case3 visited position path rest fresh fault refused =>
      cases failed
      obtain ⟨hops, walked, rfl⟩ := placed position path List.mem_cons_self
      obtain ⟨name, column, type, declared, unregistered, rfl⟩ := checkFields_error refused
      refine ⟨hops.map Hop.field ++ [name], type,
        ⟨hops, position, name, column, walked, declared, rfl⟩, unregistered, ?_⟩
      rw [List.foldl_append]
      rfl
  | case4 visited position path rest fresh relations checked ih =>
      obtain ⟨-, handed⟩ := checkFields_ok checked
      refine ih ?_ failed
      intro other onward waiting
      rw [List.mem_append, List.mem_reverse] at waiting
      rcases waiting with waiting | waiting
      · obtain ⟨name, cardinality, join, declared, rfl⟩ := (handed other onward).mp waiting
        obtain ⟨hops, walked, rfl⟩ := placed position path List.mem_cons_self
        refine ⟨hops ++ [⟨name, (schema.entity other).table, join, cardinality⟩],
          walked.append (.cross declared (.here other)), ?_⟩
        rw [List.map_append, List.foldl_append]
        rfl
      · exact placed other onward (List.mem_cons_of_mem _ waiting)

/-- A settled area that holds the start of a walk holds its end. -/
theorem area_of_walk {area : Fin schema.size → Prop}
    (closed : ∀ position, area position → Settled registry schema area position)
    {start goal : Fin schema.size} {hops : List Hop} (walked : schema.Walk start hops goal)
    (inside : area start) : area goal := by
  induction walked with
  | here position => exact inside
  | cross declared onward ih => exact ih ((closed _ inside).2 _ _ _ _ declared)

theorem validate_ok {names : List String} {type : FieldType}
    (success : registry.validate schema root = .ok ()) (reached : schema.ScalarAt root names type) :
    registry.contains type = true := by
  obtain ⟨hops, position, name, column, walked, declared, -⟩ := reached
  obtain ⟨area, covers, closed⟩ := validateFrom_ok (by simp) success
  have inside : area root := covers root (.inr ⟨"", List.mem_cons_self⟩)
  exact (closed position (area_of_walk closed walked inside)).1 name column type declared

theorem validate_error {reason : SearchError}
    (failed : registry.validate schema root = .error reason) :
    ∃ names type, schema.ScalarAt root names type ∧ registry.contains type = false ∧
      reason = .unregisteredType (dotted (names.dropWhile String.isEmpty)) type := by
  have placed : Placed schema root [(root, "")] := by
    intro position path member
    cases List.mem_singleton.mp member
    exact ⟨[], .here root, rfl⟩
  obtain ⟨names, type, reached, unregistered, same⟩ := validateFrom_error placed failed
  exact ⟨names, type, reached, unregistered, by rw [same, foldl_memberPath]⟩

end Traversal

/-- Validation succeeds exactly when every scalar field that a walk from the root reaches has a
strategy. Otherwise it names such a field without one by the path of a walk to it, in which only
empty names in front are left out. A validated registry never fails a search for its types. -/
theorem validate_exact (registry : Registry) (schema : Schema) (root : Fin schema.size) :
    (registry.validate schema root = .ok () ↔
        ∀ names type, schema.ScalarAt root names type → registry.contains type = true) ∧
      (∀ reason, registry.validate schema root = .error reason →
        ∃ names type, schema.ScalarAt root names type ∧ registry.contains type = false ∧
          reason = .unregisteredType (dotted (names.dropWhile String.isEmpty)) type) ∧
      (registry.validate schema root = .ok () → ∀ (search : Search) member type,
        search.compile registry schema root ≠ .error (.unregisteredType member type)) := by
  refine ⟨⟨fun success names type reached => validate_ok success reached, ?_⟩,
    fun reason failed => validate_error failed, ?_⟩
  · intro registered
    have accepted : ∀ reason, registry.validate schema root ≠ .error reason := by
      intro reason failed
      obtain ⟨names, type, reached, unregistered, -⟩ := validate_error failed
      rw [registered names type reached] at unregistered
      cases unregistered
    obtain ⟨_, success⟩ := Outcome.exists_ok accepted
    exact success
  · intro success search member type failed
    obtain ⟨leaf, -, refused⟩ := Search.exists_leaf_of_compile_error failed
    obtain ⟨unregistered, names, reached⟩ := leaf.compile_eq_unregistered refused
    rw [validate_ok success reached] at unregistered
    cases unregistered

/-- A root whose only field is a relation without a name, to an entity with one scalar. -/
def namelessSchema : Schema where
  size := 2
  entity
    | 0 => ⟨"Root", "roots", [.relation "" 1 .one ⟨"leaf_id", "id"⟩]⟩
    | 1 => ⟨"Leaf", "leaves", [.scalar "x" "x" .text]⟩

def namelessRoot : Fin namelessSchema.size := (0 : Fin 2)

/-- The path reported for the only scalar within reach is not the dotted names of a walk to it. -/
theorem validate_nameless :
    empty.validate namelessSchema namelessRoot = .error (.unregisteredType "x" .text) ∧
      ∀ names type, namelessSchema.ScalarAt namelessRoot names type → dotted names ≠ "x" := by
  constructor
  · simp [validate, validateFrom, checkFields, namelessSchema, namelessRoot, get, find?, empty,
      memberPath, bind, pure, Except.bind, Except.pure]
  · intro names type reached
    obtain ⟨hops, position, name, column, walked, declared, rfl⟩ := reached
    generalize start : namelessRoot = root at walked
    cases walked with
    | here =>
        subst start
        cases List.mem_singleton.mp declared
    | cross crossed onward =>
        subst start
        obtain ⟨named, arrived, -, -⟩ := Field.relation.inj (List.mem_singleton.mp crossed)
        cases onward with
        | here =>
            subst named arrived
            cases List.mem_singleton.mp declared
            show dotted ["", "x"] ≠ "x"
            decide
        | cross crossed _ =>
            subst arrived
            cases List.mem_singleton.mp crossed

end Registry

end PartnerSearch
