import PartnerSearch.Proofs.Sql.Parsing

set_option autoImplicit false

/-!
What the text of a formula says when it is read as SQL. The reading has the truth of the formula,
for rows under the names of the aliases.
-/

namespace PartnerSearch.Sql

/-- The row of every numbered alias. -/
def Aliases.scope (aliases : Aliases) : Scope := fun slot => aliases (aliasName slot)

theorem Aliases.scope_bind (aliases : Aliases) (slot : Nat) (row : Row) :
    (aliases.bind (aliasName slot) row).scope = aliases.scope.bind slot row := by
  funext other
  by_cases same : other = slot
  · subst same
    simp [scope, bind]
  · have differs : aliasName other ≠ aliasName slot := fun equal => same (aliasName_injective equal)
    simp [scope, bind, Scope.bind, same, differs]

def ColumnRef.scalar (reference : ColumnRef) : Scalar :=
  .column (aliasName reference.slot) reference.column

theorem ColumnRef.readScalar_tokens (reference : ColumnRef) (following : List Token) :
    readScalar (reference.tokens ++ following) = some (reference.scalar, following) := rfl

namespace Link

def equalityTest (link : Link) : Test :=
  .compare .equal (ColumnRef.mk link.slot link.remote).scalar
    (ColumnRef.mk link.parent link.home).scalar

def joinedTo (left : Source) (link : Link) : Source :=
  .join link.kind left link.table (aliasName link.slot) link.equalityTest

/-- The joined tables of a path. -/
def chain (first : Link) (rest : List Link) : Source :=
  rest.foldl joinedTo (.table first.table (aliasName first.slot))

theorem takes_equality (reader : Reader Test) (link : Link) :
    Takes (readUnit reader) [] link.equalityTokens link.equalityTest := by
  intro following _
  rfl

theorem stops_joined (links : List Link) (following : List Token) :
    Stops [.OR, .AND] (links.flatMap joinedTokens ++ .keyword .WHERE :: following) := by
  cases links with
  | nil => simp [Stops]
  | cons link rest =>
      rw [List.flatMap_cons, joinedTokens]
      cases link.kind <;> simp [Stops, joinTokens]

theorem readJoins_joined (depth : Nat) (links : List Link) (left : Source) (following : List Token)
    {fuel : Nat} (enough : links.length < fuel) :
    readJoins (readTest (depth + 1)) fuel left
        (links.flatMap joinedTokens ++ .keyword .WHERE :: following) =
      some (links.foldl joinedTo left, .keyword .WHERE :: following) := by
  induction links generalizing left fuel with
  | nil =>
      obtain ⟨fuel, rfl⟩ := Nat.exists_eq_add_of_lt enough
      rfl
  | cons link rest ih =>
      obtain ⟨fuel, rfl⟩ : ∃ less, fuel = less + 1 := ⟨fuel - 1, by omega⟩
      have less : rest.length < fuel := by simpa using enough
      have later := ih (joinedTo left link) less
      have tested := readTest_unit (takes_equality (readTest depth) link) _
        (stops_joined rest following)
      rw [List.flatMap_cons, List.foldl_cons, ← later]
      simp only [joinedTokens, joinTokens, sourceTokens, List.append_assoc]
      unfold joinedTo
      cases link.kind with
      | inner =>
          simp only [List.cons_append, List.nil_append, readJoins, tested]
          rfl
      | left =>
          simp only [List.cons_append, List.nil_append, readJoins, tested]
          rfl

theorem length_le_joined (links : List Link) :
    links.length ≤ (links.flatMap joinedTokens).length := by
  induction links with
  | nil => exact Nat.zero_le _
  | cons link rest ih =>
      rw [List.flatMap_cons, List.length_append, List.length_cons, joinedTokens]
      simp only [List.length_append, sourceTokens, List.length_cons]
      omega

/-- A query over the links of a path, up to the end of its parentheses. -/
theorem readQuery_select {depth : Nat} {what : List Token} {scalar : Scalar}
    (readWhat : ∀ following, readScalar (what ++ following) = some (scalar, following))
    (first : Link) (rest : List Link) (more : List Token) {following : List Token}
    {condition : Test}
    (tested : readTest (depth + 1) (first.equalityTokens ++ (more ++ .closing :: following)) =
      some (condition, .closing :: following)) :
    readQuery (readTest (depth + 1))
        (selectTokens what (first :: rest) ++ (more ++ .closing :: following)) =
      some ((scalar, chain first rest, condition), following) := by
  have enough : rest.length < (rest.flatMap joinedTokens ++
      .keyword .WHERE :: (first.equalityTokens ++ (more ++ .closing :: following))).length := by
    have room := length_le_joined rest
    rw [List.length_append, List.length_cons]
    omega
  have tables := readJoins_joined depth rest (.table first.table (aliasName first.slot))
    (first.equalityTokens ++ (more ++ .closing :: following)) enough
  simp only [selectTokens, fromTokens, whereTokens, sourceTokens, List.append_assoc,
    List.cons_append, List.nil_append]
  rw [readQuery, readWhat]
  simp only [Option.bind_eq_bind, Option.bind_some, tables, tested]
  rfl

variable {tables : Tables}

theorem holds_equalityTest (link : Link) (aliases : Aliases) :
    (link.equalityTest.eval tables aliases).holds = link.belongs aliases.scope := by
  simp only [equalityTest, ColumnRef.scalar, Test.eval, Scalar.eval]
  rfl

theorem scope_map_bind (link : Link) (aliases : Aliases) :
    ((tables link.table).map (aliases.bind (aliasName link.slot))).map Aliases.scope =
      link.rows tables aliases.scope := by
  rw [List.map_map, rows]
  exact List.map_congr_left fun row _ => aliases.scope_bind link.slot row

/-- The rows that belong, seen under the aliases or under their numbers. -/
theorem scope_filter (link : Link) (found : List Aliases) :
    (found.filter fun row => (link.equalityTest.eval tables row).holds).map Aliases.scope =
      (found.map Aliases.scope).filter link.belongs := by
  rw [List.filter_map]
  simp only [holds_equalityTest]
  rfl

theorem scope_rows_joinedTo (left : Source) (link : Link) (aliases : Aliases) :
    ((joinedTo left link).rows tables aliases).map Aliases.scope =
      ((left.rows tables aliases).map Aliases.scope).flatMap (link.join tables) := by
  rw [joinedTo, Source.rows, List.map_flatMap, List.flatMap_map]
  congr 1
  funext row
  have found := @scope_filter tables link
    ((tables link.table).map (row.bind (aliasName link.slot)))
  rw [scope_map_bind] at found
  unfold join
  dsimp only
  rw [← found]
  cases link.kind with
  | inner => rfl
  | left =>
      dsimp only
      rw [List.isEmpty_map]
      split
      · rw [List.map_singleton, Aliases.scope_bind]
      · rfl

theorem scope_rows_chain (first : Link) (rest : List Link) (aliases : Aliases) :
    ((chain first rest).rows tables aliases).map Aliases.scope =
      joinAll tables rest (first.rows tables aliases.scope) := by
  have further (left : Source) :
      ((rest.foldl joinedTo left).rows tables aliases).map Aliases.scope =
        joinAll tables rest ((left.rows tables aliases).map Aliases.scope) := by
    induction rest generalizing left with
    | nil => rfl
    | cons link rest ih => rw [List.foldl_cons, ih, scope_rows_joinedTo, joinAll]
  rw [chain, further, Source.rows, scope_map_bind]

/-- The rows of a query over links are those that the links select. -/
theorem scope_select (first : Link) (rest : List Link) (aliases : Aliases) :
    (((chain first rest).rows tables aliases).filter fun row =>
        (first.equalityTest.eval tables row).holds).map Aliases.scope =
      select tables aliases.scope (first :: rest) := by
  rw [scope_filter, scope_rows_chain, select]

theorem any_select (first : Link) (rest : List Link) (aliases : Aliases) (test : Scope → Bool) :
    (((chain first rest).rows tables aliases).any fun row =>
        (first.equalityTest.eval tables row).holds && test row.scope) =
      (select tables aliases.scope (first :: rest)).any test := by
  rw [← scope_select, List.any_map, List.any_filter]
  rfl

theorem aliases_foldl (links : List Link) (left : Source) (name : String) :
    name ∈ (links.foldl joinedTo left).aliases ↔
      name ∈ left.aliases ∨ ∃ link ∈ links, name = aliasName link.slot := by
  induction links generalizing left with
  | nil => simp
  | cons link rest ih =>
      rw [List.foldl_cons, ih, joinedTo, Source.aliases, List.mem_cons]
      simp only [List.mem_cons, exists_eq_or_imp]
      tauto

theorem mem_aliases_chain (first : Link) (rest : List Link) {slot : Nat}
    (inside : slot ∈ (first :: rest).map Link.slot) :
    aliasName slot ∈ (chain first rest).aliases := by
  obtain ⟨link, member, rfl⟩ := List.mem_map.mp inside
  rw [chain, aliases_foldl]
  rcases List.mem_cons.mp member with rfl | later
  · exact .inl List.mem_cons_self
  · exact .inr ⟨link, later, rfl⟩

theorem resolves_equalityTest {link : Link} {known : List String}
    (own : aliasName link.slot ∈ known) (outer : aliasName link.parent ∈ known) :
    link.equalityTest.Resolves known := by
  simp only [equalityTest, ColumnRef.scalar, Test.Resolves, Scalar.Resolves]
  exact ⟨own, outer⟩

/-- Joins of links in scope resolve, as the aliases taken are those of the tables before. -/
theorem resolves_foldl {links : List Link} {taken : List Nat} (inScope : Scoped taken links)
    {left : Source} {known : List String} (resolved : left.Resolves known)
    (inSight : ∀ slot ∈ taken, aliasName slot ∈ left.aliases ++ known)
    (own : ∀ slot, aliasName slot ∈ left.aliases → slot ∈ taken) :
    (links.foldl joinedTo left).Resolves known := by
  induction links generalizing taken left with
  | nil => exact resolved
  | cons link rest ih =>
      obtain ⟨tied, fresh, further⟩ := inScope
      rw [List.foldl_cons]
      apply ih further
      · rw [joinedTo, Source.Resolves]
        refine ⟨resolved, fun taken => fresh (own link.slot taken), resolves_equalityTest ?_ ?_⟩
        · exact List.mem_cons_self
        · exact List.mem_cons_of_mem _ (inSight link.parent tied)
      · intro slot member
        rcases List.mem_cons.mp member with rfl | member
        · exact List.mem_cons_self
        · exact List.mem_cons_of_mem _ (inSight slot member)
      · intro slot member
        rcases List.mem_cons.mp member with same | member
        · rw [aliasName_injective same]
          exact List.mem_cons_self
        · exact List.mem_cons_of_mem _ (own slot member)

theorem resolves_chain {first : Link} {rest : List Link} (inScope : Scoped [0] (first :: rest))
    {known : List String} (root : aliasName 0 ∈ known) : (chain first rest).Resolves known := by
  obtain ⟨tied, fresh, further⟩ := inScope
  apply resolves_foldl further
  · rw [Source.Resolves]
    trivial
  · intro slot member
    rcases List.mem_cons.mp member with rfl | member
    · exact List.mem_cons_self
    · rw [List.mem_singleton.mp member]
      exact List.mem_cons_of_mem _ root
  · intro slot member
    rw [aliasName_injective (List.mem_singleton.mp member)]
    exact List.mem_cons_self

theorem resolves_where {first : Link} {rest : List Link} (inScope : Scoped [0] (first :: rest))
    {known : List String} (root : aliasName 0 ∈ known) :
    first.equalityTest.Resolves ((chain first rest).aliases ++ known) := by
  apply resolves_equalityTest
  · exact List.mem_append_left _ (mem_aliases_chain first rest List.mem_cons_self)
  · rw [List.mem_singleton.mp inScope.1]
    exact List.mem_append_right _ root

end Link

def conditionTest (subject : Scalar) : Condition → Test
  | .compare comparison value => .compare comparison subject (.constant (.ofValue value))
  | .within values => .among subject (values.map .ofValue)
  | .contains needle => .like subject (Pattern.containing needle)
  | .set => .isNotNull subject
  | .notSet => .isNull subject
  | .between low high => .between subject (.constant (.ofValue low)) (.constant (.ofValue high))

theorem readConstants_listTokens {values : List Value} (some_value : values ≠ [])
    (following : List Token) :
    readConstants (listTokens values ++ .closing :: following) =
      some (values.map .ofValue, following) := by
  match values with
  | [] => exact absurd rfl some_value
  | [value] => rfl
  | value :: next :: rest =>
      have later := readConstants_listTokens (List.cons_ne_nil next rest) following
      rw [listTokens, List.append_assoc, List.cons_append, List.cons_append, List.nil_append,
        readConstants, later]
      rfl

theorem readPredicate_conditionTokens (subject : Scalar) {condition : Condition}
    (some_value : condition ≠ .within []) (following : List Token) :
    readPredicate subject (conditionTokens condition ++ following) =
      some (conditionTest subject condition, following) := by
  cases condition with
  | compare comparison value => cases comparison <;> rfl
  | within values =>
      have proper : values ≠ [] := fun none => some_value (by rw [none])
      have list := readConstants_listTokens proper following
      simp only [conditionTokens, List.append_assoc, List.cons_append, List.nil_append,
        readPredicate, list]
      rfl
  | contains needle => rfl
  | set => rfl
  | notSet => rfl
  | between low high => rfl

theorem eval_conditionTest (subject : Scalar) (condition : Condition) (tables : Tables)
    (aliases : Aliases) :
    (conditionTest subject condition).eval tables aliases =
      satisfies condition (subject.eval tables aliases) := by
  cases condition with
  | within values =>
      rw [conditionTest, Test.eval, List.map_map]
      rfl
  | compare comparison value => simp only [conditionTest, Test.eval, Scalar.eval, satisfies]
  | contains needle => simp only [conditionTest, Test.eval, satisfies]
  | set => simp only [conditionTest, Test.eval, satisfies]
  | notSet => simp only [conditionTest, Test.eval, satisfies]
  | between low high => simp only [conditionTest, Test.eval, Scalar.eval, satisfies]

theorem resolves_conditionTest {subject : Scalar} {known : List String}
    (resolved : subject.Resolves known) (condition : Condition) :
    (conditionTest subject condition).Resolves known := by
  cases condition <;> simp [conditionTest, Test.Resolves, Scalar.Resolves, resolved]

section Units

variable {reader : Reader Test} {tokens following : List Token}

theorem readUnit_not : readUnit reader (.keyword .NOT :: tokens) =
    (readUnit reader tokens).map fun (unit, after) => (.not unit, after) := rfl

theorem readUnit_exists : readUnit reader (.keyword .EXISTS :: .opening :: tokens) =
    (readQuery reader tokens).map fun ((_, source, condition), after) =>
      (.exists source condition, after) := rfl

theorem readUnit_select {more : List Token} (select : tokens = .keyword .SELECT :: more) :
    readUnit reader (.opening :: tokens) =
      (readQuery reader tokens).bind fun ((what, source, condition), after) =>
        readPredicate (.subquery what source condition) after := by
  subst select
  rfl

theorem readUnit_group (other : tokens.head? ≠ some (.keyword .SELECT)) {test : Test}
    (read : reader tokens = some (test, .closing :: following)) :
    readUnit reader (.opening :: tokens) = some (test, following) := by
  rw [readUnit, read]
  · rfl
  · rintro more rfl
    exact other rfl

end Units

theorem stops_closing (keywords : List Keyword) (following : List Token) :
    Stops keywords (.closing :: following) := by
  intro keyword _ same
  cases same

theorem Link.selectTokens_append (what : List Token) (links : List Link) (following : List Token) :
    ∃ more, selectTokens what links ++ following = .keyword .SELECT :: more := ⟨_, rfl⟩

/-- A query over links whose condition is what ties them to the row outside. -/
theorem Link.readQuery_links (depth : Nat) {what : List Token} {scalar : Scalar}
    (readWhat : ∀ following, readScalar (what ++ following) = some (scalar, following))
    (first : Link) (rest : List Link) (following : List Token) :
    readQuery (readTest (depth + 1)) (selectTokens what (first :: rest) ++ .closing :: following) =
      some ((scalar, chain first rest, first.equalityTest), following) := by
  have tested := readTest_unit (takes_equality (readTest depth) first) _
    (stops_closing [.OR, .AND] following)
  exact readQuery_select readWhat first rest [] tested

namespace Formula

/-- The test is what the tokens of the formula are read as, its names are in sight, and its truth is
that of the formula. -/
structure ReadAs (formula : Formula) (test : Test) : Prop where
  takes : ∀ depth, formula.tokens.length ≤ depth →
    Takes (readUnit (readTest depth)) [] formula.tokens test
  resolves : ∀ known, aliasName 0 ∈ known → test.Resolves known
  eval : ∀ tables aliases, test.eval tables aliases = formula.eval tables aliases.scope

theorem readAs_always : ReadAs .always
    (.compare .equal (.constant (.integer 1)) (.constant (.integer 1))) where
  takes := by
    intro depth _ following _
    rfl
  resolves := by
    intro known _
    simp [Test.Resolves, Scalar.Resolves]
  eval := by
    intro tables aliases
    simp [Test.eval, Scalar.eval, Formula.eval, compare, Cell.equal, Cell.order?,
      compareOfLessAndEq]

theorem takes_condition (reader : Reader Test) (reference : ColumnRef) {condition : Condition}
    (some_value : condition ≠ .within []) :
    Takes (readUnit reader) [] (reference.tokens ++ conditionTokens condition)
      (conditionTest reference.scalar condition) := by
  intro following _
  have said := readPredicate_conditionTokens reference.scalar some_value following
  rw [List.append_assoc]
  exact said

theorem readAs_column {reference : ColumnRef} (root : reference.slot = 0) {condition : Condition}
    (some_value : condition ≠ .within []) :
    ReadAs (.test (.column reference) condition) (conditionTest reference.scalar condition) where
  takes := by
    intro depth _
    exact takes_condition (readTest depth) reference some_value
  resolves := by
    intro known inSight
    apply resolves_conditionTest
    rw [ColumnRef.scalar, Scalar.Resolves, root]
    exact inSight
  eval := by
    intro tables aliases
    rw [eval_conditionTest, ColumnRef.scalar, Scalar.eval, Formula.eval]
    rfl

theorem readAs_subquery {reference : ColumnRef} {first : Link} {rest : List Link}
    (joined : Link.WellFormed (first :: rest))
    (inside : reference.slot ∈ (first :: rest).map Link.slot) {condition : Condition}
    (some_value : condition ≠ .within []) :
    ReadAs (.test (.subquery reference (first :: rest)) condition)
      (conditionTest (.subquery reference.scalar (Link.chain first rest) first.equalityTest)
        condition) where
  takes := by
    intro depth enough following _
    obtain ⟨depth, rfl⟩ : ∃ less, depth = less + 1 := by
      rw [tokens, Operand.tokens] at enough
      simp only [List.length_append, List.length_cons] at enough
      exact ⟨depth - 1, by omega⟩
    have query := Link.readQuery_links depth reference.readScalar_tokens first rest
      (conditionTokens condition ++ following)
    have said := readPredicate_conditionTokens
      (.subquery reference.scalar (Link.chain first rest) first.equalityTest) some_value following
    simp only [tokens, Operand.tokens, List.append_assoc, List.cons_append, List.nil_append]
    obtain ⟨more, select⟩ := Link.selectTokens_append reference.tokens (first :: rest)
      (.closing :: (conditionTokens condition ++ following))
    rw [readUnit_select select, query]
    exact said
  resolves := by
    intro known inSight
    apply resolves_conditionTest
    rw [Scalar.Resolves]
    refine ⟨Link.resolves_chain joined.inScope inSight, ?_,
      Link.resolves_where joined.inScope inSight⟩
    rw [ColumnRef.scalar, Scalar.Resolves]
    exact List.mem_append_left _ (Link.mem_aliases_chain first rest inside)
  eval := by
    intro tables aliases
    rw [eval_conditionTest, Scalar.eval, Formula.eval, Operand.read, ← Link.scope_select,
      List.head?_map, Option.map_map]
    rfl

theorem readScalar_one (following : List Token) :
    readScalar ([.number 1] ++ following) = some (.constant (.integer 1), following) := rfl

/-- A query in parentheses takes a level of depth. -/
theorem exists_depth {depth : Nat} {before inner after : List Token} (opened : before ≠ [])
    (enough : (before ++ inner ++ after).length ≤ depth) : ∃ less, depth = less + 1 := by
  have some_token := List.length_pos_iff.mpr opened
  simp only [List.length_append] at enough
  exact ⟨depth - 1, by omega⟩

theorem readAs_existsWhere {first : Link} {rest : List Link} {reference : ColumnRef}
    (joined : Link.WellFormed (first :: rest))
    (inside : reference.slot ∈ (first :: rest).map Link.slot) {condition : Condition}
    (some_value : condition ≠ .within []) :
    ReadAs (.existsWhere (first :: rest) reference condition)
      (.exists (Link.chain first rest)
        (.and first.equalityTest (conditionTest reference.scalar condition))) where
  takes := by
    intro depth enough following _
    obtain ⟨depth, rfl⟩ := exists_depth (by simp) enough
    have tested := readTest_and (Link.takes_equality (readTest depth) first)
      (takes_condition (readTest depth) reference some_value) _
      (stops_closing [.OR, .AND] following)
    rw [List.append_assoc, List.append_assoc] at tested
    have query := Link.readQuery_select readScalar_one first rest
      ([.keyword .AND] ++ (reference.tokens ++ conditionTokens condition))
      (by simpa only [List.append_assoc] using tested)
    simp only [tokens, List.append_assoc, List.cons_append, List.nil_append] at query ⊢
    rw [readUnit_exists, query]
    rfl
  resolves := by
    intro known inSight
    have column : reference.scalar.Resolves ((Link.chain first rest).aliases ++ known) := by
      rw [ColumnRef.scalar, Scalar.Resolves]
      exact List.mem_append_left _ (Link.mem_aliases_chain first rest inside)
    exact ⟨Link.resolves_chain joined.inScope inSight, Link.resolves_where joined.inScope inSight,
      resolves_conditionTest column condition⟩
  eval := by
    intro tables aliases
    rw [Test.eval, Formula.eval, ← Link.any_select]
    simp only [Test.eval, Truth.holds_and, eval_conditionTest]
    rfl

/-- EXISTS over links that are only tied to the row outside. -/
theorem readAs_present {first : Link} {rest : List Link}
    (joined : Link.WellFormed (first :: rest)) :
    ReadAs (.present (first :: rest)) (.exists (Link.chain first rest) first.equalityTest) where
  takes := by
    intro depth enough following _
    obtain ⟨depth, rfl⟩ := exists_depth (by simp) enough
    have query := Link.readQuery_links depth readScalar_one first rest following
    simp only [tokens, List.append_assoc, List.cons_append, List.nil_append] at query ⊢
    rw [readUnit_exists, query]
    rfl
  resolves := by
    intro known inSight
    exact ⟨Link.resolves_chain joined.inScope inSight, Link.resolves_where joined.inScope inSight⟩
  eval := by
    intro tables aliases
    have found := @Link.any_select tables first rest aliases fun _ => true
    have nonempty (scopes : List Scope) : scopes.any (fun _ => true) = !scopes.isEmpty := by
      cases scopes <;> rfl
    simp only [Bool.and_true] at found
    rw [Test.eval, Formula.eval, found, nonempty]

theorem readAs_absent {first : Link} {rest : List Link} (joined : Link.WellFormed (first :: rest)) :
    ReadAs (.absent (first :: rest))
      (.not (.exists (Link.chain first rest) first.equalityTest)) where
  takes := by
    intro depth enough following stops
    have longer : (present (first :: rest)).tokens.length ≤ depth := by
      simp only [tokens, List.length_append, List.length_cons] at enough ⊢
      omega
    have query := (readAs_present joined).takes depth longer following stops
    simp only [tokens, List.append_assoc, List.cons_append, List.nil_append] at query ⊢
    rw [readUnit_not, query]
    rfl
  resolves := by
    intro known inSight
    exact (readAs_present joined).resolves known inSight
  eval := by
    intro tables aliases
    rw [Test.eval, (readAs_present joined).eval, Formula.eval, Formula.eval]
    simp [Truth.not]

theorem itemTokens_eq_intercalate (between : Keyword) (items : List Formula) :
    itemTokens between items = [.keyword between].intercalate (items.map tokens) := by
  match items with
  | [] => rfl
  | [item] => simp [itemTokens]
  | item :: next :: rest =>
      have later := itemTokens_eq_intercalate between (next :: rest)
      rw [List.map_cons] at later
      simp only [itemTokens, later, List.map_cons, List.intercalate_cons_cons, List.append_assoc]

/-- No formula starts like a query. -/
theorem head?_tokens (formula : Formula) (some_item : formula.WellFormed) (following : List Token) :
    (formula.tokens ++ following).head? ≠ some (.keyword .SELECT) := by
  cases some_item with
  | always => simp [tokens]
  | @test operand condition subject some_value =>
      cases operand <;> simp [tokens, Operand.tokens, ColumnRef.tokens]
  | existsWhere joined column inside some_value => simp [tokens]
  | present joined => simp [tokens]
  | absent joined => simp [tokens]
  | group some_item each => simp [tokens]

theorem eval_chain_all (tables : Tables) (aliases : Aliases) (first : Test) (rest : List Test) :
    (Test.chain .and first rest).eval tables aliases =
      Truth.all ((first :: rest).map fun test => test.eval tables aliases) := by
  have last (truth : Truth) : truth.and (some true) = truth := by
    rcases truth with _ | _ | _ <;> rfl
  induction rest generalizing first with
  | nil => exact (last _).symm
  | cons next rest ih =>
      rw [Test.chain, Test.eval, ih]
      rfl

theorem eval_chain_any (tables : Tables) (aliases : Aliases) (first : Test) (rest : List Test) :
    (Test.chain .or first rest).eval tables aliases =
      Truth.any ((first :: rest).map fun test => test.eval tables aliases) := by
  have last (truth : Truth) : truth.or (some false) = truth := by
    rcases truth with _ | _ | _ <;> rfl
  induction rest generalizing first with
  | nil => exact (last _).symm
  | cons next rest ih =>
      rw [Test.chain, Test.eval, ih]
      rfl

theorem listEval_eq {items : List Formula} {tests : List Test}
    (each : List.Forall₂ ReadAs items tests) (tables : Tables) (aliases : Aliases) :
    listEval tables aliases.scope items = tests.map fun test => test.eval tables aliases := by
  induction each with
  | nil => rfl
  | cons first rest ih => rw [listEval, List.map_cons, first.eval, ih]

theorem exists_tests {items : List Formula} (each : ∀ item ∈ items, ∃ test, item.ReadAs test) :
    ∃ tests, List.Forall₂ ReadAs items tests := by
  induction items with
  | nil => exact ⟨[], .nil⟩
  | cons first rest ih =>
      obtain ⟨⟨test, read⟩, others⟩ := List.forall_mem_cons.mp each
      obtain ⟨tests, reads⟩ := ih others
      exact ⟨test :: tests, .cons read reads⟩

theorem length_tokens_le_itemTokens (between : Keyword) {item : Formula} {items : List Formula}
    (member : item ∈ items) : item.tokens.length ≤ (itemTokens between items).length := by
  match items with
  | [] => cases member
  | [single] =>
      rw [List.mem_singleton.mp member]
      exact Nat.le_refl _
  | first :: next :: rest =>
      rw [itemTokens, List.length_append, List.length_append]
      rcases List.mem_cons.mp member with rfl | later
      · omega
      · have below := length_tokens_le_itemTokens between later
        omega

theorem head?_itemTokens (between : Keyword) {first : Formula} (wellFormed : first.WellFormed)
    (rest : List Formula) (following : List Token) :
    (itemTokens between (first :: rest) ++ following).head? ≠ some (.keyword .SELECT) := by
  cases rest with
  | nil => exact head?_tokens first wellFormed following
  | cons next others =>
      rw [itemTokens, List.append_assoc, List.append_assoc]
      exact head?_tokens first wellFormed _

theorem resolves_chain (connective : Connective) {first : Test} {rest : List Test}
    {known : List String} (head : first.Resolves known)
    (others : ∀ test ∈ rest, test.Resolves known) :
    (Test.chain (connectiveTest connective) first rest).Resolves known := by
  induction rest generalizing first with
  | nil => exact head
  | cons next rest ih =>
      have later := ih (others next List.mem_cons_self)
        fun test member => others test (List.mem_cons_of_mem next member)
      rw [Test.chain]
      cases connective with
      | all => exact ⟨head, later⟩
      | any => exact ⟨head, later⟩

theorem readAs_group (connective : Connective) {first : Formula} {rest : List Formula}
    {test : Test} {tests : List Test} (wellFormed : first.WellFormed) (head : ReadAs first test)
    (others : List.Forall₂ ReadAs rest tests) :
    ReadAs (.group connective (first :: rest))
      (Test.chain (connectiveTest connective) test tests) where
  takes := by
    intro depth enough following _
    obtain ⟨depth, rfl⟩ := exists_depth (by simp) enough
    have inside : ∀ item ∈ first :: rest, item.tokens.length ≤ depth := by
      intro item member
      have below := length_tokens_le_itemTokens (connectiveKeyword connective) member
      simp only [tokens, List.length_append, List.length_cons, List.length_nil] at enough
      omega
    have units : List.Forall₂ (Takes (readUnit (readTest depth)) []) (rest.map tokens) tests := by
      rw [List.forall₂_map_left_iff]
      apply List.forall₂_iff_zip.mpr
      refine ⟨others.length_eq, ?_⟩
      intro item test pair
      have read := (List.forall₂_iff_zip.mp others).2 pair
      exact read.takes depth (inside item (List.mem_cons_of_mem first (List.of_mem_zip pair).1))
    have group := readTest_intercalate connective
      (head.takes depth (inside first List.mem_cons_self)) units _
      (stops_closing [.OR, .AND] following)
    rw [← List.map_cons, ← itemTokens_eq_intercalate] at group
    simp only [tokens, List.append_assoc, List.cons_append, List.nil_append]
    exact readUnit_group (head?_itemTokens _ wellFormed rest _) group
  resolves := by
    intro known inSight
    apply resolves_chain connective (head.resolves known inSight)
    induction others with
    | nil => simp
    | cons next others ih =>
        exact List.forall_mem_cons.mpr ⟨next.resolves known inSight, ih⟩
  eval := by
    intro tables aliases
    have each := listEval_eq (.cons head others) tables aliases
    cases connective with
    | all => rw [connectiveTest, eval_chain_all, Formula.eval, each]
    | any => rw [connectiveTest, eval_chain_any, Formula.eval, each]

/-- Every well-formed formula is read as a test. -/
theorem exists_readAs {formula : Formula} (wellFormed : formula.WellFormed) :
    ∃ test, formula.ReadAs test := by
  induction wellFormed with
  | always => exact ⟨_, readAs_always⟩
  | @test operand condition subject some_value =>
      cases operand with
      | column reference => exact ⟨_, readAs_column subject.2 some_value⟩
      | subquery reference links =>
          obtain ⟨-, inside, joined⟩ := subject
          cases links with
          | nil => exact absurd rfl joined.some_link
          | cons first rest => exact ⟨_, readAs_subquery joined inside some_value⟩
  | @existsWhere links reference condition joined column inside some_value =>
      cases links with
      | nil => exact absurd rfl joined.some_link
      | cons first rest => exact ⟨_, readAs_existsWhere joined inside some_value⟩
  | @present links joined =>
      cases links with
      | nil => exact absurd rfl joined.some_link
      | cons first rest => exact ⟨_, readAs_present joined⟩
  | @absent links joined =>
      cases links with
      | nil => exact absurd rfl joined.some_link
      | cons first rest => exact ⟨_, readAs_absent joined⟩
  | @group connective items some_item each ih =>
      cases items with
      | nil => exact absurd rfl some_item
      | cons first rest =>
          obtain ⟨⟨test, head⟩, others⟩ := List.forall_mem_cons.mp ih
          obtain ⟨tests, others⟩ := exists_tests others
          exact ⟨_, readAs_group connective (each first List.mem_cons_self) head others⟩

/-- The text of a formula, with its binds, is read as SQL of its truth. -/
theorem read_fragment {formula : Formula} (wellFormed : formula.WellFormed) :
    ∃ test, formula.fragment.read = some test ∧ test.Resolves [aliasName 0] ∧
      ∀ tables aliases, test.eval tables aliases = formula.eval tables aliases.scope := by
  obtain ⟨test, read⟩ := exists_readAs wellFormed
  obtain ⟨spelled, lexed, filled⟩ := tokens_of_fragment wellFormed
  refine ⟨test, ?_, read.resolves _ (List.mem_singleton_self _), read.eval⟩
  have whole := readTest_unit (read.takes _ (Nat.le_refl _)) [] (by simp [Stops])
  rw [List.append_nil] at whole
  simp only [Fragment.read, Option.bind_eq_bind, Option.bind_some, lexed, filled, whole]

end Formula

end PartnerSearch.Sql
