import Mathlib.Data.List.Perm.Basic
import PartnerSearch.Proofs.Search.Wire

set_option autoImplicit false

/-!
The grammar of searches as JSON values. A value is read as a search exactly when the grammar derives
it, so no name is left unread and the order of members does not matter. Documents that are embedded in a
filter of the search are in their places before the grammar looks at it.
-/

namespace PartnerSearch.Wire

/-- An operator is its token, or an object with the token as its only name and null under it. -/
inductive OperatorForm : Json → Operator → Prop
  | word (operator : Operator) : OperatorForm (.string operator.token) operator
  | key (operator : Operator) : OperatorForm (.object [(operator.token, .null)]) operator

/-- A filter has a member and an operator, in either order, and its values if it has any. -/
inductive FilterForm : List (String × Json) → Filter → Prop
  | bare {members : List (String × Json)} {member : String} {spelling : Json} {operator : Operator}
      (spelled : OperatorForm spelling operator)
      (order : members.Perm [("member", .string member), ("operator", spelling)]) :
      FilterForm members ⟨member, operator, []⟩
  | full {members : List (String × Json)} {member : String} {spelling : Json} {operator : Operator}
      {values : List String} (spelled : OperatorForm spelling operator)
      (order : members.Perm [("member", .string member), ("operator", spelling),
        ("values", .array (values.map .string))]) :
      FilterForm members ⟨member, operator, values⟩

inductive ClauseForm : Json → Clause → Prop
  | filter {members : List (String × Json)} {leaf : Filter} (form : FilterForm members leaf) :
      ClauseForm (.object members) (.filter leaf)
  | any {items : List Json} {children : List Clause} (each : List.Forall₂ ClauseForm items children) :
      ClauseForm (.object [("or", .array items)]) (.any children)
  | all {items : List Json} {children : List Clause} (each : List.Forall₂ ClauseForm items children) :
      ClauseForm (.object [("and", .array items)]) (.all children)

/-- A filter of a search, which is taken over as a value before it is a clause. -/
def EntryForm (item : Json) (clause : Clause) : Prop :=
  ∃ expanded, item.expand = .ok expanded ∧ ClauseForm expanded clause

/-- The filters stand in an object under their name or in a list of their own; either may be empty.
`Form` is the grammar of one of them. -/
inductive SearchForm (Form : Json → Clause → Prop) : Json → Search → Prop
  | emptyObject : SearchForm Form (.object []) .empty
  | object {items : List Json} {clauses : List Clause} (each : List.Forall₂ Form items clauses) :
      SearchForm Form (.object [("filters", .array items)]) ⟨clauses⟩
  | emptyList : SearchForm Form (.array []) .empty
  | list {items : List Json} {clauses : List Clause} (each : List.Forall₂ Form items clauses) :
      SearchForm Form (.array [.array items]) ⟨clauses⟩

theorem readText_eq_ok {value : Json} {text : String} :
    readText value = .ok text ↔ value = .string text := by
  cases value <;> simp [readText, wrongType]

theorem readTexts_eq_ok {value : Json} {texts : List String} :
    readTexts value = .ok texts ↔ value = .array (texts.map .string) := by
  constructor
  · intro read
    cases value with
    | array items =>
        have each := Outcome.mapM_eq_ok.mp read
        clear read
        congr 1
        induction each with
        | nil => rfl
        | cons first later ih => rw [readText_eq_ok.mp first, ih, List.map_cons]
    | _ => cases read
  · rintro rfl
    exact readTexts_map_string texts

theorem readToken_eq_ok {token : String} {operator : Operator} :
    readToken token = .ok operator ↔ token = operator.token := by
  constructor
  · intro read
    unfold readToken at read
    split at read
    · rename_i other found
      cases read
      exact (Operator.token_of_ofToken? found).symm
    · cases read
  · rintro rfl
    exact readToken_token operator

theorem readOperator_eq_ok {value : Json} {operator : Operator} :
    readOperator value = .ok operator ↔ OperatorForm value operator := by
  constructor
  · intro read
    unfold readOperator at read
    split at read
    · rw [readToken_eq_ok.mp read]
      exact .word operator
    · rename_i token inside
      obtain ⟨other, known, onward⟩ := Outcome.bind_eq_ok.mp read
      split at onward
      · cases onward
        rw [readToken_eq_ok.mp known]
        exact .key operator
      · cases onward
    · cases read
    · cases read
  · rintro (_ | _)
    · exact readToken_token operator
    · rw [readOperator, readToken_token]
      rfl

theorem bind_fill_eq_ok {α : Type} {name : String} {old : Option α} {read : Except DecodeFault α}
    {set : Option α → PartialFilter} {next : PartialFilter} :
    (fill name old read >>= fun filled => pure (set filled)) = .ok next ↔
      old = none ∧ ∃ value, read = .ok value ∧ next = set (some value) := by
  simp only [Outcome.bind_eq_ok, Outcome.pure_eq_ok]
  cases old with
  | none =>
      cases read <;> simp [fill, Except.map, eq_comm]
  | some value => simp [fill]

/-- A member is read into the field of its name, which must be empty. -/
theorem readFilterMember_eq_ok {done next : PartialFilter} {name : String} {value : Json} :
    readFilterMember done name value = .ok next ↔
      (name = "member" ∧ done.member = none ∧
          ∃ text, readText value = .ok text ∧ next = { done with member := some text }) ∨
        (name = "operator" ∧ done.operator = none ∧
          ∃ operator, readOperator value = .ok operator ∧
            next = { done with operator := some operator }) ∨
        (name = "values" ∧ done.values = none ∧
          ∃ texts, readTexts value = .ok texts ∧ next = { done with values := some texts }) := by
  unfold readFilterMember
  by_cases member : name = "member"
  · rw [if_pos member, bind_fill_eq_ok]
    simp [member]
  by_cases operator : name = "operator"
  · rw [if_neg member, if_pos operator, bind_fill_eq_ok]
    simp [operator]
  by_cases values : name = "values"
  · rw [if_neg member, if_neg operator, if_pos values, bind_fill_eq_ok]
    simp [values]
  simp [member, operator, values]

theorem readFilterMember_swap {done middle found : PartialFilter} {name other : String}
    {value inside : Json} (first : readFilterMember done name value = .ok middle)
    (second : readFilterMember middle other inside = .ok found) :
    ∃ between, readFilterMember done other inside = .ok between ∧
      readFilterMember between name value = .ok found := by
  simp only [readFilterMember_eq_ok] at first second ⊢
  rcases first with ⟨rfl, empty, text, read, rfl⟩ | ⟨rfl, empty, operator, read, rfl⟩ |
    ⟨rfl, empty, texts, read, rfl⟩ <;>
  rcases second with ⟨rfl, empty', text', read', rfl⟩ | ⟨rfl, empty', operator', read', rfl⟩ |
    ⟨rfl, empty', texts', read', rfl⟩ <;>
  simp_all

/-- The order of the members does not matter for what is read from them. -/
theorem readFilterMembers_perm {members others : List (String × Json)}
    (order : members.Perm others) {done found : PartialFilter}
    (read : readFilterMembers done members = .ok found) :
    readFilterMembers done others = .ok found := by
  induction order generalizing done with
  | nil => exact read
  | cons member order ih =>
      obtain ⟨next, here, later⟩ := Outcome.bind_eq_ok.mp read
      exact Outcome.bind_eq_ok.mpr ⟨next, here, ih later⟩
  | swap member other rest =>
      obtain ⟨middle, first, onward⟩ := Outcome.bind_eq_ok.mp read
      obtain ⟨next, second, later⟩ := Outcome.bind_eq_ok.mp onward
      obtain ⟨between, earlier, after⟩ := readFilterMember_swap first second
      exact Outcome.bind_eq_ok.mpr ⟨between, earlier, Outcome.bind_eq_ok.mpr ⟨next, after, later⟩⟩
  | trans first second ihFirst ihSecond => exact ihSecond (ihFirst read)

/-- A field is filled by the one member of its name, and stays empty without one. -/
def FieldFrom {α : Type} (name : String) (read : Json → Except DecodeFault α) :
    Option α → List (String × Json) → Prop
  | none, members => members = []
  | some found, members => ∃ value, members = [(name, value)] ∧ read value = .ok found

/-- The members that have been read, in some order. -/
def Filled (done : PartialFilter) (members : List (String × Json)) : Prop :=
  ∃ first second third, members.Perm (first ++ second ++ third) ∧
    FieldFrom "member" readText done.member first ∧
    FieldFrom "operator" readOperator done.operator second ∧
    FieldFrom "values" readTexts done.values third

/-- One more member fills one more field. -/
theorem filled_of_readFilterMember {done next : PartialFilter} {members : List (String × Json)}
    {name : String} {value : Json} (filled : Filled done members)
    (read : readFilterMember done name value = .ok next) :
    Filled next ((name, value) :: members) := by
  obtain ⟨first, second, third, order, member, operator, values⟩ := filled
  have onward := order.cons (name, value)
  rcases readFilterMember_eq_ok.mp read with ⟨rfl, empty, text, found, rfl⟩ |
    ⟨rfl, empty, given, found, rfl⟩ | ⟨rfl, empty, texts, found, rfl⟩
  · rw [empty] at member
    cases member
    exact ⟨[("member", value)], second, third, onward, ⟨value, rfl, found⟩, operator, values⟩
  · rw [empty] at operator
    cases operator
    refine ⟨first, [("operator", value)], third, ?_, member, ⟨value, rfl, found⟩, values⟩
    simpa using onward.trans List.perm_middle.symm
  · rw [empty] at values
    cases values
    refine ⟨first, second, [("values", value)], ?_, member, operator, ⟨value, rfl, found⟩⟩
    simpa using onward.trans List.perm_middle.symm

theorem filled_of_readFilterMembers {done found : PartialFilter}
    {seen members : List (String × Json)} (filled : Filled done seen)
    (read : readFilterMembers done members = .ok found) : Filled found (members ++ seen) := by
  induction members generalizing done seen with
  | nil =>
      cases read
      exact filled
  | cons member rest ih =>
      obtain ⟨next, here, later⟩ := Outcome.bind_eq_ok.mp read
      obtain ⟨first, second, third, order, fields⟩ :=
        ih (filled_of_readFilterMember filled here) later
      exact ⟨first, second, third, List.perm_middle.symm.trans order, fields⟩

theorem required_eq_ok {α : Type} {name : String} {found : Option α} {value : α} :
    required name found = .ok value ↔ found = some value := by
  cases found <;> simp [required]

theorem readFilterMembers_front {member : String} {spelling : Json} {operator : Operator}
    (spelled : OperatorForm spelling operator) (rest : List (String × Json)) :
    readFilterMembers {} (("member", .string member) :: ("operator", spelling) :: rest) =
      readFilterMembers ⟨some member, some operator, none⟩ rest := by
  have first : readFilterMember {} "member" (.string member) = .ok ⟨some member, none, none⟩ := rfl
  have second : readFilterMember ⟨some member, none, none⟩ "operator" spelling =
      .ok ⟨some member, some operator, none⟩ :=
    readFilterMember_eq_ok.mpr (.inr (.inl ⟨rfl, rfl, operator, readOperator_eq_ok.mpr spelled, rfl⟩))
  rw [readFilterMembers, first]
  show readFilterMembers _ (("operator", spelling) :: rest) = _
  rw [readFilterMembers, second]
  rfl

theorem readFilterMembers_values (member : String) (operator : Operator) (values : List String) :
    readFilterMembers ⟨some member, some operator, none⟩
      [("values", .array (values.map .string))] = .ok ⟨some member, some operator, some values⟩ := by
  have last : readFilterMember ⟨some member, some operator, none⟩ "values"
      (.array (values.map .string)) = .ok ⟨some member, some operator, some values⟩ :=
    readFilterMember_eq_ok.mpr
      (.inr (.inr ⟨rfl, rfl, values, readTexts_map_string values, rfl⟩))
  rw [readFilterMembers, last]
  rfl

theorem readFilter_eq_ok {members : List (String × Json)} {leaf : Filter} :
    readFilter members = .ok leaf ↔ FilterForm members leaf := by
  constructor
  · intro read
    simp only [readFilter, Outcome.bind_eq_ok, Outcome.pure_eq_ok, required_eq_ok] at read
    obtain ⟨found, all, member, hasMember, operator, hasOperator, rfl⟩ := read
    have nothing : Filled {} [] := ⟨[], [], [], .nil, rfl, rfl, rfl⟩
    obtain ⟨first, second, third, order, fromMember, fromOperator, fromValues⟩ :=
      filled_of_readFilterMembers nothing all
    rw [hasMember] at fromMember
    obtain ⟨text, rfl, isText⟩ := fromMember
    cases readText_eq_ok.mp isText
    rw [hasOperator] at fromOperator
    obtain ⟨spelling, rfl, isOperator⟩ := fromOperator
    have spelled := readOperator_eq_ok.mp isOperator
    rw [List.append_nil] at order
    cases values : found.values with
    | none =>
        rw [values] at fromValues
        cases fromValues
        exact .bare spelled order
    | some texts =>
        rw [values] at fromValues
        obtain ⟨list, rfl, areTexts⟩ := fromValues
        cases readTexts_eq_ok.mp areTexts
        exact .full spelled order
  · -- Members in the order of the grammar are read, so these are as well.
    intro form
    cases form with
    | bare spelled order =>
        have read := readFilterMembers_perm order.symm (readFilterMembers_front spelled [])
        rw [readFilter, read]
        rfl
    | @full member spelling operator values spelled order =>
        have read := readFilterMembers_perm order.symm
          ((readFilterMembers_front spelled _).trans
            (readFilterMembers_values member operator values))
        rw [readFilter, read]
        rfl

theorem hasMember_iff {name : String} {members : List (String × Json)} :
    Json.hasMember name members = true ↔ name ∈ members.map Prod.fst := by
  simp [Json.hasMember]

theorem hasMember_of_filterForm {members : List (String × Json)} {leaf : Filter}
    (form : FilterForm members leaf) : Json.hasMember "member" members = true := by
  rw [hasMember_iff]
  cases form with
  | bare spelled order => simp [(order.map Prod.fst).mem_iff]
  | full spelled order => simp [(order.map Prod.fst).mem_iff]

/-- What an object is read as, by its names. -/
theorem readClause_eq_ok {value : Json} {clause : Clause} :
    readClause value = .ok clause ↔
      (∃ members leaf, value = .object members ∧ clause = .filter leaf ∧
          FilterForm members leaf) ∨
        (∃ items children, value = .object [("or", .array items)] ∧ clause = .any children ∧
          readClauseItems items = .ok children) ∨
        (∃ items children, value = .object [("and", .array items)] ∧ clause = .all children ∧
          readClauseItems items = .ok children) := by
  constructor
  · intro read
    cases value with
    | object members =>
        rw [readClause] at read
        split at read
        · obtain ⟨leaf, filter, rfl⟩ := Outcome.map_eq_ok.mp read
          exact .inl ⟨members, leaf, rfl, rfl, readFilter_eq_ok.mp filter⟩
        split at read
        · obtain ⟨children, group, rfl⟩ := Outcome.map_eq_ok.mp read
          obtain ⟨inside, rfl, list⟩ := readGroup_eq_ok.mp group
          obtain ⟨items, rfl, each⟩ := readClauses_eq_ok.mp list
          exact .inr (.inl ⟨items, children, rfl, rfl, each⟩)
        split at read
        · obtain ⟨children, group, rfl⟩ := Outcome.map_eq_ok.mp read
          obtain ⟨inside, rfl, list⟩ := readGroup_eq_ok.mp group
          obtain ⟨items, rfl, each⟩ := readClauses_eq_ok.mp list
          exact .inr (.inr ⟨items, children, rfl, rfl, each⟩)
        · cases read
    | _ => cases read
  · rintro (⟨members, leaf, rfl, rfl, form⟩ | ⟨items, children, rfl, rfl, each⟩ |
      ⟨items, children, rfl, rfl, each⟩)
    · rw [readClause, if_pos (hasMember_of_filterForm form), readFilter_eq_ok.mpr form]
      rfl
    · show (readGroup "or" none [("or", .array items)]).map Clause.any = _
      rw [readGroup_single, readClauses, each]
      rfl
    · show (readGroup "and" none [("and", .array items)]).map Clause.all = _
      rw [readGroup_single, readClauses, each]
      rfl

/-- Items are read as clauses when each of them has the form of its own. -/
theorem readClauseItems_iff {items : List Json} {clauses : List Clause}
    (each : ∀ clause ∈ clauses, ∀ {value}, readClause value = .ok clause ↔ ClauseForm value clause) :
    readClauseItems items = .ok clauses ↔ List.Forall₂ ClauseForm items clauses := by
  rw [readClauseItems_eq_ok]
  induction clauses generalizing items with
  | nil => simp
  | cons clause rest ih =>
      have first := @each clause List.mem_cons_self
      have later := fun other member => @each other (List.mem_cons_of_mem clause member)
      simp only [List.forall₂_cons_right_iff, first, ih later]

/-- The grammar derives exactly the clauses that are read. -/
theorem readClause_iff {value : Json} {clause : Clause} :
    readClause value = .ok clause ↔ ClauseForm value clause := by
  induction clause generalizing value with
  | filter leaf =>
      rw [readClause_eq_ok]
      constructor
      · rintro (⟨members, _, rfl, ⟨⟩, form⟩ | ⟨_, _, _, ⟨⟩, _⟩ | ⟨_, _, _, ⟨⟩, _⟩)
        exact .filter form
      · rintro ⟨form⟩
        exact .inl ⟨_, leaf, rfl, rfl, form⟩
  | any children ih =>
      rw [readClause_eq_ok]
      constructor
      · rintro (⟨_, _, _, ⟨⟩, _⟩ | ⟨items, _, rfl, ⟨⟩, each⟩ | ⟨_, _, _, ⟨⟩, _⟩)
        exact .any ((readClauseItems_iff ih).mp each)
      · intro form
        cases form with
        | any each => exact .inr (.inl ⟨_, children, rfl, rfl, (readClauseItems_iff ih).mpr each⟩)
  | all children ih =>
      rw [readClause_eq_ok]
      constructor
      · rintro (⟨_, _, _, ⟨⟩, _⟩ | ⟨_, _, _, ⟨⟩, _⟩ | ⟨items, _, rfl, ⟨⟩, each⟩)
        exact .all ((readClauseItems_iff ih).mp each)
      · intro form
        cases form with
        | all each => exact .inr (.inr ⟨_, children, rfl, rfl, (readClauseItems_iff ih).mpr each⟩)

theorem readEntry_iff {item : Json} {clause : Clause} :
    readEntry item = .ok clause ↔ EntryForm item clause := by
  simp only [readEntry, EntryForm, Outcome.bind_eq_ok, lift_eq_ok, readClause_iff]

theorem readFilters_iff {value : Json} {clauses : List Clause} :
    readFilters value = .ok clauses ↔
      ∃ items, value = .array items ∧ List.Forall₂ EntryForm items clauses := by
  cases value with
  | array items =>
      rw [readFilters, Outcome.mapM_eq_ok]
      simp [readEntry_iff]
  | _ => simp [readFilters, wrongType]

theorem readSearchMembers_filters (value : Json) (rest : List (String × Json)) :
    readSearchMembers none (("filters", value) :: rest) =
      readFilters value >>= fun clauses => readSearchMembers (some clauses) rest := by
  simp [readSearchMembers]

theorem readSearchMembers_eq_ok {members : List (String × Json)} {search : Search} :
    readSearchMembers none members = .ok search ↔
      (members = [] ∧ search = .empty) ∨
        ∃ value, members = [("filters", value)] ∧ readFilters value = .ok search.filters := by
  constructor
  · intro read
    cases members with
    | nil =>
        cases read
        exact .inl ⟨rfl, rfl⟩
    | cons member rest =>
        obtain ⟨name, value⟩ := member
        by_cases filters : name = "filters"
        · subst filters
          rw [readSearchMembers_filters] at read
          obtain ⟨clauses, found, onward⟩ := Outcome.bind_eq_ok.mp read
          obtain ⟨rfl, rfl⟩ := readSearchMembers_some_eq_ok.mp onward
          exact .inr ⟨value, rfl, found⟩
        · rw [readSearchMembers, if_pos filters] at read
          cases read
  · rintro (⟨rfl, rfl⟩ | ⟨value, rfl, found⟩)
    · rfl
    · rw [readSearchMembers_filters, found]
      rfl

/-- The grammar derives exactly the searches that are read. -/
theorem readSearch_iff {value : Json} {search : Search} :
    readSearch value = .ok search ↔ SearchForm EntryForm value search := by
  constructor
  · intro read
    cases value with
    | object members =>
        rcases readSearchMembers_eq_ok.mp read with ⟨rfl, rfl⟩ | ⟨inside, rfl, found⟩
        · exact .emptyObject
        · obtain ⟨items, rfl, each⟩ := readFilters_iff.mp found
          exact .object each
    | array items =>
        cases items with
        | nil =>
            cases read
            exact .emptyList
        | cons item rest =>
            obtain ⟨clauses, found, onward⟩ := Outcome.bind_eq_ok.mp read
            split at onward
            · rename_i last
              cases onward
              cases List.isEmpty_iff.mp last
              obtain ⟨items, rfl, each⟩ := readFilters_iff.mp found
              exact .list each
            · cases onward
    | _ => cases read
  · intro form
    cases form with
    | emptyObject => rfl
    | object each =>
        exact readSearchMembers_eq_ok.mpr (.inr ⟨_, rfl, readFilters_iff.mpr ⟨_, rfl, each⟩⟩)
    | emptyList => rfl
    | list each =>
        rw [readSearch, readFilters_iff.mpr ⟨_, rfl, each⟩]
        rfl

theorem entryForm_of_plain {item : Json} (plain : item.IsPlain) {clause : Clause} :
    EntryForm item clause ↔ ClauseForm item clause := by
  simp [EntryForm, Json.expand_of_isPlain plain]

theorem forall₂_entryForm_of_plain {items : List Json} (plain : ∀ item ∈ items, item.IsPlain)
    {clauses : List Clause} :
    List.Forall₂ EntryForm items clauses ↔ List.Forall₂ ClauseForm items clauses := by
  induction items generalizing clauses with
  | nil => simp only [List.forall₂_nil_left_iff]
  | cons item rest ih =>
      obtain ⟨first, later⟩ := List.forall_mem_cons.mp plain
      simp only [List.forall₂_cons_left_iff, entryForm_of_plain first, ih later]

/-- Where nothing is embedded, the grammar is that of the clauses as they stand. -/
theorem searchForm_of_plain {value : Json} (plain : value.IsPlain) {search : Search} :
    SearchForm EntryForm value search ↔ SearchForm ClauseForm value search := by
  have items {items : List Json} (list : (Json.array items).IsPlain) {clauses : List Clause} :
      List.Forall₂ EntryForm items clauses ↔ List.Forall₂ ClauseForm items clauses :=
    forall₂_entryForm_of_plain list.items
  constructor
  · intro form
    cases form with
    | emptyObject => exact .emptyObject
    | object each => exact .object ((items (plain.members _ List.mem_cons_self)).mp each)
    | emptyList => exact .emptyList
    | list each => exact .list ((items (plain.items _ List.mem_cons_self)).mp each)
  · intro form
    cases form with
    | emptyObject => exact .emptyObject
    | object each => exact .object ((items (plain.members _ List.mem_cons_self)).mpr each)
    | emptyList => exact .emptyList
    | list each => exact .list ((items (plain.items _ List.mem_cons_self)).mpr each)

end PartnerSearch.Wire
