import PartnerSearch.Proofs.Search.Grammar

set_option autoImplicit false

/-!
Ways to write one search. Values that are read as searches mean the same search exactly when they differ
in the order of members, in empty lists that may be left out, in the spelling of operators and in
the envelope, and in nothing else.
-/

namespace PartnerSearch.Wire

/-- Clauses up to the order of members, values that are empty or left out, and the spelling of
operators, in themselves or in the children of groups. -/
inductive ClauseAlike : Json → Json → Prop
  | refl (value : Json) : ClauseAlike value value
  | symm {value other : Json} (alike : ClauseAlike value other) : ClauseAlike other value
  | trans {value middle other : Json} (first : ClauseAlike value middle)
      (second : ClauseAlike middle other) : ClauseAlike value other
  | order {members others : List (String × Json)} (order : members.Perm others) :
      ClauseAlike (.object members) (.object others)
  | values {members : List (String × Json)} (filter : "member" ∈ members.map Prod.fst)
      (absent : "values" ∉ members.map Prod.fst) :
      ClauseAlike (.object members) (.object (("values", .array []) :: members))
  | operator (token : String) (members : List (String × Json)) :
      ClauseAlike (.object (("operator", .string token) :: members))
        (.object (("operator", .object [(token, .null)]) :: members))
  | child {name : String} {before after : List Json} {item other : Json}
      (group : name = "or" ∨ name = "and") (inside : ClauseAlike item other) :
      ClauseAlike (.object [(name, .array (before ++ item :: after))])
        (.object [(name, .array (before ++ other :: after))])

/-- Filters of a search that are alike once they are taken over. -/
def EntryAlike (item other : Json) : Prop :=
  ∃ expanded taken, item.expand = .ok expanded ∧ other.expand = .ok taken ∧ ClauseAlike expanded taken

/-- Searches up to the envelope, filters that are empty or left out, and the spelling of the filters, in
which `Alike` ones may stand for each other. -/
inductive SearchAlike (Alike : Json → Json → Prop) : Json → Json → Prop
  | refl (value : Json) : SearchAlike Alike value value
  | symm {value other : Json} (alike : SearchAlike Alike value other) : SearchAlike Alike other value
  | trans {value middle other : Json} (first : SearchAlike Alike value middle)
      (second : SearchAlike Alike middle other) : SearchAlike Alike value other
  | list (filters : Json) : SearchAlike Alike (.array [filters]) (.object [("filters", filters)])
  | emptyList : SearchAlike Alike (.array []) (.object [])
  | filters : SearchAlike Alike (.object []) (.object [("filters", .array [])])
  | clause {before after : List Json} {item other : Json} (inside : Alike item other) :
      SearchAlike Alike (.object [("filters", .array (before ++ item :: after))])
        (.object [("filters", .array (before ++ other :: after))])

theorem filterForm_perm {members others : List (String × Json)} (order : members.Perm others)
    {leaf : Filter} : FilterForm members leaf ↔ FilterForm others leaf := by
  have oneWay {members others : List (String × Json)} (order : members.Perm others)
      (form : FilterForm members leaf) : FilterForm others leaf := by
    cases form with
    | bare spelled own => exact .bare spelled (order.symm.trans own)
    | full spelled own => exact .full spelled (order.symm.trans own)
  exact ⟨oneWay order, oneWay order.symm⟩

theorem operatorForm_word_iff {token : String} {operator : Operator} :
    OperatorForm (.string token) operator ↔ token = operator.token := by
  constructor
  · rintro ⟨⟩
    rfl
  · rintro rfl
    exact .word operator

theorem operatorForm_key_iff {token : String} {operator : Operator} :
    OperatorForm (.object [(token, .null)]) operator ↔ token = operator.token := by
  constructor
  · rintro ⟨⟩
    rfl
  · rintro rfl
    exact .key operator

theorem filterForm_operator {token : String} {members : List (String × Json)} {leaf : Filter} :
    FilterForm (("operator", .string token) :: members) leaf ↔
      FilterForm (("operator", .object [(token, .null)]) :: members) leaf := by
  have same (done : PartialFilter) (next : PartialFilter) :
      readFilterMember done "operator" (.string token) = .ok next ↔
        readFilterMember done "operator" (.object [(token, .null)]) = .ok next := by
    simp [readFilterMember_eq_ok, readOperator_eq_ok, operatorForm_word_iff, operatorForm_key_iff]
  simp only [← readFilter_eq_ok, readFilter, readFilterMembers, Outcome.bind_eq_ok, same]

/-- A member may as well stand at the end. -/
theorem perm_last {member first second : String × Json} :
    [member, first, second].Perm [first, second, member] :=
  (List.Perm.swap first member [second]).trans ((List.Perm.swap second member []).cons first)

theorem filterForm_values {members : List (String × Json)}
    (absent : "values" ∉ members.map Prod.fst) {leaf : Filter} :
    FilterForm members leaf ↔ FilterForm (("values", .array []) :: members) leaf := by
  constructor
  · intro form
    cases form with
    | bare spelled order =>
        exact FilterForm.full spelled ((order.cons ("values", .array [])).trans perm_last)
    | full spelled order =>
        rw [(order.map Prod.fst).mem_iff] at absent
        simp at absent
  · intro form
    cases form with
    | bare spelled order =>
        have named : "values" ∈ ["member", "operator"] :=
          (order.map Prod.fst).mem_iff.mp List.mem_cons_self
        simp at named
    | @full member spelling operator values spelled order =>
        have empty : values = [] := by
          simpa using order.mem_iff.mp (List.mem_cons_self (a := ("values", Json.array [])))
        subst empty
        exact .bare spelled (order.trans perm_last.symm).cons_inv

/-- Only filters have a member under that name. -/
theorem exists_filter_of_clauseForm {members : List (String × Json)} {clause : Clause}
    (form : ClauseForm (.object members) clause)
    (named : ∀ name inside, members = [(name, inside)] → name ≠ "or" ∧ name ≠ "and") :
    ∃ leaf, clause = .filter leaf ∧ FilterForm members leaf := by
  cases form with
  | filter form => exact ⟨_, rfl, form⟩
  | any each => exact absurd rfl (named "or" _ rfl).1
  | all each => exact absurd rfl (named "and" _ rfl).2

/-- Objects that are not groups have the same form if they have it as filters. -/
theorem clauseForm_congr {members others : List (String × Json)}
    (named : ∀ name inside, members = [(name, inside)] → name ≠ "or" ∧ name ≠ "and")
    (othersNamed : ∀ name inside, others = [(name, inside)] → name ≠ "or" ∧ name ≠ "and")
    (same : ∀ leaf, FilterForm members leaf ↔ FilterForm others leaf) (clause : Clause) :
    ClauseForm (.object members) clause ↔ ClauseForm (.object others) clause := by
  constructor
  · intro form
    obtain ⟨leaf, rfl, own⟩ := exists_filter_of_clauseForm form named
    exact .filter ((same leaf).mp own)
  · intro form
    obtain ⟨leaf, rfl, own⟩ := exists_filter_of_clauseForm form othersNamed
    exact .filter ((same leaf).mpr own)

theorem clauseForm_perm {members others : List (String × Json)} (order : members.Perm others)
    (clause : Clause) :
    ClauseForm (.object members) clause ↔ ClauseForm (.object others) clause := by
  by_cases single : members.length = 1
  · obtain ⟨member, rfl⟩ := List.length_eq_one_iff.mp single
    rw [List.singleton_perm.mp order]
  · have several (list : List (String × Json)) (same : list.length = members.length) :
        ∀ name inside, list = [(name, inside)] → name ≠ "or" ∧ name ≠ "and" := by
      intro name inside equal
      rw [equal] at same
      exact absurd same.symm single
    exact clauseForm_congr (several members rfl) (several others order.length_eq.symm)
      (fun leaf => filterForm_perm order) clause

/-- A list has the forms that it had when one of its items is spelled in another way. -/
theorem forall₂_form_congr {Form : Json → Clause → Prop} {before after : List Json}
    {item other : Json} (same : ∀ clause, Form item clause ↔ Form other clause)
    (clauses : List Clause) :
    List.Forall₂ Form (before ++ item :: after) clauses ↔
      List.Forall₂ Form (before ++ other :: after) clauses := by
  induction before generalizing clauses with
  | nil => simp only [List.nil_append, List.forall₂_cons_left_iff, same]
  | cons first rest ih => simp only [List.cons_append, List.forall₂_cons_left_iff, ih]

theorem clauseForm_child {name : String} {items others : List Json}
    (same : ∀ clauses, List.Forall₂ ClauseForm items clauses ↔
      List.Forall₂ ClauseForm others clauses) {clause : Clause}
    (form : ClauseForm (.object [(name, .array items)]) clause) :
    ClauseForm (.object [(name, .array others)]) clause := by
  cases form with
  | filter form =>
      cases form with
      | bare spelled order => cases order.length_eq
      | full spelled order => cases order.length_eq
  | any each => exact .any ((same _).mp each)
  | all each => exact .all ((same _).mp each)

/-- Clauses that are alike are read as the same clauses. -/
theorem clauseForm_iff_of_alike {value other : Json} (alike : ClauseAlike value other)
    (clause : Clause) : ClauseForm value clause ↔ ClauseForm other clause := by
  induction alike generalizing clause with
  | refl value => rfl
  | symm alike ih => exact (ih clause).symm
  | trans first second ihFirst ihSecond => exact (ihFirst clause).trans (ihSecond clause)
  | order order => exact clauseForm_perm order clause
  | @values members filter absent =>
      have named : ∀ name inside, members = [(name, inside)] → name ≠ "or" ∧ name ≠ "and" := by
        intro name inside single
        subst single
        have member : "member" = name := by simpa using filter
        subst member
        decide
      refine clauseForm_congr named ?_ (fun leaf => filterForm_values absent) clause
      intro name inside single
      cases single
      decide
  | operator token members =>
      refine clauseForm_congr ?_ ?_ (fun leaf => filterForm_operator) clause
      · intro name inside single
        cases single
        decide
      · intro name inside single
        cases single
        decide
  | @child name before after item other group inside ih =>
      have same := @forall₂_form_congr ClauseForm before after item other ih
      exact ⟨clauseForm_child same, clauseForm_child fun clauses => (same clauses).symm⟩

theorem entryForm_iff_of_alike {item other : Json} (alike : EntryAlike item other)
    (clause : Clause) : EntryForm item clause ↔ EntryForm other clause := by
  obtain ⟨expanded, taken, first, second, same⟩ := alike
  simp [EntryForm, first, second, clauseForm_iff_of_alike same clause]

theorem alike_of_operatorForm {spelling : Json} {operator : Operator}
    (spelled : OperatorForm spelling operator) (members : List (String × Json)) :
    ClauseAlike (.object (("operator", spelling) :: members))
      (.object (("operator", .string operator.token) :: members)) := by
  cases spelled with
  | word => exact .refl _
  | key => exact (ClauseAlike.operator operator.token members).symm

/-- A filter in any form is alike to the one that is written. -/
theorem alike_of_filterForm {members : List (String × Json)} {leaf : Filter}
    (form : FilterForm members leaf) : ClauseAlike (.object members) leaf.toJson := by
  cases form with
  | @bare member spelling operator spelled order =>
      have front := ClauseAlike.order (order.trans (.swap _ _ []))
      have word := alike_of_operatorForm spelled [("member", .string member)]
      have added : ClauseAlike
          (.object [("operator", .string operator.token), ("member", .string member)])
          (.object [("values", .array []), ("operator", .string operator.token),
            ("member", .string member)]) := .values (by simp) (by simp)
      refine ((front.trans word).trans added).trans (.order ?_)
      exact perm_last.trans (.swap _ _ _)
  | @full member spelling operator values spelled order =>
      have front := ClauseAlike.order (order.trans (.swap _ _ _))
      have word := alike_of_operatorForm spelled
        [("member", .string member), ("values", .array (values.map .string))]
      exact (front.trans word).trans (.order (.swap _ _ _))

/-- A group is alike to a group of children that are alike. -/
theorem alike_group {name : String} (group : name = "or" ∨ name = "and") {items others : List Json}
    (each : List.Forall₂ ClauseAlike items others) (before : List Json) :
    ClauseAlike (.object [(name, .array (before ++ items))])
      (.object [(name, .array (before ++ others))]) := by
  induction each generalizing before with
  | nil => exact .refl _
  | @cons item other items others first later ih =>
      have replaced := @ClauseAlike.child name before items item other group first
      have onward := ih (before ++ [other])
      rw [List.append_assoc, List.append_assoc] at onward
      exact replaced.trans onward

theorem forall₂_alike {items : List Json} {clauses : List Clause} {Form : Json → Clause → Prop}
    {Alike : Json → Json → Prop} (each : List.Forall₂ Form items clauses)
    (alike : ∀ clause ∈ clauses, ∀ value, Form value clause → Alike value clause.toJson) :
    List.Forall₂ Alike items (Clause.listToJson clauses) := by
  induction each with
  | nil => exact .nil
  | cons first later ih =>
      exact .cons (alike _ List.mem_cons_self _ first)
        (ih fun clause member => alike clause (List.mem_cons_of_mem _ member))

theorem alike_of_clauseForm {value : Json} {clause : Clause} (form : ClauseForm value clause) :
    ClauseAlike value clause.toJson := by
  induction clause generalizing value with
  | filter leaf =>
      cases form with
      | filter form => exact alike_of_filterForm form
  | any children ih =>
      cases form with
      | any each =>
          exact alike_group (.inl rfl) (forall₂_alike each fun child member _ => ih child member) []
  | all children ih =>
      cases form with
      | all each =>
          exact alike_group (.inr rfl) (forall₂_alike each fun child member _ => ih child member) []

theorem alike_of_entryForm {item : Json} {clause : Clause} (form : EntryForm item clause) :
    EntryAlike item clause.toJson := by
  obtain ⟨expanded, found, own⟩ := form
  have plain := Json.isPlain_of_textual (Clause.textual_toJson clause)
  exact ⟨expanded, clause.toJson, found, Json.expand_of_isPlain plain, alike_of_clauseForm own⟩

/-- Values that are alike have the same forms, and a value in any form is alike to the one that is
written for it. -/
structure IsLikeness (Form : Json → Clause → Prop) (Alike : Json → Json → Prop) : Prop where
  respects {item other : Json} (alike : Alike item other) (clause : Clause) :
    Form item clause ↔ Form other clause
  written {item : Json} {clause : Clause} (form : Form item clause) : Alike item clause.toJson

theorem isLikeness_clause : IsLikeness ClauseForm ClauseAlike where
  respects := clauseForm_iff_of_alike
  written := alike_of_clauseForm

theorem isLikeness_entry : IsLikeness EntryForm EntryAlike where
  respects := entryForm_iff_of_alike
  written := alike_of_entryForm

section Likeness

variable {Form : Json → Clause → Prop} {Alike : Json → Json → Prop} (likeness : IsLikeness Form Alike)

theorem alike_filters {items others : List Json} (each : List.Forall₂ Alike items others)
    (before : List Json) :
    SearchAlike Alike (.object [("filters", .array (before ++ items))])
      (.object [("filters", .array (before ++ others))]) := by
  induction each generalizing before with
  | nil => exact .refl _
  | @cons item other items others first later ih =>
      have replaced := @SearchAlike.clause Alike before items item other first
      have onward := ih (before ++ [other])
      rw [List.append_assoc, List.append_assoc] at onward
      exact replaced.trans onward

include likeness

/-- Searches that are alike are read as the same searches. -/
theorem searchForm_iff_of_alike {value other : Json} (alike : SearchAlike Alike value other) (search : Search) :
    SearchForm Form value search ↔ SearchForm Form other search := by
  induction alike generalizing search with
  | refl value => rfl
  | symm alike ih => exact (ih search).symm
  | trans first second ihFirst ihSecond => exact (ihFirst search).trans (ihSecond search)
  | list filters =>
      constructor
      · intro form
        cases form with
        | list each => exact .object each
      · intro form
        cases form with
        | object each => exact .list each
  | emptyList =>
      constructor
      · intro form
        cases form with
        | emptyList => exact .emptyObject
      · intro form
        cases form with
        | emptyObject => exact .emptyList
  | filters =>
      constructor
      · intro form
        cases form with
        | emptyObject => exact .object .nil
      · intro form
        cases form with
        | object each =>
            cases each with
            | nil => exact .emptyObject
  | @clause before after item other inside =>
      have same := @forall₂_form_congr Form before after item other (likeness.respects inside)
      constructor
      · intro form
        cases form with
        | object each => exact .object ((same _).mp each)
      · intro form
        cases form with
        | object each => exact .object ((same _).mpr each)

/-- A search in any form is alike to the one that is written. -/
theorem alike_of_searchForm {value : Json} {search : Search} (form : SearchForm Form value search) :
    SearchAlike Alike value search.toJson := by
  have written {items : List Json} {clauses : List Clause} (each : List.Forall₂ Form items clauses) :
      SearchAlike Alike (.object [("filters", .array items)]) (Search.toJson ⟨clauses⟩) :=
    alike_filters (forall₂_alike each fun _ _ _ => likeness.written) []
  cases form with
  | emptyObject => exact .filters
  | object each => exact written each
  | emptyList => exact SearchAlike.emptyList.trans .filters
  | list each => exact (SearchAlike.list _).trans (written each)

/-- Two searches in a form are the same exactly when their values are alike. -/
theorem search_eq_iff_alike {value other : Json} {search found : Search}
    (form : SearchForm Form value search) (otherForm : SearchForm Form other found)
    (unique : ∀ again, SearchForm Form other again → again = found) :
    search = found ↔ SearchAlike Alike value other := by
  constructor
  · rintro rfl
    exact (alike_of_searchForm likeness form).trans (alike_of_searchForm likeness otherForm).symm
  · intro alike
    exact unique search ((searchForm_iff_of_alike likeness alike search).mp form)

end Likeness

end PartnerSearch.Wire

namespace PartnerSearch.Search

/-- Exactly the values that the grammar derives are read, as the search that it derives from them; and
two of them are read as the same search exactly when they are alike. A value without embedded documents
is so by the grammar and the likeness of its filters as they stand, and what is read from bytes is such a
value. -/
theorem ofJson_exact :
    (∀ value search, ofJson value = .ok search ↔ Wire.SearchForm Wire.EntryForm value search) ∧
      (∀ value other search found, ofJson value = .ok search → ofJson other = .ok found →
        (search = found ↔ Wire.SearchAlike Wire.EntryAlike value other)) ∧
      (∀ value, value.IsPlain →
        ∀ search, ofJson value = .ok search ↔ Wire.SearchForm Wire.ClauseForm value search) ∧
      (∀ value other, value.IsPlain → other.IsPlain →
        ∀ search found, ofJson value = .ok search → ofJson other = .ok found →
          (search = found ↔ Wire.SearchAlike Wire.ClauseAlike value other)) ∧
      ∀ document value, Json.read document = .ok value → value.IsPlain := by
  have derived (value : Json) (search : Search) :
      ofJson value = .ok search ↔ Wire.SearchForm Wire.EntryForm value search := Wire.readSearch_iff
  have derivedPlain (value : Json) (plain : value.IsPlain) (search : Search) :
      ofJson value = .ok search ↔ Wire.SearchForm Wire.ClauseForm value search :=
    (derived value search).trans (Wire.searchForm_of_plain plain)
  refine ⟨derived, ?_, derivedPlain, ?_, fun _ _ => Json.isPlain_of_read⟩
  · intro value other search found read readOther
    refine Wire.search_eq_iff_alike Wire.isLikeness_entry ((derived _ _).mp read)
      ((derived _ _).mp readOther) ?_
    intro again form
    exact Except.ok.inj (((derived _ _).mpr form).symm.trans readOther)
  · intro value other plain otherPlain search found read readOther
    refine Wire.search_eq_iff_alike Wire.isLikeness_clause ((derivedPlain _ plain _).mp read)
      ((derivedPlain _ otherPlain _).mp readOther) ?_
    intro again form
    exact Except.ok.inj (((derivedPlain _ otherPlain _).mpr form).symm.trans readOther)

/-- One filter and an empty group, as they are written. -/
def plainSpelling : Json :=
  .object [("filters", .array [
    .object [("member", .string "name"), ("operator", .string "eq"), ("values", .array [])],
    .object [("or", .array [])]])]

/-- The same in a list of their own, the filter in another order and without its values. -/
def otherSpelling : Json :=
  .array [.array [
    .object [("operator", .object [("eq", .null)]), ("member", .string "name")],
    .object [("or", .array [])]]]

theorem ofJson_exact_spellings :
    let search : Search := ⟨[.filter ⟨"name", .equals, []⟩, .any []]⟩
    ofJson otherSpelling = .ok search ∧ ofJson plainSpelling = .ok search ∧
      Wire.SearchAlike Wire.EntryAlike otherSpelling plainSpelling ∧
      Wire.SearchForm Wire.ClauseForm otherSpelling search ∧
      Wire.SearchAlike Wire.ClauseAlike otherSpelling plainSpelling ∧
      ∃ value, Json.read (Text.bytes plainSpelling.render) = .ok value ∧ value.IsPlain := by
  intro search
  obtain ⟨-, alike, derived, alikePlain, parsed⟩ := ofJson_exact
  have readOther : ofJson otherSpelling = .ok search := by with_unfolding_all rfl
  have readPlain : ofJson plainSpelling = .ok search := by with_unfolding_all rfl
  have other : otherSpelling.IsPlain := Json.isPlain_iff.mpr (by with_unfolding_all rfl)
  have plain : plainSpelling.IsPlain := Json.isPlain_iff.mpr (by with_unfolding_all rfl)
  have accepted : (Wire.lift (Json.read (Text.bytes plainSpelling.render)) >>= ofJson) = .ok search := by
    decide +kernel
  obtain ⟨value, found, -⟩ := Outcome.bind_eq_ok.mp accepted
  have found := Wire.lift_eq_ok.mp found
  exact ⟨readOther, readPlain, (alike _ _ _ _ readOther readPlain).mp rfl,
    (derived _ other _).mp readOther, (alikePlain _ _ other plain _ _ readOther readPlain).mp rfl,
    value, found, parsed _ _ found⟩

/-- A filter of a search that stands for the document in its text. -/
def embeddedSpelling : Json :=
  .object [("filters", .array [.object [(Json.embeddedName, .string "\x7b\"or\":[]\x7d")]])]

/-- It is read as the group in the text, although no clause is an object of that name. -/
theorem ofJson_embedded :
    ofJson embeddedSpelling = .ok ⟨[.any []]⟩ ∧
      ¬ ∃ search, Wire.SearchForm Wire.ClauseForm embeddedSpelling search := by
  refine ⟨by with_unfolding_all rfl, ?_⟩
  rintro ⟨search, form⟩
  cases form with
  | object each =>
      cases each with
      | cons first later => cases Wire.readClause_iff.mpr first

end PartnerSearch.Search
