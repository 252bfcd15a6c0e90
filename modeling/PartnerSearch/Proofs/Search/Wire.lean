import PartnerSearch.Proofs.Json.Expansion
import PartnerSearch.Search.Wire

set_option autoImplicit false

/-!
The JSON form of a search: it is read back as the search, and a search nests at most one level deeper in
it than in any other form that is read as the search.
-/

namespace PartnerSearch

open Json (Textual)

namespace Clause

theorem listToJson_eq_map (clauses : List Clause) : listToJson clauses = clauses.map toJson := by
  induction clauses with
  | nil => rfl
  | cons clause rest ih => rw [listToJson, ih, List.map_cons]

end Clause

namespace Wire

@[simp] theorem lift_eq_ok {α : Type} {result : Except Json.SyntaxFault α} {value : α} :
    lift result = .ok value ↔ result = .ok value := Outcome.mapError_eq_ok

theorem lift_ok {α : Type} (value : α) : lift (.ok value) = .ok value := rfl

theorem readEntry_of_plain {item : Json} (plain : item.IsPlain) : readEntry item = readClause item := by
  rw [readEntry, Json.expand_of_isPlain plain]
  rfl

theorem readClauseItems_eq_mapM (items : List Json) :
    readClauseItems items = items.mapM readClause := by
  induction items with
  | nil => rfl
  | cons item rest ih => rw [readClauseItems, List.mapM_cons, ih]

/-- Where nothing is embedded, the filters of a search are read like the children of a group. -/
theorem readFilters_of_plain {value : Json} (plain : value.IsPlain) :
    readFilters value = readClauses value := by
  cases value with
  | array items =>
      rw [readFilters, readClauses, readClauseItems_eq_mapM]
      exact Outcome.mapM_congr fun item member => readEntry_of_plain (plain.items item member)
  | _ => rfl

theorem readTexts_map_string (texts : List String) :
    readTexts (.array (texts.map .string)) = .ok texts := by
  show (texts.map Json.string).mapM readText = .ok texts
  induction texts with
  | nil => rfl
  | cons text rest ih =>
      rw [List.map_cons, List.mapM_cons, ih]
      rfl

theorem readToken_token (operator : Operator) : readToken operator.token = .ok operator := by
  rw [readToken, Operator.ofToken?_token]

theorem readFilter_toJson (leaf : Filter) :
    readFilter [("member", .string leaf.member), ("operator", .string leaf.operator.token),
      ("values", .array (leaf.values.map .string))] = .ok leaf := by
  have operator : readOperator (.string leaf.operator.token) = .ok leaf.operator :=
    readToken_token leaf.operator
  have values := readTexts_map_string leaf.values
  simp [readFilter, readFilterMembers, readFilterMember, fill, readText, operator, values, required,
    bind, Except.bind, pure, Except.pure, Except.map]

theorem readClauseItems_map_toJson {clauses : List Clause}
    (read : ∀ clause ∈ clauses, readClause clause.toJson = .ok clause) :
    readClauseItems (clauses.map Clause.toJson) = .ok clauses := by
  induction clauses with
  | nil => rfl
  | cons clause rest ih =>
      rw [List.map_cons, readClauseItems, read clause List.mem_cons_self,
        ih fun other member => read other (List.mem_cons_of_mem _ member)]
      rfl

/-- A group of one name is read as its children. -/
theorem readGroup_single (name : String) (value : Json) :
    readGroup name none [(name, value)] = readClauses value := by
  rw [readGroup]
  simp only [ne_eq, not_true_eq_false, if_false, Option.isSome_none, Bool.false_eq_true]
  cases readClauses value <;> rfl

theorem readClause_toJson (clause : Clause) : readClause clause.toJson = .ok clause := by
  induction clause with
  | filter leaf =>
      show (readFilter _).map Clause.filter = _
      rw [readFilter_toJson]
      rfl
  | any children ih =>
      have read := readClauseItems_map_toJson ih
      rw [← Clause.listToJson_eq_map] at read
      show (readGroup "or" none [("or", .array (Clause.listToJson children))]).map Clause.any = _
      rw [readGroup_single, readClauses, read]
      rfl
  | all children ih =>
      have read := readClauseItems_map_toJson ih
      rw [← Clause.listToJson_eq_map] at read
      show (readGroup "and" none [("and", .array (Clause.listToJson children))]).map Clause.all = _
      rw [readGroup_single, readClauses, read]
      rfl

theorem readGroup_eq_ok {name : String} {members : List (String × Json)} {children : List Clause} :
    readGroup name none members = .ok children ↔
      ∃ value, members = [(name, value)] ∧ readClauses value = .ok children := by
  constructor
  · intro read
    cases members with
    | nil => cases read
    | cons member rest =>
        obtain ⟨other, value⟩ := member
        rw [readGroup] at read
        by_cases same : other = name
        · subst same
          simp only [ne_eq, not_true_eq_false, if_false, Option.isSome_none, Bool.false_eq_true]
            at read
          obtain ⟨found, first, onward⟩ := Outcome.bind_eq_ok.mp read
          cases rest with
          | nil =>
              cases onward
              exact ⟨value, rfl, first⟩
          | cons next rest =>
              rw [readGroup] at onward
              split at onward
              · cases onward
              · simp at onward
        · rw [if_pos same] at read
          cases read
  · intro single
    obtain ⟨value, rfl, read⟩ := single
    rw [readGroup_single, read]

theorem readClauseItems_eq_ok {items : List Json} {clauses : List Clause} :
    readClauseItems items = .ok clauses ↔
      List.Forall₂ (fun item clause => readClause item = .ok clause) items clauses := by
  rw [readClauseItems_eq_mapM, Outcome.mapM_eq_ok]

theorem readClauses_eq_ok {value : Json} {clauses : List Clause} :
    readClauses value = .ok clauses ↔
      ∃ items, value = .array items ∧ readClauseItems items = .ok clauses := by
  cases value <;> simp [readClauses, wrongType]

/-- Each clause of a list is read from a value in the list. -/
theorem exists_of_readClauses {inside : Json} {clauses : List Clause}
    (read : readClauses inside = .ok clauses) {clause : Clause} (member : clause ∈ clauses) :
    ∃ value, readClause value = .ok clause ∧ value.depth + 1 ≤ inside.depth := by
  obtain ⟨items, rfl, found⟩ := readClauses_eq_ok.mp read
  have pairs := readClauseItems_eq_ok.mp found
  have item : ∃ value ∈ items, readClause value = .ok clause := by
    clear read found
    induction pairs with
    | nil => cases member
    | cons first later ih =>
        rcases List.mem_cons.mp member with rfl | among
        · exact ⟨_, List.mem_cons_self, first⟩
        · obtain ⟨value, there, same⟩ := ih among
          exact ⟨value, List.mem_cons_of_mem _ there, same⟩
  obtain ⟨value, there, same⟩ := item
  refine ⟨value, same, ?_⟩
  have deepest := Json.listDepth_le_iff.mp (Nat.le_refl _) value there
  rw [Json.depth]
  omega

/-- A clause is read from an object; a group is under the only name there. -/
theorem object_of_readClause {value : Json} {clause : Clause} (read : readClause value = .ok clause) :
    ∃ members, value = .object members ∧
      ((∃ leaf, clause = .filter leaf) ∨
        ∃ name inside children, (clause = .any children ∨ clause = .all children) ∧
          members = [(name, inside)] ∧ readClauses inside = .ok children) := by
  cases value with
  | object members =>
      refine ⟨members, rfl, ?_⟩
      rw [readClause] at read
      split at read
      · obtain ⟨leaf, -, rfl⟩ := Outcome.map_eq_ok.mp read
        exact .inl ⟨leaf, rfl⟩
      split at read
      · obtain ⟨children, group, rfl⟩ := Outcome.map_eq_ok.mp read
        obtain ⟨inside, single, found⟩ := readGroup_eq_ok.mp group
        exact .inr ⟨"or", inside, children, .inl rfl, single, found⟩
      split at read
      · obtain ⟨children, group, rfl⟩ := Outcome.map_eq_ok.mp read
        obtain ⟨inside, single, found⟩ := readGroup_eq_ok.mp group
        exact .inr ⟨"and", inside, children, .inr rfl, single, found⟩
      · cases read
  | _ => cases read

theorem group_of_readClause {value : Json} {children : List Clause}
    (read : readClause value = .ok (.any children) ∨ readClause value = .ok (.all children)) :
    ∃ name inside, value = .object [(name, inside)] ∧ readClauses inside = .ok children := by
  rcases read with read | read <;>
    obtain ⟨members, rfl, ⟨leaf, impossible⟩ | ⟨name, inside, found, same, rfl, group⟩⟩ :=
      object_of_readClause read
  · cases impossible
  · rcases same with same | same <;> cases same
    exact ⟨name, inside, rfl, group⟩
  · cases impossible
  · rcases same with same | same <;> cases same
    exact ⟨name, inside, rfl, group⟩

end Wire

theorem Json.textual_single {name : String} {value : Json} (ordinary : name ≠ embeddedName)
    (inside : Textual value) : Textual (.object [(name, value)]) := by
  refine .object ?_ (by simp) ?_
  · intro member within
    rw [List.mem_singleton.mp within]
    exact inside
  · intro member first
    cases first
    exact ordinary

namespace Clause

theorem textual_listToJson {clauses : List Clause}
    (textual : ∀ clause ∈ clauses, Textual clause.toJson) :
    Textual (.array (listToJson clauses)) := by
  refine .array fun item member => ?_
  rw [listToJson_eq_map] at member
  obtain ⟨clause, within, rfl⟩ := List.mem_map.mp member
  exact textual clause within

theorem textual_toJson (clause : Clause) : Textual clause.toJson := by
  induction clause with
  | filter leaf =>
      have values : Textual (.array (leaf.values.map .string)) := by
        refine .array fun item member => ?_
        obtain ⟨text, -, rfl⟩ := List.mem_map.mp member
        exact .string text
      refine .object ?_ (by simp) (by simp [Json.embeddedName])
      simp [values, Textual.string]
  | any children ih => exact Json.textual_single (by decide) (textual_listToJson ih)
  | all children ih => exact Json.textual_single (by decide) (textual_listToJson ih)

theorem isPlain_listToJson (clauses : List Clause) : (Json.array (listToJson clauses)).IsPlain :=
  Json.isPlain_of_textual (textual_listToJson fun clause _ => textual_toJson clause)

theorem depth_filter (leaf : Filter) : (toJson (.filter leaf)).depth = 2 := by
  have values : Json.listDepth (leaf.values.map .string) = 0 := by
    apply Nat.le_zero.mp
    rw [Json.listDepth_le_iff]
    intro item member
    obtain ⟨text, -, rfl⟩ := List.mem_map.mp member
    exact Nat.le_refl 0
  simp [toJson, Filter.toJson, Json.depth, Json.membersDepth, values]

theorem depth_any (children : List Clause) :
    (toJson (.any children)).depth = Json.listDepth (listToJson children) + 2 := by
  simp [toJson, Json.depth, Json.membersDepth]

theorem depth_all (children : List Clause) :
    (toJson (.all children)).depth = Json.listDepth (listToJson children) + 2 := by
  simp [toJson, Json.depth, Json.membersDepth]

/-- Clauses nest at most one level deeper than the list they are read from, if each of them does. -/
theorem listDepth_lt_of_readClauses {inside : Json} {clauses : List Clause}
    (bound : ∀ clause ∈ clauses, ∀ {value}, Wire.readClause value = .ok clause →
      clause.toJson.depth ≤ value.depth + 1)
    (read : Wire.readClauses inside = .ok clauses) :
    Json.listDepth (listToJson clauses) ≤ inside.depth := by
  rw [listToJson_eq_map, Json.listDepth_le_iff, List.forall_mem_map]
  intro clause member
  obtain ⟨value, found, below⟩ := Wire.exists_of_readClauses read member
  exact Nat.le_trans (bound clause member found) below

theorem depth_group_le {children : List Clause} {value : Json}
    (bound : ∀ child ∈ children, ∀ {value}, Wire.readClause value = .ok child →
      child.toJson.depth ≤ value.depth + 1)
    (read : Wire.readClause value = .ok (.any children) ∨
      Wire.readClause value = .ok (.all children)) :
    Json.listDepth (listToJson children) + 2 ≤ value.depth + 1 := by
  obtain ⟨name, inside, rfl, found⟩ := Wire.group_of_readClause read
  have below := listDepth_lt_of_readClauses bound found
  simp only [Json.depth, Json.membersDepth]
  omega

/-- A filter may leave out its values; it is one level deeper when they are written. -/
theorem depth_le_of_readClause {clause : Clause} {value : Json}
    (read : Wire.readClause value = .ok clause) : clause.toJson.depth ≤ value.depth + 1 := by
  induction clause generalizing value with
  | filter leaf =>
      obtain ⟨members, rfl, -⟩ := Wire.object_of_readClause read
      rw [depth_filter, Json.depth]
      omega
  | any children ih =>
      rw [depth_any]
      exact depth_group_le ih (.inl read)
  | all children ih =>
      rw [depth_all]
      exact depth_group_le ih (.inr read)

end Clause

namespace Wire

/-- After the filters nothing may follow. -/
theorem readSearchMembers_some_eq_ok {clauses : List Clause} {members : List (String × Json)}
    {search : Search} :
    readSearchMembers (some clauses) members = .ok search ↔ members = [] ∧ search = ⟨clauses⟩ := by
  cases members with
  | nil =>
      rw [readSearchMembers, Except.ok.injEq]
      exact ⟨fun same => ⟨rfl, same.symm⟩, fun same => same.2.symm⟩
  | cons member rest =>
      obtain ⟨name, value⟩ := member
      rw [readSearchMembers]
      by_cases filters : name = "filters" <;> simp [filters]

/-- A search without its envelope: no filters at all, or the filters that stand in an object under their
name or in a list of their own. -/
theorem filters_of_readSearch {value : Json} {search : Search}
    (plain : value.IsPlain) (read : readSearch value = .ok search) :
    search = .empty ∧ 1 ≤ value.depth ∨
      ∃ inside, readClauses inside = .ok search.filters ∧ inside.depth + 1 ≤ value.depth := by
  cases value with
  | object members =>
      cases members with
      | nil =>
          cases read
          exact .inl ⟨rfl, Nat.le_refl 1⟩
      | cons member rest =>
          obtain ⟨name, inside⟩ := member
          change readSearchMembers none ((name, inside) :: rest) = .ok search at read
          rw [readSearchMembers] at read
          split at read
          · cases read
          · simp only [Option.isSome_none, Bool.false_eq_true, if_false] at read
            obtain ⟨clauses, found, onward⟩ := Outcome.bind_eq_ok.mp read
            obtain ⟨-, rfl⟩ := readSearchMembers_some_eq_ok.mp onward
            rw [readFilters_of_plain (plain.members _ List.mem_cons_self)] at found
            refine .inr ⟨inside, found, ?_⟩
            simp only [Json.depth, Json.membersDepth]
            omega
  | array items =>
      cases items with
      | nil =>
          cases read
          exact .inl ⟨rfl, Nat.le_refl 1⟩
      | cons item rest =>
          obtain ⟨clauses, found, onward⟩ := Outcome.bind_eq_ok.mp read
          rw [readFilters_of_plain (plain.items _ List.mem_cons_self)] at found
          split at onward
          · cases onward
            refine .inr ⟨item, found, ?_⟩
            simp only [Json.depth, Json.listDepth]
            omega
          · cases onward
  | _ => cases read

end Wire

/-- A search as a value is read back as the search. -/
theorem Search.ofJson_toJson (search : Search) : ofJson search.toJson = .ok search := by
  have read := Wire.readClauseItems_map_toJson fun clause (_ : clause ∈ search.filters) =>
    Wire.readClause_toJson clause
  rw [← Clause.listToJson_eq_map] at read
  show Wire.readSearchMembers none [("filters", .array (Clause.listToJson search.filters))] = _
  simp [Wire.readSearchMembers, Wire.readFilters_of_plain (Clause.isPlain_listToJson search.filters),
    Wire.readClauses, read, bind, Except.bind]

theorem Search.depth_toJson (search : Search) :
    search.toJson.depth = Json.listDepth (Clause.listToJson search.filters) + 2 := by
  simp [toJson, Json.depth, Json.membersDepth]

/-- A search nests at most one level deeper in the form that is written than in any other form. -/
theorem Search.depth_le_of_ofJson {search : Search} {value : Json} (plain : value.IsPlain)
    (read : Search.ofJson value = .ok search) : search.toJson.depth ≤ value.depth + 1 := by
  rcases Wire.filters_of_readSearch plain read with ⟨rfl, positive⟩ | ⟨inside, found, below⟩
  · rw [depth_toJson]
    simp only [empty, Clause.listToJson, Json.listDepth]
    omega
  · have bound := Clause.listDepth_lt_of_readClauses
      (fun clause _ {value} => Clause.depth_le_of_readClause) found
    rw [depth_toJson]
    omega

end PartnerSearch
