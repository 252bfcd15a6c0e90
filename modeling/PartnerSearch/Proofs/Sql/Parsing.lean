import Mathlib.Data.List.Forall2
import PartnerSearch.Proofs.Sql.Grammar
import PartnerSearch.Proofs.Sql.Spelling

set_option autoImplicit false

/-!
How the tokens of a formula are read. Whatever follows, each formula is a unit that neither AND nor
OR takes apart, and the test that is read has its truth.
-/

namespace PartnerSearch.Sql

/-- The tokens do not go on with one of the keywords. -/
def Stops (keywords : List Keyword) (following : List Token) : Prop :=
  ∀ keyword ∈ keywords, following.head? ≠ some (.keyword keyword)

/-- The reader takes the tokens for the test, whatever follows but the keywords. -/
def Takes (reader : Reader Test) (stops : List Keyword) (tokens : List Token) (test : Test) :
    Prop :=
  ∀ following, Stops stops following → reader (tokens ++ following) = some (test, following)

def Test.chain (join : Test → Test → Test) : Test → List Test → Test
  | first, [] => first
  | first, next :: rest => join first (chain join next rest)

section Chains

variable {keyword : Keyword} {join : Test → Test → Test} {item : Reader Test}

theorem readChain_last {fuel : Nat} {tokens following : List Token} {test : Test}
    (read : item tokens = some (test, following)) (stops : Stops [keyword] following) :
    readChain keyword join item (fuel + 1) tokens = some (test, following) := by
  rw [readChain, read]
  have other := stops keyword (List.mem_singleton_self keyword)
  simp only [Option.bind_eq_bind, Option.bind_some]
  split
  · rename_i next rest
    rw [if_neg fun same => other (by rw [same]; rfl)]
    rfl
  · rfl

theorem readChain_cons {fuel : Nat} {tokens more following : List Token} {test others : Test}
    (read : item tokens = some (test, .keyword keyword :: more))
    (later : readChain keyword join item fuel more = some (others, following)) :
    readChain keyword join item (fuel + 1) tokens = some (join test others, following) := by
  rw [readChain, read]
  simp only [Option.bind_eq_bind, Option.bind_some, if_true, later]
  rfl

theorem stops_keyword {stops : List Keyword} (apart : keyword ∉ stops) (more : List Token) :
    Stops stops (.keyword keyword :: more) := by
  intro other member same
  cases same
  exact apart member

/-- Units with the keyword between them are read as a chain. -/
theorem readChain_intercalate {stops : List Keyword} (apart : keyword ∉ stops) {tokens : List Token}
    {units : List (List Token)} {test : Test} {tests : List Test}
    (first : Takes item stops tokens test) (rest : List.Forall₂ (Takes item stops) units tests)
    {fuel : Nat} (enough : units.length < fuel) {following : List Token}
    (ends : Stops (keyword :: stops) following) :
    readChain keyword join item fuel
        ([.keyword keyword].intercalate (tokens :: units) ++ following) =
      some (Test.chain join test tests, following) := by
  induction rest generalizing tokens test fuel with
  | nil =>
      obtain ⟨fuel, rfl⟩ := Nat.exists_eq_add_of_lt enough
      rw [List.intercalate_singleton]
      apply readChain_last
      · exact first following fun other member => ends other (List.mem_cons_of_mem keyword member)
      · intro other member
        rw [List.mem_singleton.mp member]
        exact ends keyword List.mem_cons_self
  | @cons next follower units tests second others ih =>
      obtain ⟨fuel, rfl⟩ : ∃ less, fuel = less + 1 := ⟨fuel - 1, by omega⟩
      have less : units.length < fuel := by simpa using enough
      have later := ih second less
      rw [List.intercalate_cons_cons, List.append_assoc, List.append_assoc]
      exact readChain_cons (first _ (stops_keyword apart _)) later

/-- There is room for the chain in its own tokens. -/
theorem length_le_intercalate (between : List Token) (units : List (List Token))
    (proper : ∀ tokens ∈ units, tokens ≠ []) :
    units.length ≤ (between.intercalate units).length := by
  match units with
  | [] => exact Nat.zero_le _
  | [tokens] =>
      rw [List.intercalate_singleton]
      exact List.length_pos_iff.mpr (proper tokens List.mem_cons_self)
  | tokens :: next :: rest =>
      have first := List.length_pos_iff.mpr (proper tokens List.mem_cons_self)
      have later := length_le_intercalate between (next :: rest)
        fun other member => proper other (List.mem_cons_of_mem tokens member)
      rw [List.intercalate_cons_cons, List.length_append, List.length_append]
      simp only [List.length_cons] at later ⊢
      omega

theorem readAll_intercalate (keyword : Keyword) (join : Test → Test → Test)
    {stops : List Keyword} (apart : keyword ∉ stops) {tokens : List Token}
    {units : List (List Token)} {test : Test} {tests : List Test}
    (first : Takes item stops tokens test) (rest : List.Forall₂ (Takes item stops) units tests)
    (proper : ∀ unit ∈ tokens :: units, unit ≠ []) :
    Takes (readAll keyword join item) (keyword :: stops)
      ([.keyword keyword].intercalate (tokens :: units)) (Test.chain join test tests) := by
  intro following ends
  have room := length_le_intercalate [.keyword keyword] (tokens :: units) proper
  rw [List.length_cons] at room
  have enough : units.length <
      ([.keyword keyword].intercalate (tokens :: units) ++ following).length := by
    rw [List.length_append]
    omega
  exact readChain_intercalate apart first rest enough ends

/-- A single unit is a chain. -/
theorem readAll_single {stops : List Keyword} (apart : keyword ∉ stops) {tokens : List Token}
    {test : Test} (unit : Takes item stops tokens test) (proper : tokens ≠ []) :
    Takes (readAll keyword join item) (keyword :: stops) tokens test := by
  have chain := readAll_intercalate keyword join apart unit .nil (by simpa using proper)
  rw [List.intercalate_singleton] at chain
  exact chain

end Chains

def connectiveTest : Connective → Test → Test → Test
  | .all => .and
  | .any => .or

theorem Takes.ne_nil {reader : Reader Test} {tokens : List Token} {test : Test}
    (takes : Takes (readUnit reader) [] tokens test) : tokens ≠ [] := by
  rintro rfl
  have nothing := takes [] (by simp [Stops])
  cases nothing

section Groups

variable {depth : Nat} {tokens : List Token} {test : Test}

/-- Units joined by one connective are read as a condition, in parentheses or not. -/
theorem readTest_intercalate (connective : Connective) {units : List (List Token)}
    {tests : List Test} (first : Takes (readUnit (readTest depth)) [] tokens test)
    (rest : List.Forall₂ (Takes (readUnit (readTest depth)) []) units tests) :
    Takes (readTest (depth + 1)) [.OR, .AND]
      ([.keyword (connectiveKeyword connective)].intercalate (tokens :: units))
      (Test.chain (connectiveTest connective) test tests) := by
  have proper : ∀ unit ∈ tokens :: units, unit ≠ [] := by
    rw [List.forall_mem_cons]
    refine ⟨first.ne_nil, ?_⟩
    induction rest with
    | nil => simp
    | cons next others ih => exact List.forall_mem_cons.mpr ⟨next.ne_nil, ih⟩
  cases connective with
  | all =>
      have chain := readAll_intercalate .AND .and (by simp) first rest proper
      apply readAll_single (by simp) chain
      have room := length_le_intercalate [.keyword .AND] (tokens :: units) proper
      rw [← List.length_pos_iff]
      exact Nat.lt_of_lt_of_le (Nat.succ_pos _) room
  | any =>
      have single {tokens : List Token} {test : Test}
          (unit : Takes (readUnit (readTest depth)) [] tokens test) :
          Takes (readAll .AND .and (readUnit (readTest depth))) [.AND] tokens test :=
        readAll_single (by simp) unit unit.ne_nil
      exact readAll_intercalate .OR .or (by simp) (single first) (rest.imp fun _ _ => single) proper

theorem readTest_unit (unit : Takes (readUnit (readTest depth)) [] tokens test) :
    Takes (readTest (depth + 1)) [.OR, .AND] tokens test := by
  have group := readTest_intercalate .all unit .nil
  rw [List.intercalate_singleton] at group
  exact group

theorem readTest_and {more : List Token} {other : Test}
    (unit : Takes (readUnit (readTest depth)) [] tokens test)
    (further : Takes (readUnit (readTest depth)) [] more other) :
    Takes (readTest (depth + 1)) [.OR, .AND] (tokens ++ [.keyword .AND] ++ more)
      (.and test other) := by
  have group := readTest_intercalate .all unit (.cons further .nil)
  rw [List.intercalate_cons_cons, List.intercalate_singleton] at group
  exact group

end Groups

end PartnerSearch.Sql
