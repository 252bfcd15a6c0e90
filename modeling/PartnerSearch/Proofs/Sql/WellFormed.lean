import PartnerSearch.Proofs.Search.Routing
import PartnerSearch.Proofs.Sql.Spelling

set_option autoImplicit false

/-!
The formulas of compiled predicates are well formed: over a schema of plain names the links of a
path have plain names, and every alias is taken before it is used.
-/

namespace PartnerSearch

open Sql

namespace Sql

instance (text : String) : Decidable (IsPlainName text) :=
  inferInstanceAs (Decidable (_ ∧ _))

end Sql

def Field.IsPlain {size : Nat} : Field size → Prop
  | .scalar _ column _ => IsPlainName column
  | .relation _ _ _ join => IsPlainName join.home ∧ IsPlainName join.remote

instance {size : Nat} (field : Field size) : Decidable field.IsPlain :=
  match field with
  | .scalar _ column _ => inferInstanceAs (Decidable (IsPlainName column))
  | .relation _ _ _ join =>
    inferInstanceAs (Decidable (IsPlainName join.home ∧ IsPlainName join.remote))

/-- Tables and columns are identifiers and none of the keywords of conditions. -/
def Schema.IsPlain (schema : Schema) : Prop :=
  ∀ position, IsPlainName (schema.entity position).table ∧
    ∀ field ∈ (schema.entity position).fields, field.IsPlain

def Hop.IsPlain (hop : Hop) : Prop :=
  IsPlainName hop.table ∧ IsPlainName hop.join.remote ∧ IsPlainName hop.join.home

/-- A walk over a plain schema crosses plain hops. -/
theorem Schema.Walk.plain {schema : Schema} (plain : schema.IsPlain) {start goal : Fin schema.size}
    {hops : List Hop} (walked : schema.Walk start hops goal) : ∀ hop ∈ hops, hop.IsPlain := by
  induction walked with
  | here position => simp
  | @cross position target goal name cardinality join hops declared onward ih =>
      obtain ⟨home, remote⟩ := (plain position).2 _ declared
      exact List.forall_mem_cons.mpr ⟨⟨(plain target).1, remote, home⟩, ih⟩

namespace Sql

namespace Link

theorem scoped_ofFurtherHops (mode : JoinMode) (hops : List Hop) {used : Nat} {taken : List Nat}
    (last : used ∈ taken) (bound : ∀ slot ∈ taken, slot ≤ used) :
    Scoped taken (ofFurtherHops mode used hops) := by
  induction hops generalizing used taken with
  | nil => trivial
  | cons hop rest ih =>
      refine ⟨last, ?_, ih List.mem_cons_self ?_⟩
      · intro before
        have below := bound (used + 1) before
        omega
      · intro slot member
        rcases List.mem_cons.mp member with rfl | member
        · exact Nat.le_refl _
        · exact Nat.le_succ_of_le (bound slot member)

/-- A path starts at the root, and each of its links goes on from the one before. -/
theorem scoped_ofHops (mode : JoinMode) (used : Nat) (hops : List Hop) :
    Scoped [0] (ofHops mode used hops) := by
  cases hops with
  | nil => trivial
  | cons hop rest =>
      refine ⟨List.mem_singleton_self 0, ?_, scoped_ofFurtherHops mode rest List.mem_cons_self ?_⟩
      · simp [ofHop]
      · simp [ofHop]

theorem wellFormed_ofHops (mode : JoinMode) (used : Nat) {hops : List Hop} (crossed : hops ≠ [])
    (plain : ∀ hop ∈ hops, hop.IsPlain) : WellFormed (ofHops mode used hops) where
  some_link := by
    cases hops with
    | nil => exact absurd rfl crossed
    | cons hop rest => exact List.cons_ne_nil _ _
  plain := forall_ofHops (fun hop member _ _ _ => plain hop member) mode used
  inScope := scoped_ofHops mode used hops

theorem slots_ofFurtherHops (mode : JoinMode) (used : Nat) (hops : List Hop) :
    (ofFurtherHops mode used hops).map slot = List.range' (used + 1) hops.length := by
  induction hops generalizing used with
  | nil => rfl
  | cons hop rest ih =>
      rw [ofFurtherHops, List.map_cons, ih, List.length_cons, List.range'_succ]
      rfl

/-- The aliases of a path are the next ones in order. -/
theorem slots_ofHops (mode : JoinMode) (used : Nat) (hops : List Hop) :
    (ofHops mode used hops).map slot = List.range' (used + 1) hops.length := by
  cases hops with
  | nil => rfl
  | cons hop rest =>
      rw [ofHops, List.map_cons, slots_ofFurtherHops, List.length_cons, List.range'_succ]
      rfl

theorem last_mem_slots (mode : JoinMode) (used : Nat) {hops : List Hop} (crossed : hops ≠ []) :
    used + hops.length ∈ (ofHops mode used hops).map slot := by
  have some_hop := List.length_pos_iff.mpr crossed
  rw [slots_ofHops, List.mem_range'_1]
  omega

end Link

namespace Formula

theorem wellFormed_ofColumn (used : Nat) {path : ColumnPath} {condition : Condition}
    (plain : ∀ hop ∈ path.hops, hop.IsPlain) (column : IsPlainName path.column)
    (some_value : condition ≠ .within []) : (ofColumn used path condition).WellFormed := by
  unfold ofColumn
  split
  · exact .test ⟨column, rfl⟩ some_value
  · rename_i crossed
    have proper : path.hops ≠ [] := by simpa using crossed
    have joined := Link.wellFormed_ofHops .optionalObjects used proper plain
    have inside := Link.last_mem_slots .optionalObjects used proper
    dsimp only
    split
    · exact .existsWhere joined column inside some_value
    · exact .test ⟨column, inside, joined⟩ some_value

theorem wellFormed_ofRelation (used : Nat) {path : RelationPath} (wanted : Bool)
    (plain : ∀ hop ∈ path.hops, hop.IsPlain) (crossed : path.hops ≠ []) :
    (ofRelation used path wanted).WellFormed := by
  have joined := Link.wellFormed_ofHops .required used crossed plain
  cases wanted with
  | true => exact .present joined
  | false => exact .absent joined

/-- Compiled predicates over a plain schema have well-formed formulas. -/
theorem wellFormed_ofPredicate {schema : Schema} (plain : schema.IsPlain) {root : Fin schema.size}
    {predicate : Predicate} (routed : predicate.Routed schema root) (used : Nat) :
    (ofPredicate used predicate).WellFormed := by
  induction routed generalizing used with
  | always => exact .always
  | column walked declared few some_value =>
      have column := (plain _).2 _ declared
      exact wellFormed_ofColumn used (walked.plain plain) column some_value
  | related walked crossed => exact wellFormed_ofRelation used _ (walked.plain plain) crossed
  | @group connective items several each ih =>
      rw [ofPredicate]
      apply Formula.WellFormed.group
      · cases items with
        | nil => simp at several
        | cons item rest => exact List.cons_ne_nil _ _
      · exact forall_mem_ofPredicates ih used

end Formula

end Sql

end PartnerSearch
