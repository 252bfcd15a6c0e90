import PartnerSearch.Proofs.Directory.Details
import PartnerSearch.Proofs.Sql.Membership

set_option autoImplicit false

/-!
Attributes as a set. Calls that add attributes change nothing else, and what is there afterwards are the
attributes of before and those that the successful calls ask for. No answer tells in which order they
were added or how often.
-/

namespace PartnerSearch.Directory

open Sql
open Text (bytes trim)

variable {directory middle next one other : Directory}

/-- The directory after calls that add attributes, each given by the id of a partner and a text. -/
def afterAdding (directory : Directory) (calls : List (String × String)) : Directory :=
  directory.afterAll (calls.map fun call => .addAttribute call.1 call.2)

/-- The attribute that a call asks for, unless it is refused. -/
def granted (directory : Directory) (partnerId text : String) : List Attribute :=
  match directory.addAttribute partnerId text with
  | .ok _ => [⟨partnerId, trim text⟩]
  | .error _ => []

/-- The attributes that the successful calls ask for, each call made after those before it. -/
def covered (directory : Directory) : List (String × String) → List Attribute
  | [] => []
  | call :: rest =>
    directory.granted call.1 call.2 ++ (directory.after (.addAttribute call.1 call.2)).covered rest

/-- The next directory has these attributes too, and is the same otherwise. -/
structure Gains (directory : Directory) (entries : List Attribute) (next : Directory) : Prop where
  rest : next = { directory with attributes := next.attributes }
  attributes : ∀ entry, entry ∈ next.attributes ↔ entry ∈ directory.attributes ∨ entry ∈ entries

theorem Gains.refl (directory : Directory) : directory.Gains [] directory where
  rest := rfl
  attributes := by simp

theorem Gains.trans {entries others : List Attribute} (first : directory.Gains entries middle)
    (second : middle.Gains others next) : directory.Gains (entries ++ others) next where
  rest := by
    rw [second.rest, first.rest]
  attributes := by
    intro entry
    rw [second.attributes, first.attributes, List.mem_append, or_assoc]

theorem Adds.gains {partnerId text : String}
    (added : directory.Adds next (.addAttribute partnerId text)) :
    directory.Gains [⟨partnerId, trim text⟩] next := by
  rw [Adds] at added
  split at added
  · rename_i there
    subst added
    refine ⟨rfl, fun entry => ?_⟩
    rw [List.mem_singleton, or_iff_left_of_imp]
    rintro rfl
    exact there
  · subst added
    exact ⟨rfl, fun entry => List.mem_append⟩

theorem gains_after (directory : Directory) (partnerId text : String) :
    directory.Gains (directory.granted partnerId text)
      (directory.after (.addAttribute partnerId text)) := by
  rw [granted]
  cases outcome : directory.addAttribute partnerId text with
  | ok next =>
      have performed : directory.perform (.addAttribute partnerId text) = .ok next := outcome
      rw [after_of_ok performed]
      exact (adds_of_perform performed).gains
  | error fault =>
      have performed : directory.perform (.addAttribute partnerId text) = .error fault := outcome
      rw [after_of_error performed]
      exact .refl directory

theorem gains_afterAdding (directory : Directory) (calls : List (String × String)) :
    directory.Gains (directory.covered calls) (directory.afterAdding calls) := by
  induction calls generalizing directory with
  | nil => exact .refl directory
  | cons call rest ih => exact (directory.gains_after call.1 call.2).trans (ih _)

theorem Reachable.afterAdding (reachable : directory.Reachable) (calls : List (String × String)) :
    (directory.afterAdding calls).Reachable := by
  induction calls generalizing directory with
  | nil => exact reachable
  | cons call rest ih => exact ih (reachable.after _)

/-- The same records, the attributes in whatever order. -/
structure SameRecords (one other : Directory) : Prop where
  contacts : one.contacts = other.contacts
  partners : one.partners = other.partners
  attributes : ∀ entry, entry ∈ one.attributes ↔ entry ∈ other.attributes

theorem Gains.sameRecords {entries others : List Attribute} (first : directory.Gains entries one)
    (second : directory.Gains others other) (same : ∀ entry, entry ∈ entries ↔ entry ∈ others) :
    one.SameRecords other where
  contacts := by rw [first.rest, second.rest]
  partners := by rw [first.rest, second.rest]
  attributes := by
    intro entry
    rw [first.attributes, second.attributes, same]

/-- Two statements have the same result, or the engine refuses both for the same excess. -/
def Alike {α : Type} (result other : Except EngineFault α) : Prop :=
  (∃ answer, result = .ok answer ∧ other = .ok answer) ∨
    ∃ kind, result = .error (.excess kind) ∧ other = .error (.excess kind)

theorem alike_of_eq {α : Type} {result other : Except EngineFault α} (same : result = other)
    (excess : ∀ fault, result = .error fault → ∃ kind, fault = .excess kind) :
    Alike result other := by
  subst same
  cases result with
  | ok answer => exact .inl ⟨answer, rfl, rfl⟩
  | error fault =>
      obtain ⟨kind, rfl⟩ := excess fault rfl
      exact .inr ⟨kind, rfl, rfl⟩

/-- All details, listings and counts of compiled searches are the same. -/
structure AnswersAlike (one other : Directory) : Prop where
  details : ∀ id, ∃ details, one.details? id = .ok details ∧ other.details? id = .ok details
  list : ∀ registry search predicate, Search.compile search registry schema root = .ok predicate →
    ∀ limit offset, Alike (one.list predicate limit offset) (other.list predicate limit offset)
  count : ∀ registry search predicate, Search.compile search registry schema root = .ok predicate →
    Alike (one.count predicate) (other.count predicate)

/-- The formula of a compiled predicate, under any aliases. -/
def IsCompiled (formula : Formula) : Prop :=
  ∃ used predicate, Predicate.Routed schema root predicate ∧
    Formula.ofPredicate used predicate = formula

theorem forall_conjuncts_isCompiled {predicate : Predicate}
    (routed : predicate.Routed schema root) (used : Nat) :
    ∀ formula ∈ (Formula.ofPredicate used predicate).conjuncts, IsCompiled formula := by
  have itself {predicate : Predicate} (routed : predicate.Routed schema root) (used : Nat) :
      ∀ formula ∈ [Formula.ofPredicate used predicate], IsCompiled formula :=
    List.forall_mem_singleton.mpr ⟨used, predicate, routed, rfl⟩
  induction routed generalizing used with
  | always => exact itself .always used
  | column walked declared few some_value =>
      rw [Formula.ofPredicate, Formula.conjuncts_ofColumn]
      exact itself (.column walked declared few some_value) used
  | related walked crossed =>
      rw [Formula.ofPredicate, Formula.conjuncts_ofRelation]
      exact itself (.related walked crossed) used
  | @group connective items several each ih =>
      cases connective with
      | any => exact itself (.group several each) used
      | all =>
          have inner : ∀ item ∈ Formula.ofPredicates used items,
              ∀ formula ∈ item.conjuncts, IsCompiled formula :=
            Formula.forall_mem_ofPredicates ih used
          intro formula member
          rw [Formula.ofPredicate, Formula.conjuncts, Formula.listConjuncts_eq_flatMap,
            List.mem_flatMap] at member
          obtain ⟨item, inside, member⟩ := member
          exact inner item inside formula member

section SameRecords

variable (same : one.SameRecords other)

include same

theorem SameRecords.sameRows : SameRows one.tables other.tables := by
  intro name row
  unfold tables
  cases Table.ofName? name with
  | none => rfl
  | some table =>
      cases table with
      | contacts => simp only [same.contacts]
      | partners => simp only [same.partners]
      | attributes => simp only [List.mem_map, same.attributes]

theorem SameRecords.attributesOf (first : one.WellFormed) (second : other.WellFormed) (id : String) :
    one.attributesOf id = other.attributesOf id := by
  have perm : one.attributes.Perm other.attributes :=
    (List.perm_ext_iff_of_nodup first.pairs second.pairs).mpr same.attributes
  have rearranged : (one.attributesOf id).Perm (other.attributesOf id) :=
    (ordered_perm _ _).trans (((perm.filter _).map _).trans (ordered_perm _ _).symm)
  refine rearranged.eq_of_pairwise ?_ (attributesOf_pairwise first.pairs id)
    (attributesOf_pairwise second.pairs id)
  intro a b _ _ less greater
  exact absurd greater (List.lt_asymm less)

theorem SameRecords.detailsOf (first : one.WellFormed) (second : other.WellFormed)
    (partner : Partner) : one.detailsOf partner = other.detailsOf partner := by
  rw [Directory.detailsOf, Directory.detailsOf, same.attributesOf first second, contactOf, contactOf,
    same.contacts]

section Predicates

variable (first : one.WellFormed) (second : other.WellFormed) {partner : Partner}
  (stored : partner ∈ other.partners)

include first second stored

/-- A compiled predicate asks only which rows there are. -/
theorem SameRecords.holds {predicate : Predicate} (routed : predicate.Routed schema root) :
    predicate.holds one.tables partner.row = predicate.holds other.tables partner.row := by
  have here : partner.row ∈ other.tables (schema.entity root).table := List.mem_map_of_mem stored
  have there : partner.row ∈ one.tables (schema.entity root).table := (same.sameRows _ _).mpr here
  rw [Bool.eq_iff_iff,
    ← Predicate.means_iff_holds (singleObjects ⟨first.contactIds, first.partnerIds⟩) there routed,
    ← Predicate.means_iff_holds (singleObjects ⟨second.contactIds, second.partnerIds⟩) here routed]
  exact predicate.means_congr same.sameRows partner.row

omit first second stored in
theorem SameRecords.isTested (path : ColumnPath) (row : Row) :
    path.isTested one.tables row = path.isTested other.tables row := by
  rw [ColumnPath.isTested, ColumnPath.isTested]
  congr 2
  rw [Bool.eq_iff_iff, List.isEmpty_iff, List.isEmpty_iff, List.eq_nil_iff_forall_not_mem,
    List.eq_nil_iff_forall_not_mem]
  simp only [Hop.mem_reach_congr same.sameRows]

/-- So a partner comes to the same patterns in both. -/
theorem SameRecords.overruns_formula {predicate : Predicate}
    (routed : predicate.Routed schema root) (used : Nat) :
    (Formula.ofPredicate used predicate).overruns one.tables (Scope.ofRoot partner.row) =
      (Formula.ofPredicate used predicate).overruns other.tables (Scope.ofRoot partner.row) := by
  induction routed generalizing used with
  | always => rfl
  | @column path condition goal name walked declared few some_value =>
      simp only [Formula.ofPredicate, Formula.overruns_ofColumn, same.isTested]
  | related walked crossed => simp only [Formula.ofPredicate, Formula.overruns_ofRelation]
  | @group connective items several each ih =>
      rw [Formula.ofPredicate, Formula.overruns, Formula.overruns]
      refine Formula.listOverruns_congr (Formula.forall_mem_ofPredicates ?_ used) connective
      intro item member slots
      refine ⟨ih item member slots, ?_⟩
      rw [Formula.eval_ofPredicate, Formula.eval_ofPredicate]
      exact same.holds first second stored (each item member)

end Predicates

section Selection

variable (first : one.WellFormed) (second : other.WellFormed) {predicate : Predicate}
  (routed : predicate.Routed schema root)

include first second routed

theorem SameRecords.overruns : one.overruns predicate = other.overruns predicate := by
  unfold Directory.overruns
  rw [same.partners, Bool.eq_iff_iff, List.any_eq_true, List.any_eq_true]
  refine exists_congr fun partner => and_congr_right fun stored => ?_
  rw [Formula.listOverruns_congr]
  intro formula member
  obtain ⟨slots, item, routed, rfl⟩ :=
    forall_conjuncts_isCompiled routed 0 formula (Formula.mem_tested.mp member)
  refine ⟨same.overruns_formula first second stored routed slots, ?_⟩
  rw [Formula.eval_ofPredicate, Formula.eval_ofPredicate]
  exact same.holds first second stored routed

theorem SameRecords.selected : one.selected predicate = other.selected predicate := by
  rw [selected_eq_filter, selected_eq_filter, same.partners]
  exact List.filter_congr fun partner stored => same.holds first second stored routed

theorem SameRecords.select : one.select predicate = other.select predicate := by
  rw [Directory.select, Directory.select, same.overruns first second routed,
    same.selected first second routed]

end Selection

theorem SameRecords.answersAlike (first : one.Reachable) (second : other.Reachable) :
    one.AnswersAlike other where
  details := by
    intro id
    have alike : one.detailsOf = other.detailsOf :=
      funext (same.detailsOf first.wellFormed second.wellFormed)
    refine ⟨_, details?_intact first.intact id, ?_⟩
    rw [details?_intact second.intact, alike, same.partners]
  list := by
    intro registry search predicate compiled limit offset
    have selected := same.select first.wellFormed second.wellFormed
      (Search.routed_of_compileWith compiled)
    refine alike_of_eq ?_ fun fault => excess_of_list first.intact
    rw [Directory.list, Directory.list, selected,
      prepare_congr (first.intact.trans second.intact.symm)]
  count := by
    intro registry search predicate compiled
    have selected := same.select first.wellFormed second.wellFormed
      (Search.routed_of_compileWith compiled)
    refine alike_of_eq ?_ fun fault => excess_of_count first.intact
    rw [Directory.count, Directory.count, selected,
      prepare_congr (first.intact.trans second.intact.symm)]

end SameRecords

/-- Attributes behave as a set. Calls whose successful ones ask for the same attributes, in whatever
order and however often, lead to directories of which all answers are the same. Afterwards a partner
has the attributes of before and those that the successful calls ask for, each once and in ascending
order. -/
theorem attributes_as_set (reachable : directory.Reachable) :
    (∀ first second, (∀ entry, entry ∈ directory.covered first ↔ entry ∈ directory.covered second) →
      (directory.afterAdding first).AnswersAlike (directory.afterAdding second)) ∧
    ∀ calls, ∀ partner ∈ directory.partners, ∃ before after : PartnerDetails,
      directory.details? partner.id = .ok (some before) ∧
      (directory.afterAdding calls).details? partner.id = .ok (some after) ∧
      after.partner = before.partner ∧ after.contact = before.contact ∧
      after.attributes.Pairwise (fun a b => bytes a < bytes b) ∧
      ∀ text, text ∈ after.attributes ↔
        text ∈ before.attributes ∨ ⟨partner.id, text⟩ ∈ directory.covered calls := by
  constructor
  · intro first second same
    have records := (directory.gains_afterAdding first).sameRecords
      (directory.gains_afterAdding second) same
    exact records.answersAlike (reachable.afterAdding first) (reachable.afterAdding second)
  · intro calls partner stored
    have gains := directory.gains_afterAdding calls
    have later := reachable.afterAdding calls
    have still : partner ∈ (directory.afterAdding calls).partners := by
      rw [gains.rest]
      exact stored
    refine ⟨_, _, details?_stored reachable.intact reachable.wellFormed.partnerIds stored,
      details?_stored later.intact later.wellFormed.partnerIds still, rfl, ?_,
      attributesOf_pairwise later.wellFormed.pairs partner.id, ?_⟩
    · change (directory.afterAdding calls).contactOf partner = directory.contactOf partner
      rw [gains.rest]
      rfl
    · intro text
      change text ∈ (directory.afterAdding calls).attributesOf partner.id ↔
        text ∈ directory.attributesOf partner.id ∨ _
      rw [mem_attributesOf, mem_attributesOf, gains.attributes]

/-- Calls of which two are refused. -/
def scattered : List (String × String) :=
  [("p1", " silver "), ("p3", "x"), ("p1", "gold"), ("p2", "  ")]

/-- Calls of which one repeats another, with a blank behind the text. -/
def repeated : List (String × String) := [("p1", "gold"), ("p1", "silver"), ("p1", "gold ")]

theorem attributes_as_set_repeated :
    Reachable sample ∧
      sample.covered scattered = [⟨"p1", "silver"⟩, ⟨"p1", "gold"⟩] ∧
      sample.covered repeated = [⟨"p1", "gold"⟩, ⟨"p1", "silver"⟩, ⟨"p1", "gold"⟩] ∧
      (sample.afterAdding scattered).AnswersAlike (sample.afterAdding repeated) := by
  have first : sample.covered scattered = [⟨"p1", "silver"⟩, ⟨"p1", "gold"⟩] := by decide +kernel
  have second : sample.covered repeated =
      [⟨"p1", "gold"⟩, ⟨"p1", "silver"⟩, ⟨"p1", "gold"⟩] := by
    decide +kernel
  have same : ∀ entry, entry ∈ sample.covered scattered ↔ entry ∈ sample.covered repeated := by
    intro entry
    rw [first, second]
    simp only [List.mem_cons, List.not_mem_nil, or_false]
    tauto
  exact ⟨reachable_sample, first, second,
    (attributes_as_set reachable_sample).1 scattered repeated same⟩

end PartnerSearch.Directory
