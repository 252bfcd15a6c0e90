import PartnerSearch.Proofs.Directory.Details
import PartnerSearch.Proofs.Schema.Composition
import PartnerSearch.Proofs.Search.Refusal

set_option autoImplicit false

/-!
The reference from an attribute back to its partner. A path that goes over the attributes of a partner
and back again leads to the same partner, once for each attribute; so a filter behind it selects the
partners with an attribute that the filter selects by itself.
-/

namespace PartnerSearch

open Sql

/-- The name of the member stands in refusals only. -/
theorem Filter.checkValueCount_renamed {member : String} {operator : Operator} {values : List String}
    (counted : (Filter.mk member operator values).checkValueCount = .ok ()) (other : String) :
    (Filter.mk other operator values).checkValueCount = .ok () := by
  rw [checkValueCount_eq_ok] at counted ⊢
  exact counted

namespace Strategy

variable {strategy : Strategy} {member : String}

theorem convert_renamed {raw : String} {value : Value}
    (converted : strategy.convert member raw = .ok value) (other : String) :
    strategy.convert other raw = .ok value := by
  unfold convert at converted ⊢
  split at converted
  · exact converted
  · cases converted
  · exact converted

theorem condition_renamed {operator : Operator} {values : List String} {condition : Condition}
    (imposed : strategy.condition ⟨member, operator, values⟩ = .ok condition) (other : String) :
    strategy.condition ⟨other, operator, values⟩ = .ok condition := by
  have compared {comparison : Comparison}
      (imposed : strategy.compareFirst member comparison (values.headD "") = .ok condition) :
      strategy.compareFirst other comparison (values.headD "") = .ok condition := by
    obtain ⟨value, converted, rfl⟩ := Outcome.map_eq_ok.mp imposed
    exact Outcome.map_eq_ok.mpr ⟨value, convert_renamed converted other, rfl⟩
  cases operator with
  | set => exact imposed
  | notSet => exact imposed
  | contains => exact imposed
  | within =>
      obtain ⟨results, converted, rfl⟩ := Outcome.map_eq_ok.mp imposed
      have each := (Outcome.mapM_eq_ok.mp converted).imp
        fun _ _ converted => convert_renamed converted other
      exact Outcome.map_eq_ok.mpr ⟨results, Outcome.mapM_eq_ok.mpr each, rfl⟩
  | between =>
      obtain ⟨low, convertedLow, rest⟩ := Outcome.bind_eq_ok.mp imposed
      obtain ⟨high, convertedHigh, built⟩ := Outcome.bind_eq_ok.mp rest
      refine Outcome.bind_eq_ok.mpr ⟨low, convert_renamed convertedLow other, ?_⟩
      exact Outcome.bind_eq_ok.mpr ⟨high, convert_renamed convertedHigh other, built⟩
  | equals => exact compared imposed
  | notEquals => exact compared imposed
  | greater => exact compared imposed
  | greaterOrEqual => exact compared imposed
  | less => exact compared imposed
  | lessOrEqual => exact compared imposed

end Strategy

namespace Directory

variable {directory : Directory} {partner : Partner}

def partnerHop : Hop := ⟨"partner", Table.partners.name, ⟨"partner_id", "id"⟩, .one⟩

/-- The relations over the attributes and back. -/
def backHops : List Hop := [attributesHop, partnerHop]

theorem one_of_object {hop : Hop} (object : hop.isMany = false) : hop.cardinality = .one := by
  cases cardinality : hop.cardinality with
  | one => rfl
  | many => simp [Hop.isMany, cardinality] at object

theorem hops_of_contact {position goal : Fin schema.size} (here : position = contactPosition)
    {hops : List Hop} (leads : schema.Leads position hops goal)
    (objects : ∀ hop ∈ hops, hop.isMany = false) : hops = [] := by
  cases leads with
  | here => rfl
  | cross denoted onward =>
      obtain rfl := one_of_object (List.forall_mem_cons.mp objects).1
      rw [here] at denoted
      exact absurd (Entity.mem_of_field? denoted) no_object_of_contact

/-- Over objects alone a path from a partner leads to its contact at most. -/
theorem length_hops_le {hops : List Hop} {goal : Fin schema.size}
    (leads : schema.Leads root hops goal) (objects : ∀ hop ∈ hops, hop.isMany = false) :
    hops.length ≤ 1 := by
  cases leads with
  | here => exact Nat.zero_le 1
  | cross denoted onward =>
      obtain ⟨object, further⟩ := List.forall_mem_cons.mp objects
      obtain rfl := one_of_object object
      obtain ⟨-, contact, -⟩ := object_of_partner (Entity.mem_of_field? denoted)
      rw [hops_of_contact contact onward further]
      exact Nat.le_refl 1

theorem leads_back : schema.Leads root backHops root :=
  @Schema.Leads.cross schema root attributePosition root "attributes" .many ⟨"id", "partner_id"⟩
    [partnerHop] rfl
    (@Schema.Leads.cross schema attributePosition root root "partner" .one ⟨"partner_id", "id"⟩ []
      rfl (.here root))

theorem resolve_back {member : String} {path : ColumnPath}
    (resolved : resolve schema root member = .ok (.column path))
    (direct : path.isQuantified = false) :
    resolve schema root ("attributes.partner." ++ member) =
      .ok (.column ⟨"attributes.partner." ++ member, backHops ++ path.hops, path.column,
        path.type⟩) := by
  have cut : Path.Cut "attributes.partner" (backHops.map Hop.field) :=
    ⟨by decide, by decide, by decide, by decide⟩
  have spelled : "attributes.partner." = "attributes.partner" ++ "." := by decide
  have objects : ∀ hop ∈ path.hops, hop.isMany = false := by
    simpa [ColumnPath.isQuantified] using direct
  obtain ⟨goal, crossed⟩ := Path.leads_of_resolve_column resolved
  have few : (backHops ++ path.hops).length < Path.segmentLimit := by
    have short := length_hops_le crossed objects
    rw [List.length_append]
    exact Nat.lt_of_le_of_lt (Nat.add_le_add_left short _) (by decide)
  have single : (backHops ++ path.hops).countP Hop.isMany ≤ 1 := by
    have none_many : path.hops.countP Hop.isMany = 0 := by simpa using objects
    rw [List.countP_append, none_many]
    decide
  rw [spelled]
  exact Path.resolve_append cut leads_back resolved few single

/-- The attributes of a partner. -/
def entriesOf (directory : Directory) (partner : Partner) : List Attribute :=
  directory.attributes.filter fun entry => entry.partnerId == partner.id

theorem related_partner (unique : (directory.partners.map Partner.id).Nodup)
    (stored : partner ∈ directory.partners) {entry : Attribute} (own : entry.partnerId = partner.id) :
    partnerHop.related directory.tables entry.row = [partner.row] := by
  have ids (other : Partner) : other.row "id" = .text other.id := rfl
  change (directory.partners.map Partner.row).filter
    (fun other => ((other "id").equal (.text entry.partnerId)).holds) = _
  rw [filter_equal_text Partner.row Partner.id ids, filter_key_eq_toList unique, own,
    find?_partner unique stored]
  rfl

/-- Every attribute of a partner leads back to it. -/
theorem reach_back (unique : (directory.partners.map Partner.id).Nodup)
    (stored : partner ∈ directory.partners) (mode : JoinMode) (hops : List Hop) :
    Hop.reach directory.tables mode (backHops ++ hops) partner.row =
      (directory.entriesOf partner).flatMap fun _ =>
        Hop.reachFurther directory.tables mode hops partner.row := by
  change (attributesHop.related directory.tables partner.row).flatMap _ = _
  rw [related_attributes, List.flatMap_map]
  refine List.flatMap_congr fun entry member => ?_
  have own : entry.partnerId = partner.id := beq_iff_eq.mp (List.mem_filter.mp member).2
  have joined (kind : JoinKind) :
      partnerHop.joined directory.tables kind entry.row = [partner.row] := by
    have related := related_partner unique stored own
    cases kind with
    | inner => exact related
    | left =>
        rw [Hop.joined, related]
        rfl
  change (partnerHop.joined directory.tables (mode.kind .one) entry.row).flatMap _ = _
  rw [joined, List.flatMap_singleton]
  rfl

/-- Behind the way back, a condition on an element is the condition on the partner, if there is an
element. -/
theorem holds_back (wellFormed : directory.WellFormed) (stored : partner ∈ directory.partners)
    {member : String} {path : ColumnPath}
    (resolved : resolve schema root member = .ok (.column path))
    (direct : path.isQuantified = false) (condition : Condition) :
    (ColumnPath.truth directory.tables partner.row
        ⟨"attributes.partner." ++ member, backHops ++ path.hops, path.column, path.type⟩
        condition).holds = true ↔
      directory.entriesOf partner ≠ [] ∧
        (path.truth directory.tables partner.row condition).holds = true := by
  have objects : ∀ hop ∈ path.hops, hop.isMany = false := by
    simpa [ColumnPath.isQuantified] using direct
  have single := singleObjects ⟨wellFormed.contactIds, wellFormed.partnerIds⟩
  have here : partner.row ∈ directory.tables (schema.entity root).table :=
    List.mem_map_of_mem stored
  obtain ⟨goal, name, walked, -⟩ := walk_of_resolve_column resolved
  obtain ⟨arrival, -, reached⟩ := arrives_of_objects single objects walked here
  have quantified : ColumnPath.isQuantified
      ⟨"attributes.partner." ++ member, backHops ++ path.hops, path.column, path.type⟩ = true := rfl
  rw [path.truth_of_direct direct, ColumnPath.reading, Hop.read_reach objects reached,
    ColumnPath.truth, quantified, if_pos rfl, Truth.holds_some,
    reach_back wellFormed.partnerIds stored, reached, List.any_eq_true]
  simp only [List.mem_flatMap, List.mem_singleton]
  constructor
  · intro found
    obtain ⟨element, ⟨entry, member, rfl⟩, satisfied⟩ := found
    exact ⟨List.ne_nil_of_mem member, satisfied⟩
  · intro both
    obtain ⟨some_entry, satisfied⟩ := both
    obtain ⟨entry, member⟩ := List.exists_mem_of_ne_nil _ some_entry
    exact ⟨_, ⟨entry, member, rfl⟩, satisfied⟩

/-- The partners with an attribute. -/
def havingAttributes (directory : Directory) : Set Partner :=
  {partner ∈ directory.everyPartner | ∃ entry ∈ directory.attributes, entry.partnerId = partner.id}

theorem mem_havingAttributes :
    partner ∈ directory.havingAttributes ↔
      partner ∈ directory.everyPartner ∧ directory.entriesOf partner ≠ [] := by
  rw [entriesOf, ne_eq, List.filter_eq_nil_iff]
  simp [havingAttributes]

theorem compile_back {member : String} {path : ColumnPath} {operator : Operator}
    {values : List String} (resolved : resolve schema root member = .ok (.column path))
    (direct : path.isQuantified = false) (condition : Condition) :
    (test ("attributes.partner." ++ member) operator values).compile registry schema root =
        .ok (.column ⟨"attributes.partner." ++ member, backHops ++ path.hops, path.column,
          path.type⟩ condition) ↔
      (test member operator values).compile registry schema root = .ok (.column path condition) := by
  obtain ⟨strategy, registered⟩ := exists_strategy resolved
  rw [compile_test (resolve_back resolved direct) registered, compile_test resolved registered]
  constructor
  · intro steps
    obtain ⟨supported, counted, imposed, conditioned, same⟩ := steps
    cases same
    exact ⟨supported, Filter.checkValueCount_renamed counted member, condition,
      Strategy.condition_renamed conditioned member, rfl⟩
  · intro steps
    obtain ⟨supported, counted, imposed, conditioned, same⟩ := steps
    cases same
    exact ⟨supported, Filter.checkValueCount_renamed counted _, condition,
      Strategy.condition_renamed conditioned _, rfl⟩

theorem mem_listed {clause : Clause} :
    partner ∈ directory.listed clause ↔
      ∃ predicate, clause.compile registry schema root = .ok predicate ∧
        directory.Executes predicate ∧
        partner ∈ directory.everyPartner ∧ predicate.holds directory.tables partner.row = true := by
  constructor
  · intro listed
    obtain ⟨predicate, found, compiled, answered, -⟩ := id listed
    have executes : directory.Executes predicate := ⟨found, answered⟩
    exact ⟨predicate, (compile_only clause).symm.trans compiled, executes,
      (mem_rows compiled executes partner).mp listed⟩
  · intro selected
    obtain ⟨predicate, compiled, executes, held⟩ := selected
    exact (mem_rows ((compile_only clause).trans compiled) executes partner).mpr held

section Column

variable {member : String} {path : ColumnPath} {operator : Operator} {values : List String}
  (resolved : resolve schema root member = .ok (.column path))

include resolved

theorem column_of_compile {predicate : Predicate}
    (compiled : (test member operator values).compile registry schema root = .ok predicate) :
    ∃ condition, predicate = .column path condition := by
  obtain ⟨strategy, registered⟩ := exists_strategy resolved
  obtain ⟨-, -, condition, -, same⟩ := (compile_test resolved registered).mp compiled
  exact ⟨condition, same.symm⟩

theorem mem_listed_column :
    partner ∈ directory.listed (test member operator values) ↔
      ∃ condition, (test member operator values).compile registry schema root =
          .ok (.column path condition) ∧
        directory.Executes (.column path condition) ∧
        partner ∈ directory.everyPartner ∧
        (path.truth directory.tables partner.row condition).holds = true := by
  rw [mem_listed]
  constructor
  · intro selected
    obtain ⟨predicate, compiled, held⟩ := selected
    obtain ⟨condition, rfl⟩ := column_of_compile resolved compiled
    exact ⟨condition, compiled, held⟩
  · intro selected
    obtain ⟨condition, compiled, held⟩ := selected
    exact ⟨_, compiled, held⟩

variable (direct : path.isQuantified = false)

include direct

theorem compiles_back :
    Compiles registry (only (test ("attributes.partner." ++ member) operator values)) ↔
      Compiles registry (only (test member operator values)) := by
  simp only [Compiles, compile_only]
  constructor
  · intro compiles
    obtain ⟨predicate, compiled⟩ := compiles
    obtain ⟨condition, rfl⟩ := column_of_compile (resolve_back resolved direct) compiled
    exact ⟨_, (compile_back resolved direct condition).mp compiled⟩
  · intro compiles
    obtain ⟨predicate, compiled⟩ := compiles
    obtain ⟨condition, rfl⟩ := column_of_compile resolved compiled
    exact ⟨_, (compile_back resolved direct condition).mpr compiled⟩

/-- What runs on the path alone runs behind the way back too. -/
theorem runs_back (intact : directory.dropped = [])
    (runs : directory.Runs registry (only (test member operator values))) :
    directory.Runs registry (only (test ("attributes.partner." ++ member) operator values)) := by
  obtain ⟨predicate, compiled, executes⟩ := runs
  rw [compile_only] at compiled
  obtain ⟨condition, rfl⟩ := column_of_compile resolved compiled
  obtain ⟨few, untested⟩ := (executes_column intact (length_hops resolved)).mp executes
  refine ⟨_, (compile_only _).trans ((compile_back resolved direct condition).mpr compiled), ?_⟩
  refine (executes_column intact (length_hops (resolve_back resolved direct))).mpr ⟨few, ?_⟩
  intro long partner stored
  have tested : path.isTested directory.tables partner.row = true := by
    rw [ColumnPath.isTested, direct]
    rfl
  have none_tested := untested long partner stored
  rw [tested] at none_tested
  cases none_tested

theorem listed_back (intact : directory.dropped = []) (wellFormed : directory.WellFormed) :
    directory.listed (test ("attributes.partner." ++ member) operator values) =
      directory.havingAttributes ∩ directory.listed (test member operator values) := by
  have back := resolve_back resolved direct
  have short := length_hops resolved
  have shortBack := length_hops back
  ext partner
  rw [Set.mem_inter_iff, mem_listed_column back, mem_listed_column resolved, mem_havingAttributes]
  constructor
  · intro selected
    obtain ⟨condition, compiled, executes, stored, held⟩ := selected
    obtain ⟨some_entry, own⟩ := (holds_back wellFormed stored resolved direct condition).mp held
    exact ⟨⟨stored, some_entry⟩, condition, (compile_back resolved direct condition).mp compiled,
      executes.elsewhere intact shortBack short held, stored, own⟩
  · intro selected
    obtain ⟨⟨stored, some_entry⟩, condition, compiled, executes, -, own⟩ := selected
    exact ⟨condition, (compile_back resolved direct condition).mpr compiled,
      executes.elsewhere intact short shortBack own, stored,
      (holds_back wellFormed stored resolved direct condition).mpr ⟨some_entry, own⟩⟩

end Column

/-- Without related rows are all partners but those with them. -/
theorem lists_notSet (intact : directory.dropped = []) {member : String} {path : RelationPath}
    (resolved : resolve schema root member = .ok (.relation path)) (values : List String) :
    directory.Lists (test member .notSet values)
      (directory.everyPartner \ directory.listed (test member .set values)) := by
  obtain ⟨present, absent⟩ := selects_relation intact resolved values
  refine ⟨absent.1, Set.ext fun partner => ?_⟩
  rw [absent.mem_iff, Set.mem_sdiff, present.mem_iff]
  refine and_congr_right fun stored => ?_
  simp [stored]

/-- Over the attributes and back, rows are reached if there is an attribute and if they are reached from
the partner itself. -/
theorem reach_back_ne_nil (wellFormed : directory.WellFormed)
    (stored : partner ∈ directory.partners) (hops : List Hop) :
    Hop.reach directory.tables .required (backHops ++ hops) partner.row ≠ [] ↔
      directory.entriesOf partner ≠ [] ∧
        Hop.reach directory.tables .required hops partner.row ≠ [] := by
  have same : Hop.reachFurther directory.tables .required hops partner.row =
      Hop.reach directory.tables .required hops partner.row := by
    cases hops <;> rfl
  rw [reach_back wellFormed.partnerIds stored, same]
  cases directory.entriesOf partner with
  | nil => simp
  | cons entry rest => simp +contextual

/-- What a filter selects behind the reference from attributes back to their partner: on a path without a
collection the partners with an attribute that the same filter selects on the path alone, also where it
is refused; and of relations the partners with an attribute that have the relation, or the others. -/
theorem back_reference_faithful (reachable : directory.Reachable) :
    (∀ member path, resolve schema root member = .ok (.column path) → path.isQuantified = false →
      ∀ operator values,
        (Compiles registry (only (test ("attributes.partner." ++ member) operator values)) ↔
          Compiles registry (only (test member operator values))) ∧
        (directory.Runs registry (only (test member operator values)) →
          directory.Runs registry (only (test ("attributes.partner." ++ member) operator values))) ∧
        directory.listed (test ("attributes.partner." ++ member) operator values) =
          directory.havingAttributes ∩ directory.listed (test member operator values)) ∧
    ∀ values,
      directory.Lists (test "attributes" .set values) directory.havingAttributes ∧
      directory.Lists (test "attributes.partner" .set values)
        (directory.listed (test "attributes" .set values)) ∧
      directory.Lists (test "attributes.partner.contact" .set values)
        (directory.listed (test "attributes" .set values) ∩
          directory.listed (test "contact" .set values)) ∧
      directory.Lists (test "attributes.partner" .notSet values)
        (directory.everyPartner \ directory.listed (test "attributes.partner" .set values)) ∧
      directory.Lists (test "attributes.partner.contact" .notSet values)
        (directory.everyPartner \ directory.listed (test "attributes.partner.contact" .set values)) := by
  have intact := reachable.intact
  have wellFormed := reachable.wellFormed
  refine ⟨fun member path resolved direct operator values =>
    ⟨compiles_back resolved direct, runs_back resolved direct intact,
      listed_back resolved direct intact wellFormed⟩, ?_⟩
  intro values
  have attributes : resolve schema root "attributes" =
      .ok (.relation ⟨"attributes", [attributesHop]⟩) := by
    decide +kernel
  have contact : resolve schema root "contact" = .ok (.relation ⟨"contact", [contactHop]⟩) := by
    decide +kernel
  have back : resolve schema root "attributes.partner" =
      .ok (.relation ⟨"attributes.partner", backHops ++ []⟩) := by
    decide +kernel
  have backContact : resolve schema root "attributes.partner.contact" =
      .ok (.relation ⟨"attributes.partner.contact", backHops ++ [contactHop]⟩) := by
    decide +kernel
  have withAttributes := (selects_relation intact attributes values).1
  have withContact := (selects_relation intact contact values).1
  have throughBack := (selects_relation intact back values).1
  have throughBackContact := (selects_relation intact backContact values).1
  have reaches (partner : Partner) :
      Hop.reach directory.tables .required [attributesHop] partner.row ≠ [] ↔
        directory.entriesOf partner ≠ [] := by
    rw [Hop.reach_single, related_attributes, ne_eq, List.map_eq_nil_iff]
    rfl
  refine ⟨⟨withAttributes.1, ?_⟩, ⟨throughBack.1, ?_⟩, ⟨throughBackContact.1, ?_⟩,
    lists_notSet intact back values, lists_notSet intact backContact values⟩
  · ext partner
    rw [withAttributes.mem_iff, reaches, mem_havingAttributes]
  · ext partner
    rw [throughBack.mem_iff, withAttributes.mem_iff, reaches]
    refine and_congr_right fun stored => ?_
    rw [reach_back_ne_nil wellFormed stored]
    simp [Hop.reach]
  · ext partner
    rw [throughBackContact.mem_iff, Set.mem_inter_iff, withAttributes.mem_iff, withContact.mem_iff,
      reaches, ← and_and_left]
    exact and_congr_right fun stored => reach_back_ne_nil wellFormed stored _

theorem back_reference_faithful_country :
    Reachable sample ∧
      sample.listed (test "attributes.partner.contact.country" .notEquals ["US"]) =
        sample.havingAttributes ∩ sample.listed (test "contact.country" .notEquals ["US"]) ∧
      sample.Lists (test "attributes.partner.contact" .notSet [])
        (sample.everyPartner \ sample.listed (test "attributes.partner.contact" .set [])) := by
  have country : resolve schema root "contact.country" =
      .ok (.column ⟨"contact.country", [contactHop], "country", .text⟩) := by
    decide +kernel
  have faithful := back_reference_faithful reachable_sample
  exact ⟨reachable_sample, (faithful.1 _ _ country rfl .notEquals ["US"]).2.2,
    (faithful.2 []).2.2.2.2⟩

end Directory

end PartnerSearch
