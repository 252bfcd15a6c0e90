import PartnerSearch.Proofs.Directory.Details

set_option autoImplicit false

/-!
Ids in searches. Every spelling of a UUID is converted to its canonical text, which is the form of the
stored ids; so a filter on an id selects the same partners whatever spelling it uses.
-/

namespace PartnerSearch

open Sql
open Uuid (Denotes)

/-- Values that convert alike make the same predicate, or the same refusal. -/
theorem Strategy.build_congr {strategy : Strategy} {member : String} {operator : Operator}
    {values others : List String}
    (alike : List.Forall₂ (fun raw other => strategy.convert member raw = strategy.convert member other)
      values others)
    (closed : strategy.supports .contains = false) (path : ColumnPath) :
    strategy.build ⟨member, operator, values⟩ path =
      strategy.build ⟨member, operator, others⟩ path := by
  have counted : (Filter.mk member operator values).checkValueCount =
      (Filter.mk member operator others).checkValueCount := by
    simp only [Filter.checkValueCount, alike.length_eq]
  have mapped : values.mapM (strategy.convert member) = others.mapM (strategy.convert member) := by
    clear counted
    induction alike with
    | nil => rfl
    | cons first rest ih => rw [List.mapM_cons, List.mapM_cons, first, ih]
  have first : strategy.convert member (values.headD "") =
      strategy.convert member (others.headD "") := by
    cases alike with
    | nil => rfl
    | cons first rest => exact first
  have second : strategy.convert member (values.getD 1 "") =
      strategy.convert member (others.getD 1 "") := by
    cases alike with
    | nil => rfl
    | cons first rest =>
        cases rest with
        | nil => rfl
        | cons second rest => exact second
  have compared (comparison : Comparison) :
      strategy.compareFirst member comparison (values.headD "") =
        strategy.compareFirst member comparison (others.headD "") :=
    congrArg (Except.map (Condition.compare comparison)) first
  have conditions (supported : strategy.supports operator = true) :
      strategy.condition ⟨member, operator, values⟩ =
        strategy.condition ⟨member, operator, others⟩ := by
    cases operator with
    | contains => simp [closed] at supported
    | set => rfl
    | notSet => rfl
    | within => exact congrArg (Except.map Condition.within) mapped
    | between => simp only [Strategy.condition, first, second]
    | equals => exact compared .equal
    | notEquals => exact compared .notEqual
    | greater => exact compared .greater
    | greaterOrEqual => exact compared .greaterOrEqual
    | less => exact compared .less
    | lessOrEqual => exact compared .lessOrEqual
  rw [Strategy.build_eq, Strategy.build_eq, counted]
  by_cases supported : strategy.supports operator = true
  · rw [if_pos supported, if_pos supported, conditions supported]
  · rw [if_neg supported, if_neg supported]

namespace Directory

variable {directory : Directory} {partner : Partner} {uuid : Uuid} {raw : String}

/-- The texts stand for the same UUID. -/
def SameUuid (raw other : String) : Prop := ∃ uuid, Denotes raw uuid ∧ Denotes other uuid

theorem compile_respelled {member : String} {path : ColumnPath}
    (resolved : resolve schema root member = .ok (.column path)) (typed : path.type = .uuid)
    {values others : List String} (same : List.Forall₂ SameUuid values others)
    (operator : Operator) :
    (test member operator values).compile registry schema root =
      (test member operator others).compile registry schema root := by
  have registered : registry.find? path.type = some .uuid := typed ▸ rfl
  have built (values : List String) : (test member operator values).compile registry schema root =
      Strategy.uuid.build ⟨member, operator, values⟩ path :=
    Filter.compile_of_column resolved registered
  have alike : List.Forall₂ (fun raw other =>
      Strategy.uuid.convert member raw = Strategy.uuid.convert member other) values others := by
    refine same.imp fun raw other spelled => ?_
    obtain ⟨uuid, here, there⟩ := spelled
    rw [Strategy.convert_uuid_eq_ok here, Strategy.convert_uuid_eq_ok there]
  rw [built, built, Strategy.build_congr alike rfl]

theorem listed_congr {clause other : Clause}
    (same : clause.compile registry schema root = other.compile registry schema root) :
    directory.listed clause = directory.listed other := by
  simp only [listed, rows, compile_only, same]

/-- The partners whose id stands for the UUID. -/
def identified (directory : Directory) (uuid : Uuid) : Set Partner :=
  {partner ∈ directory.everyPartner | Denotes partner.id uuid}

theorem HasDrawnIds.denotes_iff (ids : directory.HasDrawnIds)
    (stored : partner ∈ directory.partners) : Denotes partner.id uuid ↔ partner.id = uuid.text := by
  obtain ⟨own, drawn⟩ := ids.partners partner stored
  rw [drawn, Uuid.text_inj]
  constructor
  · intro denotes
    exact (Uuid.denotes_text own).unique denotes
  · intro same
    exact same ▸ Uuid.denotes_text own

theorem mem_identified (ids : directory.HasDrawnIds) :
    partner ∈ directory.identified uuid ↔
      partner ∈ directory.everyPartner ∧ partner.id = uuid.text :=
  and_congr_right ids.denotes_iff

section Filters

variable (intact : directory.dropped = []) (ids : directory.HasDrawnIds)

include intact ids

theorem lists_id_equals (denotes : Denotes raw uuid) :
    directory.Lists (test "id" .equals [raw]) (directory.identified uuid) := by
  have selects := (selects_id intact denotes).1
  refine ⟨selects.1, Set.ext fun partner => ?_⟩
  rw [selects.mem_iff, mem_identified ids]

theorem lists_id_notEquals (denotes : Denotes raw uuid) :
    directory.Lists (test "id" .notEquals [raw])
      (directory.everyPartner \ directory.identified uuid) := by
  have selects := (selects_id intact denotes).2
  refine ⟨selects.1, Set.ext fun partner => ?_⟩
  rw [selects.mem_iff, Set.mem_sdiff, mem_identified ids]
  exact and_congr_right fun stored => not_congr (and_iff_right stored).symm

omit intact ids in
theorem compiles_id_within {raws : List String} {uuids : List Uuid}
    (denote : List.Forall₂ Denotes raws uuids) (nonempty : raws ≠ []) :
    Compiles registry (only (test "id" .within raws)) := by
  have converts : ∀ raw ∈ raws, ∃ value, Strategy.uuid.convert "id" raw = .ok value := by
    clear nonempty
    induction denote with
    | nil => simp
    | cons first rest ih =>
        exact List.forall_mem_cons.mpr ⟨⟨_, Strategy.convert_uuid_eq_ok first⟩, ih⟩
  exact (compiles_within resolve_id rfl nonempty).mpr converts

/-- A choice of ids is executed unless a statement has no place for so many. -/
theorem lists_id_within {raws : List String} {uuids : List Uuid}
    (denote : List.Forall₂ Denotes raws uuids) (nonempty : raws ≠ [])
    (few : raws.length + pagingOperands ≤ operandLimit) :
    directory.Lists (test "id" .within raws) (⋃ uuid ∈ uuids, directory.identified uuid) := by
  have runs := (runs_within resolve_id rfl intact).mpr ⟨compiles_id_within denote nonempty, few⟩
  refine ⟨runs, Set.ext fun partner => ?_⟩
  rw [(lists_within resolve_id rfl intact runs).2, Set.mem_iUnion₂, Set.mem_iUnion₂]
  simp only [exists_prop]
  refine exists_mem_iff_of_forall₂ (fun raw uuid denotes => ?_) denote
  rw [(lists_id_equals intact ids denotes).2]

end Filters

/-- The texts of UUIDs are a canonical form. Every spelling of a UUID is converted to its text, which is
in lowercase and hyphenated and stands for itself; two texts are converted alike exactly if they stand
for the same UUID, and texts that stand for none are refused. Filters on an id ask for the same
whatever spellings they use, also where they are refused. In a directory that draws its ids, a filter
on the id of partners lists those whose id stands for the UUID, or all others. -/
theorem uuid_canonical (drawn : directory.Drawn) :
    (∀ member raw uuid, Denotes raw uuid →
        Strategy.uuid.convert member raw = .ok (.text uuid.text)) ∧
      (∀ uuid : Uuid, uuid.text.length = 36 ∧
        (Text.split '-' uuid.text).map String.length = [8, 4, 4, 4, 12] ∧
        uuid.text.toList.map Char.toLower = uuid.text.toList ∧ Denotes uuid.text uuid ∧
        ∀ member, Strategy.uuid.convert member uuid.text = .ok (.text uuid.text)) ∧
      (∀ member raw other uuid also, Denotes raw uuid → Denotes other also →
        (Strategy.uuid.convert member raw = Strategy.uuid.convert member other ↔ uuid = also)) ∧
      (∀ member raw, (∀ uuid, ¬Denotes raw uuid) →
        Strategy.uuid.convert member raw = .error (.invalidValue member raw .uuid)) ∧
      (∀ member path operator values others,
        resolve schema root member = .ok (.column path) → path.type = .uuid →
        List.Forall₂ SameUuid values others →
        (test member operator values).compile registry schema root =
            (test member operator others).compile registry schema root ∧
          directory.listed (test member operator values) =
            directory.listed (test member operator others)) ∧
      directory.HasDrawnIds ∧
      (∀ raw uuid, Denotes raw uuid →
        directory.Lists (test "id" .equals [raw]) (directory.identified uuid) ∧
        directory.Lists (test "id" .notEquals [raw])
          (directory.everyPartner \ directory.identified uuid)) ∧
      ∀ raws uuids, List.Forall₂ Denotes raws uuids → raws ≠ [] →
        Compiles registry (only (test "id" .within raws)) ∧
          (raws.length + pagingOperands ≤ operandLimit →
            directory.Lists (test "id" .within raws)
              (⋃ uuid ∈ uuids, directory.identified uuid)) := by
  have intact := drawn.reachable.intact
  have ids := drawn.hasDrawnIds
  refine ⟨fun _ _ _ => Strategy.convert_uuid_eq_ok, ?_, ?_, fun _ _ => Strategy.convert_uuid_eq_error,
    ?_, ids, ?_, ?_⟩
  · intro uuid
    have text : uuid.text.toList = uuid.chars := String.toList_ofList
    have size : uuid.text.length = 36 := (String.length_ofList).trans uuid.length_chars
    have lower : uuid.text.toList.map Char.toLower = uuid.text.toList := text ▸ uuid.toLower_chars
    exact ⟨size, uuid.split_text, lower, uuid.denotes_text,
      fun member => Strategy.convert_uuid_text member uuid⟩
  · intro member raw other uuid also here there
    rw [Strategy.convert_uuid_eq_ok here, Strategy.convert_uuid_eq_ok there, Except.ok.injEq,
      Value.text.injEq, Uuid.text_inj]
  · intro member path operator values others resolved typed same
    have compiled := compile_respelled resolved typed same operator
    exact ⟨compiled, listed_congr compiled⟩
  · intro raw uuid denotes
    exact ⟨lists_id_equals intact ids denotes, lists_id_notEquals intact ids denotes⟩
  · intro raws uuids denote nonempty
    exact ⟨compiles_id_within denote nonempty, lists_id_within intact ids denote nonempty⟩

/-- The id of a partner, and the calls that create it beside another one. -/
def soughtId : Uuid := ⟨0x67e5504410b1426f9247bb680e5fe0c8⟩

def sought : Partner := ⟨soughtId.text, "Acme", .active, 3, none, true, none, none, 0⟩

def seeking : List Write := .createPartner sought :: visits

theorem uuid_canonical_sought :
    Strategy.uuid.convert "id" "  URN:UUID:67E55044-10b1-426F-9247-BB680E5FE0C8" =
        .ok (.text "67e55044-10b1-426f-9247-bb680e5fe0c8") ∧
      Strategy.uuid.convert "id" "67e55044" = .error (.invalidValue "id" "67e55044" .uuid) ∧
      sought ∈ (empty.afterAll seeking).listed
        (test "id" .equals ["\x7b67E55044-10B1-426F-9247-BB680E5FE0C8\x7d"]) ∧
      visited ∉ (empty.afterAll seeking).listed
        (test "id" .within ["67E5504410B1426F9247BB680E5FE0C8", soughtId.text]) := by
  have draws : ∀ write ∈ seeking, write.DrawsId := by
    simp only [seeking, visits, List.forall_mem_cons]
    exact ⟨⟨_, rfl⟩, ⟨_, rfl⟩, ⟨_, rfl⟩, trivial, trivial, List.forall_mem_nil _⟩
  have urn : Denotes "  URN:UUID:67E55044-10b1-426F-9247-BB680E5FE0C8" soughtId :=
    Uuid.denotes_iff.mpr (by decide +kernel)
  have braced : Denotes "\x7b67E55044-10B1-426F-9247-BB680E5FE0C8\x7d" soughtId :=
    Uuid.denotes_iff.mpr (by decide +kernel)
  have plain : Denotes "67E5504410B1426F9247BB680E5FE0C8" soughtId :=
    Uuid.denotes_iff.mpr (by decide +kernel)
  have short (uuid : Uuid) : ¬Denotes "67e55044" uuid := by
    rw [Uuid.denotes_iff, show Uuid.read? (Text.trimChars "67e55044".toList) = none by decide +kernel]
    exact (Option.some_ne_none uuid).symm
  have written : soughtId.text = "67e55044-10b1-426f-9247-bb680e5fe0c8" := by decide +kernel
  obtain ⟨converted, -, -, refused, -, ids, compared, within⟩ :=
    @uuid_canonical (empty.afterAll seeking) ⟨seeking, draws, rfl⟩
  have stored : sought ∈ (empty.afterAll seeking).partners := by decide +kernel
  have chosen := (within _ _ (.cons plain (.cons (Uuid.denotes_text soughtId) .nil))
    (List.cons_ne_nil _ _)).2 (by decide)
  refine ⟨written ▸ converted "id" _ _ urn, refused _ _ short, ?_, ?_⟩
  · rw [(compared _ _ braced).1.2, mem_identified ids]
    exact ⟨stored, rfl⟩
  · rw [chosen.2]
    simp only [Set.mem_iUnion₂, mem_identified ids, List.mem_cons, List.not_mem_nil, or_false, or_self,
      exists_prop, exists_eq_left, not_and]
    intro _
    decide +kernel

end Directory

end PartnerSearch
