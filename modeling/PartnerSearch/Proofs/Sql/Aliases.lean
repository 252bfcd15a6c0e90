import Mathlib.Data.List.Rotate
import PartnerSearch.Proofs.Sql.Layout
import PartnerSearch.Proofs.Sql.Placeholders
import PartnerSearch.Proofs.Sql.WellFormed

set_option autoImplicit false

/-!
The aliases in the text of a predicate. Every hop gets the next one together with its table, and
columns are read under the alias of the root or under an alias of their own query.
-/

namespace PartnerSearch

namespace Sql

namespace Atom

/-- The table that gets an alias. -/
def sources : Atom → List (String × Nat)
  | .source table slot => [(table, slot)]
  | .word _ => []
  | .column _ => []
  | .equality _ _ => []

def equalities : Atom → List (ColumnRef × ColumnRef)
  | .equality own outer => [(own, outer)]
  | .word _ => []
  | .source _ _ => []
  | .column _ => []

/-- Words have no letter that an alias could start with, and columns are read under the alias of the
root or under one of the given aliases. -/
def InScope (slots : List Nat) : Atom → Prop
  | .word text => 't' ∉ text.toList
  | .source _ _ => True
  | .column reference => reference.slot ∈ 0 :: slots
  | .equality own outer => own.slot ∈ 0 :: slots ∧ outer.slot ∈ 0 :: slots

end Atom

namespace Part

def sources (part : Part) : List (String × Nat) := part.atoms.flatMap Atom.sources

/-- Outside of queries no table gets an alias. A query has the aliases of its own tables. -/
def InScope : Part → Prop
  | .plain atom => atom.sources = [] ∧ atom.InScope []
  | .query inside => ∀ atom ∈ inside, atom.InScope ((inside.flatMap Atom.sources).map Prod.snd)

end Part

namespace Link

/-- The two columns that have to be equal, that of the link first. -/
def tie (link : Link) : ColumnRef × ColumnRef := (⟨link.slot, link.remote⟩, ⟨link.parent, link.home⟩)

theorem sources_fromAtoms (links : List Link) :
    (fromAtoms links).flatMap Atom.sources = links.map fun link => (link.table, link.slot) := by
  cases links with
  | nil => rfl
  | cons first rest =>
      have further : (rest.flatMap joinedAtoms).flatMap Atom.sources =
          rest.map fun link => (link.table, link.slot) := by
        induction rest with
        | nil => rfl
        | cons link rest ih =>
            rw [List.flatMap_cons, List.flatMap_append, ih]
            rfl
      rw [fromAtoms, List.flatMap_cons, further]
      rfl

theorem equalities_fromAtoms (links : List Link) :
    (fromAtoms links).flatMap Atom.equalities = links.tail.map tie := by
  cases links with
  | nil => rfl
  | cons first rest =>
      rw [fromAtoms, List.flatMap_cons, List.tail_cons]
      induction rest with
      | nil => rfl
      | cons link rest ih =>
          rw [List.flatMap_cons, List.flatMap_append, List.map_cons, ← ih]
          rfl

theorem sources_selectAtoms (what : Atom) (links : List Link) :
    (selectAtoms what links).flatMap Atom.sources =
      what.sources ++ links.map fun link => (link.table, link.slot) := by
  have tied : (whereAtoms links).flatMap Atom.sources = [] := by
    cases links <;> rfl
  simp [selectAtoms, sources_fromAtoms, tied, Atom.sources]

/-- The links after the first are tied where they are joined, and the first at the end. -/
theorem equalities_selectAtoms (what : Atom) (links : List Link) :
    (selectAtoms what links).flatMap Atom.equalities = what.equalities ++ (links.map tie).rotate 1 := by
  have tied : (whereAtoms links).flatMap Atom.equalities = (links.map tie).take 1 := by
    cases links <;> rfl
  simp only [selectAtoms, List.flatMap_append, List.flatMap_cons, List.flatMap_nil,
    equalities_fromAtoms, tied, Atom.equalities, List.nil_append, List.append_nil,
    List.append_assoc]
  cases links with
  | nil => rfl
  | cons first rest =>
      rw [List.map_cons, List.rotate_cons_succ, List.rotate_zero]
      rfl

end Link

end Sql

open Sql

namespace Hop

/-- The tables of hops under the aliases after the first `used`. -/
def sources (used : Nat) (hops : List Hop) : List (String × Nat) :=
  (hops.zipIdx (used + 1)).map fun hop => (hop.1.table, hop.2)

/-- For each hop the remote column under its own alias, and the home column under the alias of the
hop before; before the first hop is the root. -/
def ties (used : Nat) (hops : List Hop) : List (ColumnRef × ColumnRef) :=
  hops.zipIdx.map fun hop =>
    (⟨used + hop.2 + 1, hop.1.join.remote⟩,
      ⟨if hop.2 = 0 then 0 else used + hop.2, hop.1.join.home⟩)

/-- A query names the tables of the hops under the next aliases. It ties the hops one after the other
where they are joined, and the first one to the root at the end. -/
structure JoinedIn (used : Nat) (hops : List Hop) (inside : List Atom) : Prop where
  sources : inside.flatMap Atom.sources = Hop.sources used hops
  equalities : inside.flatMap Atom.equalities = (ties used hops).rotate 1

theorem JoinedIn.append {used : Nat} {hops : List Hop} {inside : List Atom}
    (joined : JoinedIn used hops inside) (rest : List Atom) (plain : rest.flatMap Atom.sources = [])
    (free : rest.flatMap Atom.equalities = []) : JoinedIn used hops (inside ++ rest) where
  sources := by rw [List.flatMap_append, joined.sources, plain, List.append_nil]
  equalities := by rw [List.flatMap_append, joined.equalities, free, List.append_nil]

theorem sources_append (used : Nat) (hops others : List Hop) :
    sources used (hops ++ others) = sources used hops ++ sources (used + hops.length) others := by
  rw [sources, List.zipIdx_append, List.map_append, sources, sources, Nat.add_right_comm]

theorem map_snd_sources (used : Nat) (hops : List Hop) :
    (sources used hops).map Prod.snd = List.range' (used + 1) hops.length := by
  rw [sources, List.map_map, ← List.zipIdx_map_snd (used + 1) hops]
  rfl

theorem map_snd_sources_eq_slots (mode : JoinMode) (used : Nat) (hops : List Hop) :
    (sources used hops).map Prod.snd = (Link.ofHops mode used hops).map Link.slot := by
  rw [map_snd_sources, Link.slots_ofHops]

end Hop

namespace Sql

namespace Link

theorem map_source_ofHops (mode : JoinMode) (used : Nat) (hops : List Hop) :
    ((ofHops mode used hops).map fun link => (link.table, link.slot)) = Hop.sources used hops := by
  have further (hops : List Hop) (used : Nat) :
      ((ofFurtherHops mode used hops).map fun link => (link.table, link.slot)) =
        Hop.sources used hops := by
    induction hops generalizing used with
    | nil => rfl
    | cons hop rest ih =>
        rw [ofFurtherHops, List.map_cons, ih]
        rfl
  cases hops with
  | nil => rfl
  | cons hop rest =>
      rw [ofHops, List.map_cons, further]
      rfl

theorem map_tie_ofHops (mode : JoinMode) (used : Nat) (hops : List Hop) :
    (ofHops mode used hops).map tie = Hop.ties used hops := by
  have further (rest : List Hop) (place : Nat) :
      (ofFurtherHops mode (used + (place + 1)) rest).map tie =
        (rest.zipIdx (place + 1)).map fun hop =>
          (⟨used + hop.2 + 1, hop.1.join.remote⟩,
            ⟨if hop.2 = 0 then 0 else used + hop.2, hop.1.join.home⟩) := by
    induction rest generalizing place with
    | nil => rfl
    | cons hop rest ih =>
        rw [ofFurtherHops, List.map_cons, List.zipIdx_cons, List.map_cons, ← ih (place + 1)]
        rfl
  cases hops with
  | nil => rfl
  | cons hop rest =>
      rw [ofHops, List.map_cons, further rest 0, Hop.ties, List.zipIdx_cons, List.map_cons]
      rfl

theorem joinedIn_selectAtoms (mode : JoinMode) (used : Nat) (hops : List Hop) (what : Atom)
    (plain : what.sources = []) (free : what.equalities = []) :
    Hop.JoinedIn used hops (selectAtoms what (ofHops mode used hops)) where
  sources := by rw [sources_selectAtoms, plain, map_source_ofHops, List.nil_append]
  equalities := by rw [equalities_selectAtoms, free, map_tie_ofHops, List.nil_append]

/-- A link is tied to an alias from before or to a link of its own query. -/
theorem Scoped.parent_mem {taken : List Nat} {links : List Link} (inScope : Scoped taken links) :
    ∀ link ∈ links, link.parent ∈ taken ++ links.map slot := by
  induction links generalizing taken with
  | nil => simp
  | cons first rest ih =>
      obtain ⟨before, -, onward⟩ := inScope
      rw [List.forall_mem_cons]
      refine ⟨List.mem_append_left _ before, ?_⟩
      intro link inside
      rw [List.map_cons, List.mem_append, List.mem_cons]
      rcases List.mem_append.mp (ih onward link inside) with known | further
      · rcases List.mem_cons.mp known with own | before
        · exact .inr (.inl own)
        · exact .inl before
      · exact .inr (.inr further)

end Link

theorem quiet_test (condition : Condition) : 't' ∉ condition.test.toList := by
  cases condition with
  | compare comparison value =>
      change 't' ∉ (" " ++ comparisonWord comparison ++ " ?").toList
      cases comparison <;> decide
  | within values =>
      have opening : 't' ∉ " IN (".toList := by decide
      have closing : 't' ∉ ")".toList := by decide
      have list : 't' ∉ (String.intercalate ", " (values.map fun _ => "?")).toList :=
        List.count_eq_zero.mp (count_list (by decide) values)
      simp only [Condition.test, String.toList_append, List.mem_append, not_or]
      exact ⟨⟨opening, list⟩, closing⟩
  | contains needle =>
      change 't' ∉ " LIKE ? ESCAPE '\\'".toList
      decide
  | set => decide
  | notSet => decide
  | between low high =>
      change 't' ∉ " BETWEEN ? AND ?".toList
      decide

/-- What a query over hops reads is in scope if the column that it selects is. -/
theorem inScope_selectAtoms (mode : JoinMode) (used : Nat) (hops : List Hop) {what : Atom}
    (said : what.InScope ((Hop.sources used hops).map Prod.snd)) :
    ∀ atom ∈ Link.selectAtoms what (Link.ofHops mode used hops),
      atom.InScope ((Hop.sources used hops).map Prod.snd) := by
  have words : ∀ text ∈ keywords, 't' ∉ text.toList := by decide
  rw [Hop.map_snd_sources_eq_slots mode] at said ⊢
  apply Link.forall_selectAtoms
  · exact words
  · intro link inside
    have own : link.slot ∈ (Link.ofHops mode used hops).map Link.slot := List.mem_map_of_mem inside
    have outer := (Link.scoped_ofHops mode used hops).parent_mem link inside
    exact ⟨trivial, List.mem_cons_of_mem 0 own, outer⟩
  · exact said

namespace Block

/-- The aliases and the tables in a block are those of the hops of its condition. -/
theorem sources_parts (block : Block) : block.parts.flatMap Part.sources =
    block.condition?.elim [] fun item => Hop.sources item.1 item.2.hops := by
  cases block with
  | glue text => rfl
  | column used path condition =>
      by_cases direct : path.hops = []
      · rw [parts_column_direct used condition direct]
        simp [condition?, Predicate.hops, direct, Part.sources, Part.atoms, Atom.sources,
          Hop.sources]
      · cases many : path.isQuantified with
        | true =>
            rw [parts_column_many used condition many]
            simp [condition?, Predicate.hops, Part.sources, Part.atoms, Link.sources_selectAtoms,
              Link.map_source_ofHops, Atom.sources]
        | false =>
            rw [parts_column_one used condition direct many]
            simp [condition?, Predicate.hops, Part.sources, Part.atoms, Link.sources_selectAtoms,
              Link.map_source_ofHops, Atom.sources]
  | related used path present =>
      simp [parts, condition?, Predicate.hops, Part.sources, Part.atoms, Link.sources_selectAtoms,
        Link.map_source_ofHops, Atom.sources]

/-- The query of a condition joins each of its hops to the one before. -/
theorem query_parts {block : Block} {used : Nat} {leaf : Predicate}
    (here : block.condition? = some (used, leaf)) (crossed : leaf.hops ≠ []) :
    ∃ front inside back, block.parts = front ++ .query inside :: back ∧
      Hop.JoinedIn used leaf.hops inside := by
  cases block with
  | glue text => cases here
  | column used path condition =>
      cases here
      cases many : path.isQuantified with
      | true =>
          have select := Link.joinedIn_selectAtoms .optionalObjects used path.hops (.word "1") rfl rfl
          exact ⟨[_], _, [], parts_column_many used condition many,
            select.append [.word " AND ", .column _, .word condition.test] rfl rfl⟩
      | false =>
          exact ⟨[], _, _, parts_column_one used condition crossed many,
            Link.joinedIn_selectAtoms .optionalObjects used path.hops _ rfl rfl⟩
  | related used path present =>
      cases here
      exact ⟨[_], _, [], rfl, Link.joinedIn_selectAtoms .required used path.hops (.word "1") rfl rfl⟩

theorem inScope_parts {block : Block} (glued : ∀ text, block = .glue text → text ∈ separators) :
    ∀ part ∈ block.parts, part.InScope := by
  have glue : ∀ text ∈ separators, 't' ∉ text.toList := by decide
  have one : 't' ∉ "1".toList := by decide
  have positive : 't' ∉ "EXISTS ".toList := by decide
  have negative : 't' ∉ "NOT EXISTS ".toList := by decide
  have between : 't' ∉ " AND ".toList := by decide
  cases block with
  | glue text => exact List.forall_mem_singleton.mpr ⟨rfl, glue text (glued text rfl)⟩
  | column used path condition =>
      have test : (Part.plain (.word condition.test)).InScope := ⟨rfl, quiet_test condition⟩
      by_cases direct : path.hops = []
      · have root : (Part.plain (.column ⟨0, path.column⟩)).InScope := ⟨rfl, List.mem_cons_self⟩
        rw [parts_column_direct used condition direct, List.forall_mem_cons,
          List.forall_mem_singleton]
        exact ⟨root, test⟩
      · let read : Atom := .column ⟨used + path.hops.length, path.column⟩
        have last : read.InScope ((Hop.sources used path.hops).map Prod.snd) := by
          rw [Hop.map_snd_sources_eq_slots .optionalObjects]
          exact List.mem_cons_of_mem 0 (Link.last_mem_slots .optionalObjects used direct)
        cases many : path.isQuantified with
        | true =>
            have select := Link.joinedIn_selectAtoms .optionalObjects used path.hops (.word "1") rfl rfl
            have joined := select.append [.word " AND ", read, .word condition.test] rfl rfl
            rw [parts_column_many used condition many, List.forall_mem_cons,
              List.forall_mem_singleton]
            refine ⟨⟨rfl, positive⟩, ?_⟩
            rw [Part.InScope, joined.sources, List.forall_mem_append]
            refine ⟨inScope_selectAtoms .optionalObjects used path.hops one, ?_⟩
            simp only [List.forall_mem_cons]
            exact ⟨between, last, quiet_test condition, by simp⟩
        | false =>
            have joined := Link.joinedIn_selectAtoms .optionalObjects used path.hops read rfl rfl
            rw [parts_column_one used condition direct many, List.forall_mem_cons,
              List.forall_mem_singleton]
            refine ⟨?_, test⟩
            rw [Part.InScope, joined.sources]
            exact inScope_selectAtoms .optionalObjects used path.hops last
  | related used path present =>
      have joined := Link.joinedIn_selectAtoms .required used path.hops (.word "1") rfl rfl
      rw [parts, List.forall_mem_cons, List.forall_mem_singleton]
      refine ⟨⟨rfl, ?_⟩, ?_⟩
      · cases present with
        | true => exact positive
        | false => exact negative
      · rw [Part.InScope, joined.sources]
        exact inScope_selectAtoms .required used path.hops one

end Block

end Sql

namespace Predicate

/-- Hops of conditions one after the other get aliases one after the other. -/
theorem sources_numbered (used : Nat) (items : List Predicate) :
    ((numbered used items).flatMap fun item => Hop.sources item.1 item.2.hops) =
      Hop.sources used (listHops items) := by
  induction items generalizing used with
  | nil => rfl
  | cons item rest ih =>
      rw [numbered, List.flatMap_cons, ih, listHops, Hop.sources_append, length_hops]

theorem sources_parts (predicate : Predicate) :
    predicate.parts.flatMap Part.sources = Hop.sources 0 predicate.hops := by
  have blockwise (blocks : List Block) : (blocks.flatMap Block.parts).flatMap Part.sources =
      (blocks.filterMap Block.condition?).flatMap fun item =>
        Hop.sources item.1 item.2.hops := by
    induction blocks with
    | nil => rfl
    | cons block rest ih =>
        rw [List.flatMap_cons, List.flatMap_append, ih, Block.sources_parts, List.filterMap_cons]
        cases block.condition? <;> rfl
  rw [parts, blockwise, conditions_blocks, sources_numbered, listHops_conditions]

theorem inScope_parts (predicate : Predicate) : ∀ part ∈ predicate.parts, part.InScope := by
  intro part member
  obtain ⟨block, inside, here⟩ := List.mem_flatMap.mp member
  refine Block.inScope_parts ?_ part here
  rintro text rfl
  exact mem_separators_of_mem_blocks predicate 0 inside

/-- Every hop of a predicate gets the next alias together with its table, and no two aliases are the
same, nor one that of the root. Columns are read under the alias of the root or under an alias of
their own query. The query of a condition ties each hop to the one before, and the first to the
root. -/
theorem aliases_exact (predicate : Predicate) :
    String.join (predicate.parts.map Part.text) = predicate.fragment.sql ∧
      predicate.parts.flatMap Part.sources =
        (predicate.hops.zipIdx 1).map (fun hop => (hop.1.table, hop.2)) ∧
      (aliasName 0 :: (predicate.parts.flatMap Part.sources).map fun source =>
        aliasName source.2).Nodup ∧
      (∀ part ∈ predicate.parts, part.InScope) ∧
      ∀ before leaf after, predicate.conditions = before ++ leaf :: after → leaf.hops ≠ [] →
        ∃ front inside back, predicate.parts = front ++ .query inside :: back ∧
          Hop.JoinedIn (listHops before).length leaf.hops inside := by
  have sources := sources_parts predicate
  refine ⟨join_parts predicate, sources, ?_, inScope_parts predicate, ?_⟩
  · have names : (aliasName 0 :: (predicate.parts.flatMap Part.sources).map fun source =>
        aliasName source.2) = (List.range' 0 (predicate.hops.length + 1)).map aliasName := by
      rw [sources, List.range'_succ, List.map_cons, ← Hop.map_snd_sources, List.map_map]
      rfl
    rw [names]
    exact List.Nodup.map (fun slot other => aliasName_injective) List.nodup_range'
  · intro before leaf after cut crossed
    obtain ⟨front, block, back, all, -, here⟩ := split_blocks cut
    obtain ⟨left, inside, right, own, joined⟩ := Block.query_parts here crossed
    refine ⟨front.flatMap Block.parts ++ left, inside, right ++ back.flatMap Block.parts, ?_, joined⟩
    rw [parts, all, List.flatMap_append, List.flatMap_cons, own]
    simp only [List.append_assoc, List.cons_append]

theorem aliases_exact_nested :
    let leaf : Predicate := .column partnerName (.contains "50%")
    nested.conditions = nested.conditions.take 2 ++ leaf :: nested.conditions.drop 3 ∧
      leaf.hops ≠ [] ∧
      ∃ front inside back, nested.parts = front ++ .query inside :: back ∧
        Hop.JoinedIn 2 leaf.hops inside := by
  obtain ⟨-, -, -, -, each⟩ := aliases_exact nested
  intro leaf
  have cut : nested.conditions = nested.conditions.take 2 ++ leaf :: nested.conditions.drop 3 := rfl
  have crossed : leaf.hops ≠ [] := List.cons_ne_nil _ _
  exact ⟨cut, crossed, each _ leaf _ cut crossed⟩

end Predicate

end PartnerSearch
