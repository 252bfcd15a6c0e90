import PartnerSearch.Proofs.Predicate.NormalForm
import PartnerSearch.Proofs.Schema.Names
import PartnerSearch.Proofs.Sql.Lexer

set_option autoImplicit false

/-!
The punctuation of a text. In the text of a normal predicate no parentheses are empty and nothing is
equal to one. A text is read character by character, with what its end may be the beginning of.
-/

namespace PartnerSearch.Sql

/-- What the last characters read may be the beginning of. -/
inductive Mark where
  | other
  | opening
  | equals
  | equalsBlank
  deriving DecidableEq

namespace Mark

def all : List Mark := [.other, .opening, .equals, .equalsBlank]

/-- Reads a character, unless it closes empty parentheses or is one behind an equals sign. -/
def step (mark : Mark) (c : Char) : Option Mark :=
  if mark = .opening ∧ c = ')' ∨ mark = .equalsBlank ∧ c = '1' then none
  else if c = '(' then some .opening
  else if c = '=' then some .equals
  else if mark = .equals ∧ c = ' ' then some .equalsBlank
  else some .other

def run (mark : Mark) (text : String) : Option Mark := text.toList.foldlM step mark

theorem run_append (mark : Mark) (first second : String) :
    mark.run (first ++ second) = (mark.run first).bind fun next => next.run second := by
  rw [run, String.toList_append, List.foldlM_append]
  rfl

theorem foldlM_eq_none_of_infix {part chars : List Char}
    (refused : ∀ mark : Mark, part.foldlM step mark = none) (inside : part <:+: chars)
    (mark : Mark) : chars.foldlM step mark = none := by
  obtain ⟨before, after, rfl⟩ := inside
  rw [List.foldlM_append, List.foldlM_append]
  cases before.foldlM step mark with
  | none => rfl
  | some next =>
      change (part.foldlM step next) >>= _ = _
      rw [refused next]
      rfl

end Mark

/-- The text can be read after any other. -/
def Leads (text : String) : Prop := ∀ mark : Mark, ∃ next, mark.run text = some next

/-- The text can be read after any other, and begins nothing at its end. -/
def Passes (text : String) : Prop := ∀ mark : Mark, mark.run text = some .other

/-- The text can be read where nothing has begun, and begins nothing at its end. -/
def Keeps (text : String) : Prop := Mark.other.run text = some .other

section Texts

variable {first second : String}

theorem Passes.leads (passes : Passes first) : Leads first := fun mark => ⟨.other, passes mark⟩

theorem Passes.keeps (passes : Passes first) : Keeps first := passes .other

theorem Leads.append (leads : Leads first) (further : Leads second) : Leads (first ++ second) := by
  intro mark
  obtain ⟨next, same⟩ := leads mark
  obtain ⟨last, ends⟩ := further next
  exact ⟨last, by rw [Mark.run_append, same, Option.bind_some, ends]⟩

theorem Leads.append_passes (leads : Leads first) (passes : Passes second) :
    Passes (first ++ second) := by
  intro mark
  obtain ⟨next, same⟩ := leads mark
  rw [Mark.run_append, same, Option.bind_some, passes next]

theorem Passes.append (passes : Passes first) (keeps : Keeps second) : Passes (first ++ second) := by
  intro mark
  rw [Mark.run_append, passes mark, Option.bind_some]
  exact keeps

theorem Keeps.append (keeps : Keeps first) (further : Keeps second) : Keeps (first ++ second) := by
  rw [Keeps, Mark.run_append, keeps, Option.bind_some]
  exact further

end Texts

theorem Mark.mem_all (mark : Mark) : mark ∈ all := by cases mark <;> decide

instance (text : String) : Decidable (Leads text) :=
  decidable_of_iff (∀ mark ∈ Mark.all, (mark.run text).isSome = true) <| by
    simp [Leads, Option.isSome_iff_exists, Mark.mem_all]

instance (text : String) : Decidable (Passes text) :=
  decidable_of_iff (∀ mark ∈ Mark.all, mark.run text = some .other) <| by
    simp [Passes, Mark.mem_all]

instance (text : String) : Decidable (Keeps text) :=
  inferInstanceAs (Decidable (_ = _))

/-- The characters that the punctuation of a text is made of. -/
def punctuation : List Char := ['(', ')', '=']

theorem Mark.step_other {c : Char} (plain : c ∉ punctuation) : step .other c = some .other := by
  simp only [punctuation, List.mem_cons, List.not_mem_nil, or_false, not_or] at plain
  simp [step, plain]

theorem foldlM_other {chars : List Char} (plain : ∀ c ∈ chars, c ∉ punctuation) :
    chars.foldlM Mark.step .other = some .other := by
  induction chars with
  | nil => rfl
  | cons c rest ih =>
      obtain ⟨first, others⟩ := List.forall_mem_cons.mp plain
      rw [List.foldlM_cons, Mark.step_other first]
      exact ih others

/-- A name without such characters. -/
def IsCalm (name : String) : Prop := ∀ c ∈ name.toList, c ∉ punctuation

-- by the list of characters, not by all characters there are
instance (name : String) : Decidable (IsCalm name) :=
  List.decidableBAll (· ∉ punctuation) name.toList

theorem IsCalm.keeps {name : String} (calm : IsCalm name) : Keeps name := foldlM_other calm

theorem passes_aliasName (slot : Nat) : Passes (aliasName slot) := by
  have digits : ∀ c ∈ Nat.toDigits 10 slot, c ∉ punctuation := by
    intro c member mark
    have digit : c.isDigit = true := Nat.isDigit_of_mem_toDigits (by decide) (by decide) member
    have none_digit : punctuation.all (fun c => !c.isDigit) = true := by decide
    have other := List.all_eq_true.mp none_digit c mark
    rw [digit] at other
    cases other
  intro mark
  rw [Mark.run, toList_aliasName, List.foldlM_cons]
  have start : mark.step 't' = some .other := by cases mark <;> decide
  rw [start]
  exact foldlM_other digits

theorem passes_reference {reference : ColumnRef} (column : Keeps reference.column) :
    Passes reference.text := by
  have dot : Keeps "." := by decide
  exact ((passes_aliasName reference.slot).append dot).append column

namespace Link

/-- The table and the columns of a link end in nothing that has begun. -/
def Keep (link : Link) : Prop := Keeps link.table ∧ Keeps link.remote ∧ Keeps link.home

theorem keeps_source {link : Link} (keep : link.Keep) : Keeps link.source := by
  have blank : Keeps " " := by decide
  exact (keep.1.append blank).append (passes_aliasName link.slot).keeps

theorem passes_equality {link : Link} (keep : link.Keep) : Passes link.equality := by
  have equals : Leads " = " := by decide
  have own : Passes (ColumnRef.mk link.slot link.remote).text := passes_reference keep.2.1
  have outer : Passes (ColumnRef.mk link.parent link.home).text := passes_reference keep.2.2
  exact (own.leads.append equals).append_passes outer

theorem keeps_joined {link : Link} (keep : link.Keep) : Keeps link.joined := by
  have word : Keeps (joinWord link.kind) := by cases link.kind <;> decide
  have on : Keeps " ON " := by decide
  exact ((word.append (keeps_source keep)).append on).append (passes_equality keep).keeps

theorem keeps_fromText {links : List Link} (keep : ∀ link ∈ links, link.Keep) :
    Keeps (fromText links) := by
  cases links with
  | nil => exact rfl
  | cons first rest =>
      obtain ⟨own, others⟩ := List.forall_mem_cons.mp keep
      refine (keeps_source own).append ?_
      clear keep own
      induction rest with
      | nil => exact rfl
      | cons link rest ih =>
          obtain ⟨here, later⟩ := List.forall_mem_cons.mp others
          rw [List.map_cons, String.join_cons]
          exact (keeps_joined here).append (ih later)

theorem passes_selectText {what : String} (said : Keeps what) {links : List Link}
    (keep : ∀ link ∈ links, link.Keep) : Passes (selectText what links) := by
  have select : Passes "SELECT " := by decide
  have source : Keeps " FROM " := by decide
  have where_ : Keeps " WHERE " := by decide
  have tied : Keeps (whereText links) := by
    cases links with
    | nil => exact rfl
    | cons first rest => exact (passes_equality (keep first List.mem_cons_self)).keeps
  exact ((((select.append said).append source).append (keeps_fromText keep)).append where_).append
    tied

theorem keep_ofHops (mode : JoinMode) {hops : List Hop}
    (keep : ∀ name ∈ hops.flatMap Hop.names, Keeps name) (used : Nat) :
    ∀ link ∈ ofHops mode used hops, link.Keep := by
  apply forall_ofHops
  intro hop member kind parent slot
  have names : ∀ name ∈ hop.names, Keeps name :=
    fun name named => keep name (List.mem_flatMap.mpr ⟨hop, member, named⟩)
  simpa [Hop.names, Keep, ofHop] using names

end Link

theorem passes_listPieces {values : List Value} (some_value : values ≠ []) :
    Passes (Fragment.ofPieces (listPieces values)).sql := by
  have placeholder : Passes "?" := by decide
  match values with
  | [] => exact absurd rfl some_value
  | [value] => exact placeholder
  | value :: next :: rest =>
      have comma : Keeps ", " := by decide
      have later := passes_listPieces (List.cons_ne_nil next rest)
      rw [listPieces, Fragment.sql_cons, Fragment.sql_cons]
      exact placeholder.append (comma.append later.keeps)

/-- A condition after what it is put on. -/
theorem passes_conditionPieces {subject : String} (passes : Passes subject) {condition : Condition}
    (some_value : condition ≠ .within []) :
    Passes (Fragment.ofPieces (conditionPieces subject condition)).sql := by
  cases condition with
  | within values =>
      have nonempty : values ≠ [] := fun none => some_value (none ▸ rfl)
      have opening : Leads " IN (" := by decide
      have closing : Keeps ")" := by decide
      have list := (opening.append_passes (passes_listPieces nonempty)).append closing
      simp only [conditionPieces, List.cons_append, Fragment.sql_cons, Fragment.sql_append,
        Fragment.sql_nil, Piece.text, String.append_empty, String.append_assoc] at list ⊢
      exact passes.append list.keeps
  | compare comparison value =>
      have tested : Keeps (" " ++ (comparisonWord comparison ++ (" " ++ "?"))) := by
        cases comparison <;> decide
      simp only [conditionPieces, Fragment.sql_cons, Fragment.sql_nil, Piece.text,
        String.append_empty, String.append_assoc]
      exact passes.append tested
  | contains needle =>
      have like : Keeps (" LIKE " ++ ("?" ++ " ESCAPE '\\'")) := by decide
      simp only [conditionPieces, Fragment.sql_cons, Fragment.sql_nil, Piece.text,
        String.append_empty, String.append_assoc]
      exact passes.append like
  | set =>
      have set : Keeps " IS NOT NULL" := by decide
      simp only [conditionPieces, Fragment.sql_cons, Fragment.sql_nil, Piece.text,
        String.append_empty]
      exact passes.append set
  | notSet =>
      have notSet : Keeps " IS NULL" := by decide
      simp only [conditionPieces, Fragment.sql_cons, Fragment.sql_nil, Piece.text,
        String.append_empty]
      exact passes.append notSet
  | between low high =>
      have between : Keeps (" BETWEEN " ++ ("?" ++ (" AND " ++ "?"))) := by decide
      simp only [conditionPieces, Fragment.sql_cons, Fragment.sql_nil, Piece.text,
        String.append_empty, String.append_assoc]
      exact passes.append between

namespace Formula

theorem passes_itemPieces (connective : Connective) {items : List Formula} (some_item : items ≠ [])
    (each : ∀ item ∈ items, Passes (Fragment.ofPieces item.pieces).sql) :
    Passes (Fragment.ofPieces (itemPieces (connectiveWord connective) items)).sql := by
  have word : Keeps (connectiveWord connective) := by cases connective <;> decide
  match items with
  | [] => exact absurd rfl some_item
  | [item] => exact each item (List.mem_singleton_self item)
  | item :: next :: rest =>
      obtain ⟨first, others⟩ := List.forall_mem_cons.mp each
      have later := passes_itemPieces connective (List.cons_ne_nil next rest) others
      rw [itemPieces, Fragment.sql_append, Fragment.sql_cons]
      exact first.append (word.append later.keeps)

theorem passes_ofColumn (used : Nat) {path : ColumnPath} {condition : Condition}
    (keep : ∀ name ∈ path.column :: path.hops.flatMap Hop.names, Keeps name)
    (some_value : condition ≠ .within []) :
    Passes (Fragment.ofPieces (ofColumn used path condition).pieces).sql := by
  obtain ⟨column, hops⟩ := List.forall_mem_cons.mp keep
  have links := Link.keep_ofHops .optionalObjects hops used
  unfold ofColumn
  dsimp only
  split
  · exact passes_conditionPieces (passes_reference column) some_value
  · have reference : Passes (ColumnRef.mk (used + path.hops.length) path.column).text :=
      passes_reference column
    have closing : Keeps ")" := by decide
    split
    · have opening : Leads "EXISTS (" := by decide
      have and_ : Keeps " AND " := by decide
      have one : Keeps "1" := by decide
      have tested := passes_conditionPieces reference some_value
      have query := (opening.append_passes (Link.passes_selectText one links)).append and_
      simp only [pieces, List.cons_append, Fragment.sql_cons, Fragment.sql_append,
        Fragment.sql_nil, Piece.text, String.append_empty]
      exact query.append (tested.append closing).keeps
    · have opening : Leads "(" := by decide
      have query := opening.append_passes (Link.passes_selectText reference.keeps links)
      exact passes_conditionPieces (query.append closing) some_value

theorem passes_ofRelation (used : Nat) {path : RelationPath} (wanted : Bool)
    (keep : ∀ name ∈ path.hops.flatMap Hop.names, Keeps name) :
    Passes (Fragment.ofPieces (ofRelation used path wanted).pieces).sql := by
  have links := Link.keep_ofHops .required keep used
  have one : Keeps "1" := by decide
  have closing : Keeps ")" := by decide
  have query {words : String} (opening : Leads words) :
      Passes (words ++ Link.selectText "1" (Link.ofHops .required used path.hops) ++ ")") :=
    (opening.append_passes (Link.passes_selectText one links)).append closing
  have opening : Leads "EXISTS (" := by decide
  have absent : Leads "NOT EXISTS (" := by decide
  cases wanted with
  | true => simpa [ofRelation, pieces, Fragment.ofPieces, Piece.text] using query opening
  | false => simpa [ofRelation, pieces, Fragment.ofPieces, Piece.text] using query absent

/-- The text of a normal predicate passes wherever it stands. -/
theorem passes_ofPredicate {predicate : Predicate} (normal : predicate.Normal)
    (keep : ∀ name ∈ predicate.names, Keeps name) (used : Nat) :
    Passes (Fragment.ofPieces (ofPredicate used predicate).pieces).sql := by
  induction normal generalizing used with
  | column some_value => exact passes_ofColumn used keep some_value
  | @related path present => exact passes_ofRelation used present keep
  | @group connective items several each ih =>
      have passes : ∀ formula ∈ ofPredicates used items,
          Passes (Fragment.ofPieces formula.pieces).sql := by
        refine forall_mem_ofPredicates (fun item member slots => ih item member ?_ slots) used
        intro name named
        exact keep name (Predicate.mem_listNames.mpr ⟨item, member, named⟩)
      have some_item : ofPredicates used items ≠ [] := by
        cases items with
        | nil => cases several
        | cons item rest => exact List.cons_ne_nil _ _
      have opening : Leads "(" := by decide
      have closing : Keeps ")" := by decide
      have inner := passes_itemPieces connective some_item passes
      simp only [ofPredicate, pieces, List.cons_append, Fragment.sql_cons, Fragment.sql_append,
        Fragment.sql_nil, Piece.text, String.append_empty]
      exact opening.append_passes (inner.append closing)

end Formula

end PartnerSearch.Sql

namespace PartnerSearch

open Sql

/-- In the text of a normal predicate over calm names no parentheses are empty, and nothing is equal
to one. -/
theorem Predicate.Normal.not_infix {predicate : Predicate} (normal : predicate.Normal)
    (calm : ∀ name ∈ predicate.names, IsCalm name) {part : List Char}
    (refused : ∀ mark : Mark, part.foldlM Mark.step mark = none) :
    ¬part <:+: predicate.fragment.sql.toList := by
  intro inside
  have passes := Formula.passes_ofPredicate normal (fun name named => (calm name named).keeps) 0
  have failed := Mark.foldlM_eq_none_of_infix refused inside .other
  have read : Mark.other.run predicate.fragment.sql = some .other := passes .other
  rw [Mark.run, failed] at read
  cases read

end PartnerSearch
