import Mathlib.Data.List.Infix
import Mathlib.Data.List.TakeWhile
import PartnerSearch.Proofs.Directory.Execution
import PartnerSearch.Proofs.Sql.Meaning
import PartnerSearch.Proofs.Text.Encoding

set_option autoImplicit false

/-!
A pattern with an escaped needle finds the texts that contain the needle. No character of the needle
stands for another one, and none takes the meaning from the next.
-/

namespace PartnerSearch

open Text (bytes bytes_eq_utf8 utf8 utf8_append utf8_cons)

namespace Sql

/-- The needle stands in the text, up to the case of letters of the Latin alphabet. -/
def Contains (text needle : List Char) : Prop :=
  needle.map Char.toLower <:+: text.map Char.toLower

instance (text needle : List Char) : Decidable (Contains text needle) :=
  inferInstanceAs (Decidable (_ <:+: _))

namespace Pattern

theorem items?_literal {c : Char} (plain : isSpecial c = false) (rest : List Char) :
    items? (c :: rest) = (items? rest).map (.literal c :: ·) := by
  simp only [isSpecial, Bool.or_eq_false_iff, beq_eq_false_iff_ne] at plain
  obtain ⟨⟨percent, underscore⟩, backslash⟩ := plain
  rw [items?]
  · exact fun same _ => backslash same
  · exact fun _ _ same _ => backslash same
  · exact percent
  · exact underscore

/-- Each character of an escaped needle is read as itself. -/
theorem items?_escape (needle rest : List Char) :
    items? (escape needle ++ rest) = (items? rest).map (needle.map .literal ++ ·) := by
  induction needle with
  | nil => simp [escape]
  | cons c needle ih =>
      have step : items? (escape (c :: needle) ++ rest) =
          (items? (escape needle ++ rest)).map (.literal c :: ·) := by
        rw [escape, List.flatMap_cons, List.append_assoc]
        cases special : isSpecial c with
        | true => rfl
        | false => exact items?_literal special _
      rw [step, ih, Option.map_map]
      rfl

theorem items?_percent (rest : List Char) :
    items? ('%' :: rest) = (items? rest).map (.anyText :: ·) := rfl

theorem escape_cons (c : Char) (rest : List Char) :
    escape (c :: rest) = (if isSpecial c then ['\\', c] else [c]) ++ escape rest :=
  List.flatMap_cons

theorem isSpecial_readChar (c : Char) : isSpecial (readChar c) = isSpecial c := by
  unfold readChar
  split
  · rename_i unread
    rcases unread with rfl | rfl <;> decide
  · rfl

theorem map_readChar_escape (needle : List Char) :
    (escape needle).map readChar = escape (needle.map readChar) := by
  induction needle with
  | nil => rfl
  | cons c rest ih =>
      rw [escape_cons, List.map_append, ih, List.map_cons, escape_cons, isSpecial_readChar]
      split <;> rfl

/-- The first NUL of a needle ends the pattern, together with the percent sign at its end. -/
theorem takeWhile_escape (needle : List Char) :
    (escape needle ++ ['%']).takeWhile (· != '\x00') =
      escape (needle.takeWhile (· != '\x00')) ++ (if '\x00' ∈ needle then [] else ['%']) := by
  induction needle with
  | nil => decide
  | cons c rest ih =>
      by_cases stop : c = '\x00'
      · subst stop
        rw [if_pos List.mem_cons_self, escape_cons]
        rfl
      · have further : ('\x00' ∈ c :: rest) = ('\x00' ∈ rest) := by simp [Ne.symm stop]
        rw [escape_cons, List.takeWhile_cons_of_pos (by simpa using stop), escape_cons]
        simp only [further, List.append_assoc]
        rw [← ih]
        split <;> simp [stop]

/-- How a pattern for texts that contain the needle is read. -/
theorem characters_containing (needle : String) :
    characters (containing needle) =
      '%' :: (escape (characters needle) ++ if '\x00' ∈ needle.toList then [] else ['%']) := by
  have percent : readChar '%' = '%' := rfl
  rw [characters, containing, String.toList_ofList, List.cons_append,
    List.takeWhile_cons_of_pos rfl, takeWhile_escape, List.map_cons, List.map_append,
    map_readChar_escape, characters, percent]
  split <;> rfl

theorem anyRest_iff {test : List Char → Bool} {text : List Char} :
    anyRest test text = true ↔ ∃ rest, rest <:+ text ∧ test rest = true := by
  induction text with
  | nil => simp [anyRest]
  | cons c rest ih =>
      rw [anyRest, Bool.or_eq_true, ih]
      simp only [List.suffix_cons_iff, or_and_right, exists_or, exists_eq_left]

theorem anyRest_isEmpty (text : List Char) : anyRest List.isEmpty text = true :=
  anyRest_iff.mpr ⟨[], List.nil_suffix, rfl⟩

/-- Literals in front of any text match what begins with them. -/
theorem matchesItems_begins {needle text : List Char} :
    matchesItems (needle.map .literal ++ [.anyText]) text = true ↔
      needle.map Char.toLower <+: text.map Char.toLower := by
  induction needle generalizing text with
  | nil =>
      have all : matchesItems [.anyText] text = true := anyRest_isEmpty text
      simpa using all
  | cons c needle ih =>
      cases text with
      | nil => simp [matchesItems]
      | cons d rest =>
          rw [List.map_cons, List.cons_append, matchesItems, Bool.and_eq_true, beq_iff_eq, ih,
            List.map_cons, List.map_cons, List.cons_prefix_cons]

theorem matchesItems_whole {needle text : List Char} :
    matchesItems (needle.map .literal) text = true ↔
      needle.map Char.toLower = text.map Char.toLower := by
  induction needle generalizing text with
  | nil => cases text <;> simp [matchesItems]
  | cons c needle ih =>
      cases text with
      | nil => simp [matchesItems]
      | cons d rest =>
          rw [List.map_cons, matchesItems, Bool.and_eq_true, beq_iff_eq, ih, List.map_cons,
            List.map_cons, List.cons.injEq]

/-- A text ends with the needle. -/
theorem matchesItems_ends {needle text : List Char} :
    matchesItems (.anyText :: needle.map .literal) text = true ↔
      needle.map Char.toLower <:+ text.map Char.toLower := by
  rw [matchesItems, anyRest_iff]
  simp only [matchesItems_whole]
  constructor
  · intro found
    obtain ⟨rest, ending, same⟩ := found
    rw [same]
    exact ending.map _
  · intro ending
    obtain ⟨rest, inside, same⟩ := List.suffix_map_iff.mp ending
    exact ⟨rest, inside, same⟩

theorem matchesItems_contains {needle text : List Char} :
    matchesItems (.anyText :: (needle.map .literal ++ [.anyText])) text = true ↔
      Contains text needle := by
  rw [matchesItems, anyRest_iff, Contains, List.infix_iff_prefix_suffix]
  simp only [matchesItems_begins]
  constructor
  · intro found
    obtain ⟨rest, ending, begins⟩ := found
    exact ⟨rest.map Char.toLower, begins, ending.map _⟩
  · intro found
    obtain ⟨ending, begins, suffix⟩ := found
    obtain ⟨rest, inside, rfl⟩ := List.suffix_map_iff.mp suffix
    exact ⟨rest, inside, begins⟩

end Pattern

/-- What a search for a needle finds. Without a NUL in the needle these are the texts that contain it,
as patterns and texts are read. A NUL cuts off the end of the pattern, and the text has to end with
what is before. -/
def Finds (needle text : String) : Prop :=
  if '\x00' ∈ needle.toList then
    (Pattern.characters needle).map Char.toLower <:+ (Pattern.characters text).map Char.toLower
  else Contains (Pattern.characters text) (Pattern.characters needle)

theorem matchesPattern_containing (needle text : String) :
    matchesPattern (Pattern.containing needle) text = true ↔ Finds needle text := by
  have items : Pattern.items? (Pattern.characters (Pattern.containing needle)) =
      some (.anyText :: ((Pattern.characters needle).map .literal ++
        if '\x00' ∈ needle.toList then [] else [.anyText])) := by
    rw [Pattern.characters_containing, Pattern.items?_percent, Pattern.items?_escape]
    split <;> rfl
  rw [matchesPattern, items, Finds]
  dsimp only
  split
  · rw [List.append_nil]
    exact Pattern.matchesItems_ends
  · exact Pattern.matchesItems_contains

/-- A text that is read as it is. -/
def ReadsAsIs (text : String) : Prop :=
  ∀ c ∈ text.toList, c ≠ '\x00' ∧ c ≠ '\uFFFE' ∧ c ≠ '\uFFFF'

theorem Pattern.characters_eq_toList {text : String} (same : ReadsAsIs text) :
    characters text = text.toList := by
  have whole : text.toList.takeWhile (· != '\x00') = text.toList := by
    apply List.takeWhile_eq_self_iff.mpr
    intro c member
    simpa using (same c member).1
  have each : ∀ c ∈ text.toList, readChar c = c := by
    intro c member
    obtain ⟨-, first, second⟩ := same c member
    rw [readChar, if_neg (by simp [first, second])]
  rw [characters, whole]
  exact (List.map_congr_left each).trans (List.map_id' _)

theorem finds_iff_contains {needle text : String} (needleAsIs : ReadsAsIs needle)
    (textAsIs : ReadsAsIs text) : Finds needle text ↔ Contains text.toList needle.toList := by
  have uncut : '\x00' ∉ needle.toList := fun member => (needleAsIs _ member).1 rfl
  rw [Finds, if_neg uncut, Pattern.characters_eq_toList needleAsIs,
    Pattern.characters_eq_toList textAsIs]

/-- The needle is short enough for a pattern that is applied. -/
def Applies (needle : String) : Prop :=
  (bytes needle).length + needle.toList.countP Pattern.isSpecial + 2 ≤ Pattern.sizeLimit

instance (needle : String) : Decidable (Applies needle) :=
  inferInstanceAs (Decidable (_ ≤ _))

/-- The pattern has a byte more for each special character of the needle, and two at its ends. -/
theorem Pattern.length_containing (needle : String) :
    (bytes (containing needle)).length =
      (bytes needle).length + needle.toList.countP isSpecial + 2 := by
  have escaped (chars : List Char) :
      (utf8 (escape chars)).length = (utf8 chars).length + chars.countP isSpecial := by
    induction chars with
    | nil => rfl
    | cons c rest ih =>
        have backslash : (String.utf8EncodeChar '\\').length = 1 := by decide
        rw [escape_cons, utf8_append, List.length_append, ih, List.countP_cons, utf8_cons,
          List.length_append]
        cases isSpecial c with
        | true => simp [utf8_cons, backslash]; omega
        | false => simp [utf8_cons]; omega
  have percent : (utf8 ['%']).length = 1 := by decide
  rw [bytes_eq_utf8, bytes_eq_utf8, containing, String.toList_ofList, utf8_append, List.length_append,
    ← List.singleton_append, utf8_append, List.length_append, escaped, percent]
  omega

theorem isTooLong_containing {needle : String} :
    Pattern.isTooLong (Pattern.containing needle) = false ↔ Applies needle := by
  rw [Pattern.isTooLong, decide_eq_false_iff_not, Nat.not_lt, Pattern.length_containing, Applies]

theorem like_containing {needle text : String} :
    like (Pattern.containing needle) (.text text) = some true ↔ Applies needle ∧ Finds needle text := by
  rw [← isTooLong_containing, ← matchesPattern_containing, like]
  cases Pattern.isTooLong (Pattern.containing needle) <;> simp

/-- Only text is found, and what is unset never is. -/
theorem holds_contains (needle : String) (cell : Cell) :
    (satisfies (.contains needle) cell).holds = true ↔
      Applies needle ∧ ∃ text, cell = .text text ∧ Finds needle text := by
  rw [satisfies, Truth.holds_eq_true]
  cases cell with
  | text text => simp [like_containing]
  | _ => simp [like]

end Sql

open Sql

theorem exists_mem_flatMap {α β : Type} {items : List α} {next : α → List β} {holds : β → Prop} :
    (∃ found ∈ items.flatMap next, holds found) ↔
      ∃ item ∈ items, ∃ found ∈ next item, holds found := by
  constructor
  · intro reached
    obtain ⟨found, member, there⟩ := reached
    obtain ⟨item, inside, here⟩ := List.mem_flatMap.mp member
    exact ⟨item, inside, found, here, there⟩
  · intro reached
    obtain ⟨item, inside, found, here, there⟩ := reached
    exact ⟨found, List.mem_flatMap.mpr ⟨item, inside, here⟩, there⟩

namespace Hop

variable {tables : Tables}

/-- What is not true of an absent object is true of a row that is reached only if it is true of the
end of a chain. -/
theorem exists_mem_reachFurther {holds : Row → Prop} (absent : ¬holds Row.unset) {hops : List Hop}
    {row : Row} : (∃ found ∈ reachFurther tables .optionalObjects hops row, holds found) ↔
      ∃ target, Chain tables hops row target ∧ holds target := by
  induction hops generalizing row with
  | nil => simp [reachFurther, chain_nil]
  | cons hop rest ih =>
      have nothing : ¬∃ target, Chain tables rest Row.unset target ∧ holds target := by
        intro reached
        obtain ⟨target, chain, there⟩ := reached
        cases rest with
        | nil =>
            cases chain
            exact absent there
        | cons next others => exact no_chain_unset (List.cons_ne_nil next others) target chain
      rw [exists_chain_cons, ← @exists_mem_joined tables (JoinMode.kind .optionalObjects hop.cardinality)
        hop row _ nothing]
      simp only [reachFurther, exists_mem_flatMap, ih]

theorem exists_mem_reach {holds : Row → Prop} (absent : ¬holds Row.unset) {hops : List Hop}
    {row : Row} : (∃ found ∈ reach tables .optionalObjects hops row, holds found) ↔
      ∃ target, Chain tables hops row target ∧ holds target := by
  cases hops with
  | nil => simp [reach, chain_nil]
  | cons hop rest =>
      rw [exists_chain_cons]
      simp only [reach, exists_mem_flatMap, exists_mem_reachFurther absent]

end Hop

namespace ColumnPath

variable (tables : Tables) (row : Row) (path : ColumnPath) (needle : String)

/-- The needle is found in the column of an element. A path of objects has one row at most, and reads
it from there. -/
def FindsText : Prop :=
  if path.isQuantified then
    ∃ target text, Hop.Chain tables path.hops row target ∧ target path.column = .text text ∧
      Finds needle text
  else
    ∃ target text, (Hop.reach tables .optionalObjects path.hops row).head? = some target ∧
      target path.column = .text text ∧ Finds needle text

theorem holds_truth_contains : (path.truth tables row (.contains needle)).holds = true ↔
    Applies needle ∧ path.FindsText tables row needle := by
  unfold truth FindsText
  dsimp only
  split
  · have absent : ¬(satisfies (.contains needle) (Row.unset path.column)).holds = true := by
      rw [holds_contains]
      rintro ⟨-, text, ⟨⟩, -⟩
    rw [Truth.holds_some, List.any_eq_true, Hop.exists_mem_reach absent]
    simp only [holds_contains]
    constructor
    · rintro ⟨target, chain, applies, text, stored, found⟩
      exact ⟨applies, target, text, chain, stored, found⟩
    · rintro ⟨applies, target, text, chain, stored, found⟩
      exact ⟨target, chain, applies, text, stored, found⟩
  · rw [holds_contains]
    refine and_congr_right fun _ => ?_
    cases (Hop.reach tables .optionalObjects path.hops row).head? with
    | none => simp
    | some target => simp

end ColumnPath

namespace Sql

/-- `contains` is a search for a substring in texts as the engine reads them: a needle that is short enough
is found where it stands, up to the case of letters, if the texts have no character that is read as
another one or not at all. A longer needle is refused as soon as a row comes to it. -/
theorem contains_exact (needle : String) :
    (∀ text, like (Pattern.containing needle) (.text text) = some true ↔
        Applies needle ∧ Finds needle text) ∧
      (∀ text, Applies needle → ReadsAsIs needle → ReadsAsIs text →
        (like (Pattern.containing needle) (.text text) = some true ↔
          Contains text.toList needle.toList)) ∧
      (∀ cell, (satisfies (.contains needle) cell).holds = true ↔
        Applies needle ∧ ∃ text, cell = .text text ∧ Finds needle text) ∧
      (∀ tables row path,
        (Predicate.column path (.contains needle)).formula.selects tables row = true ↔
          Applies needle ∧ path.FindsText tables row needle) ∧
      ∀ (directory : Directory) (path : ColumnPath), directory.dropped = [] →
        path.hops.length ≤ Path.segmentLimit → ¬Applies needle →
        (∃ partner ∈ directory.partners, path.isTested directory.tables partner.row = true) →
        directory.list (.column path (.contains needle)) none none = .error (.excess .pattern) ∧
          directory.count (.column path (.contains needle)) = .error (.excess .pattern) := by
  refine ⟨fun text => like_containing, ?_, holds_contains needle, ?_, ?_⟩
  · intro text applies needleAsIs textAsIs
    rw [like_containing, and_iff_right applies, finds_iff_contains needleAsIs textAsIs]
  · intro tables row path
    rw [Formula.selects_formula, Predicate.holds, Predicate.truth]
    exact path.holds_truth_contains tables row needle
  · intro directory path intact short tooLong tested
    have long : (Condition.contains needle).isTooLong = true := by
      rw [← isTooLong_containing, Bool.not_eq_false] at tooLong
      exact tooLong
    have overrun : directory.overruns (.column path (.contains needle)) = true := by
      rw [Directory.overruns_column, long, Bool.true_and, List.any_eq_true]
      exact tested
    have prepared :
        directory.prepare (.column path (.contains needle)) Directory.pagingOperands = .ok () :=
      (Directory.prepare_column intact short).mpr
        (by decide : 1 + Directory.pagingOperands ≤ operandLimit)
    exact Directory.refused_of_overruns prepared overrun

theorem contains_exact_special :
    Applies "0%_\\É" ∧ ReadsAsIs "0%_\\É" ∧ ReadsAsIs "A100%_\\É" ∧
      like (Pattern.containing "0%_\\É") (.text "A100%_\\É") = some true ∧
      ¬Contains "A100%_\\é".toList "0%_\\É".toList := by
  have applies : Applies "0%_\\É" := by decide +kernel
  have needle : ReadsAsIs "0%_\\É" := by simp [ReadsAsIs]
  have text : ReadsAsIs "A100%_\\É" := by simp [ReadsAsIs]
  have inside : Contains "A100%_\\É".toList "0%_\\É".toList := by decide
  exact ⟨applies, needle, text,
    ((contains_exact "0%_\\É").2.1 _ applies needle text).mpr inside, by decide⟩

/-- A NUL in the needle and two characters that are read as one stand in the way of a test for a
substring character by character. -/
theorem contains_unread :
    like (Pattern.containing "a\x00b") (.text "xa") = some true ∧
      ¬Contains "xa".toList "a\x00b".toList ∧
      like (Pattern.containing "\uFFFF") (.text "\uFFFE") = some true ∧
      ¬Contains "\uFFFE".toList "\uFFFF".toList := by
  decide +kernel

end Sql

end PartnerSearch
