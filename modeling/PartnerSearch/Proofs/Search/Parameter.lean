import Mathlib.Data.List.Forall2
import Mathlib.Data.List.TakeWhile
import PartnerSearch.Proofs.Base64.Inverse
import PartnerSearch.Proofs.Search.Printed
import PartnerSearch.Proofs.Text.Trimming
import PartnerSearch.Search.Error
import PartnerSearch.Search.Parameter

set_option autoImplicit false

/-!
The texts of a search parameter. A document has several base64 texts; each of them is read as that
document, blanks around it or not, and nothing else is.
-/

namespace PartnerSearch

open Text (Bytes bytes trim)
open Json (run)

namespace Search

theorem byte_of_blank {b : UInt8} (blank : Json.isBlankByte b = true) :
    b.toNat < 0x80 ∧ b.toNat % 64 ≠ 62 := by
  simp only [Json.isBlankByte, Bool.or_eq_true, beq_iff_eq] at blank
  rcases blank with ((rfl | rfl) | rfl) | rfl <;> decide

theorem ascii_of_skipBlanks {document inside : Bytes} {c : UInt8}
    (opening : Json.skipBlanks document = c :: inside) (ascii : c.toNat < 0x80) :
    ∃ b rest, document = b :: rest ∧ b.toNat < 0x80 := by
  cases document with
  | nil => cases opening
  | cons b rest =>
      refine ⟨b, rest, rfl, ?_⟩
      cases blank : Json.isBlankByte b with
      | true => exact (byte_of_blank blank).1
      | false =>
          rw [Json.skipBlanks_cons_of_not_blank blank] at opening
          cases opening
          exact ascii

theorem first_of_ofDocument {document : Bytes} {search : Search}
    (read : ofDocument document = .ok search) : ∃ b rest, document = b :: rest ∧ b.toNat < 0x80 := by
  obtain ⟨inside, rest, -, ⟨opening, -⟩ | ⟨opening, -⟩⟩ := ofDocument_ok read
  · exact ascii_of_skipBlanks opening (by decide)
  · exact ascii_of_skipBlanks opening (by decide)

theorem keepsEnd_filtersReader : Json.KeepsEnd Wire.filtersReader := by
  intro input clauses rest read
  obtain ⟨value, found, -⟩ := Wire.filtersReader_ok read
  exact Json.keepsEnd_readValue Json.read _ found

/-- A document ends with its closing bracket or brace and blanks. -/
theorem closing_of_ofDocument {document : Bytes} {search : Search}
    (read : ofDocument document = .ok search) :
    ∃ c rest, c :: rest <:+ document ∧ (c = 0x5D ∨ c = 0x7D) ∧ Json.skipBlanks rest = [] := by
  obtain ⟨inside, rest, ended, ⟨opening, envelope⟩ | ⟨opening, envelope⟩⟩ := ofDocument_ok read
  · have inner := Json.rest_suffix_of_skipBlanks opening
    rcases Wire.readArrayEnvelope_ok envelope with ⟨-, closing⟩ |
      ⟨b, tail, middle, -, -, filters, closing⟩
    · exact ⟨0x5D, rest, (Json.suffix_of_skipBlanks closing).trans inner, .inl rfl, ended⟩
    · have onFilters := keepsEnd_filtersReader filters
      exact ⟨0x5D, rest, ((Json.suffix_of_skipBlanks closing).trans onFilters).trans inner, .inl rfl,
        ended⟩
  · have inner := Json.rest_suffix_of_skipBlanks opening
    rcases Wire.readObjectEnvelope_ok envelope with ⟨-, none⟩ |
      ⟨after, start, left, named, colon, filters, none⟩
    · have closing := Json.skipBlanks_of_noFirstName none
      exact ⟨0x7D, rest, (Json.suffix_of_skipBlanks closing).trans inner, .inr rfl, ended⟩
    · have closing := Json.skipBlanks_of_noNextName none
      have onFilters := keepsEnd_filtersReader filters
      have onColon := Json.keepsEnd_readColon colon
      have onName := Json.keepsEnd_readFirstName named
      exact ⟨0x7D, rest, ((((Json.suffix_of_skipBlanks closing).trans onFilters).trans onColon).trans
        onName).trans inner, .inr rfl, ended⟩

theorem last_of_ofDocument {document : Bytes} {search : Search}
    (read : ofDocument document = .ok search) : ∀ b ∈ document.getLast?, b.toNat % 64 ≠ 62 := by
  obtain ⟨c, rest, ⟨before, rfl⟩, closing, ended⟩ := closing_of_ofDocument read
  intro b last
  rw [List.getLast?_append_cons, Option.mem_def] at last
  have member : b ∈ c :: rest := List.mem_of_getLast? last
  rcases List.mem_cons.mp member with rfl | blank
  · rcases closing with rfl | rfl <;> decide
  · have blanks := List.dropWhile_eq_nil_iff.mp ended
    exact (byte_of_blank (blanks b blank)).2

/-- A symbol of the standard alphabet as it may arrive: a plus sign may have become a space. -/
def ArrivesAs (symbol b : UInt8) : Prop :=
  b = symbol ∨ (symbol = '+'.toUInt8 ∧ b = ' '.toUInt8)

/-- The base64 texts of a document: all of it in one alphabet, with some plus signs of the standard one
as spaces, and as much of the padding as one likes. -/
def Spells (text document : Bytes) : Prop :=
  ∃ symbols count, text = symbols ++ List.replicate count Base64.padding ∧
    count ≤ Base64.canonicalPadding document.length ∧
    (List.Forall₂ ArrivesAs (Base64.encode .standard document) symbols ∨
      symbols = Base64.encode .urlSafe document)

/-- A document is no longer than its base64 texts. -/
theorem Spells.length_le {text document : Bytes} (spelled : Spells text document) :
    document.length ≤ text.length := by
  obtain ⟨symbols, count, rfl, -, written⟩ := spelled
  have encoded : symbols.length = (document.length * 4 + 2) / 3 := by
    rcases written with standard | rfl
    · rw [← standard.length_eq, Base64.length_encode]
    · rw [Base64.length_encode]
  rw [List.length_append, encoded]
  omega

theorem mem_encode {alphabet : Base64.Alphabet} {document : Bytes} {symbol : UInt8}
    (member : symbol ∈ Base64.encode alphabet document) :
    ∃ value < 64, symbol = alphabet.symbol value := by
  rw [Base64.encode_eq_map] at member
  obtain ⟨value, within, rfl⟩ := List.mem_map.mp member
  exact ⟨value, Base64.lt_of_mem_sextets value within, rfl⟩

theorem symbol_ne_space (alphabet : Base64.Alphabet) {value : Nat} (small : value < 64) :
    alphabet.symbol value ≠ ' '.toUInt8 := by
  revert value
  cases alphabet <;> decide

theorem restorePlus_eq_iff {symbols text : Bytes} (noSpace : ' '.toUInt8 ∉ symbols) :
    restorePlus text = symbols ↔ List.Forall₂ ArrivesAs symbols text := by
  induction text generalizing symbols with
  | nil =>
      rw [List.forall₂_nil_right_iff]
      exact eq_comm
  | cons b text ih =>
      rw [List.forall₂_cons_right_iff]
      constructor
      · rintro rfl
        have later : ' '.toUInt8 ∉ restorePlus text :=
          fun member => noSpace (List.mem_cons_of_mem _ member)
        refine ⟨_, _, ?_, (ih later).mp rfl, rfl⟩
        show ArrivesAs (if b = ' '.toUInt8 then '+'.toUInt8 else b) b
        by_cases space : b = ' '.toUInt8
        · rw [if_pos space]
          exact .inr ⟨rfl, space⟩
        · rw [if_neg space]
          exact .inl rfl
      · rintro ⟨symbol, others, arrives, rest, rfl⟩
        have later := (ih fun member => noSpace (List.mem_cons_of_mem _ member)).mpr rest
        have first : ' '.toUInt8 ≠ symbol := fun same => noSpace (same ▸ List.mem_cons_self)
        show (if b = ' '.toUInt8 then '+'.toUInt8 else b) :: restorePlus text = _
        rw [later]
        rcases arrives with rfl | ⟨rfl, rfl⟩
        · rw [if_neg fun same => first same.symm]
        · rw [if_pos rfl]

theorem restorePlus_padding {text : Bytes} {count : Nat}
    (restored : restorePlus text = List.replicate count Base64.padding) :
    text = List.replicate count Base64.padding := by
  apply List.eq_replicate_iff.mpr
  have length := congrArg List.length restored
  rw [restorePlus, List.length_map, List.length_replicate] at length
  refine ⟨length, fun b member => ?_⟩
  have image : (if b = ' '.toUInt8 then '+'.toUInt8 else b) ∈ restorePlus text :=
    List.mem_map_of_mem member
  rw [restored] at image
  have padding := List.eq_of_mem_replicate image
  split at padding
  · exact absurd padding (by decide)
  · exact padding

theorem noSpace_encode (alphabet : Base64.Alphabet) (document : Bytes) :
    ' '.toUInt8 ∉ Base64.encode alphabet document := by
  intro member
  obtain ⟨value, small, same⟩ := mem_encode member
  exact symbol_ne_space alphabet small same.symm

/-- What the standard alphabet reads, spaces taken for plus signs. -/
theorem decode_restorePlus {text document : Bytes} :
    Base64.decode .standard (restorePlus text) = .ok document ↔
      ∃ symbols count, text = symbols ++ List.replicate count Base64.padding ∧
        count ≤ Base64.canonicalPadding document.length ∧
        List.Forall₂ ArrivesAs (Base64.encode .standard document) symbols := by
  have noSpace := noSpace_encode .standard document
  rw [Base64.decode_eq_ok]
  constructor
  · rintro ⟨count, bound, restored⟩
    obtain ⟨symbols, rest, rfl, first, second⟩ := List.map_eq_append_iff.mp restored
    have padded := restorePlus_padding second
    exact ⟨symbols, count, by rw [padded], bound, (restorePlus_eq_iff noSpace).mp first⟩
  · rintro ⟨symbols, count, rfl, bound, arrives⟩
    have padding : restorePlus (List.replicate count Base64.padding) =
        List.replicate count Base64.padding := by
      rw [restorePlus, List.map_replicate]
      rfl
    have apart : restorePlus (symbols ++ List.replicate count Base64.padding) =
        restorePlus symbols ++ restorePlus (List.replicate count Base64.padding) := List.map_append
    exact ⟨count, bound, by rw [apart, padding, (restorePlus_eq_iff noSpace).mpr arrives]⟩

/-- The bytes behind a text are the document that it spells. -/
theorem unwrap_eq_ok {text document : Bytes} : unwrap text = .ok document ↔ Spells text document := by
  rw [unwrap]
  constructor
  · intro read
    split at read
    · rename_i found standard
      cases read
      obtain ⟨symbols, count, shape, bound, arrives⟩ := decode_restorePlus.mp standard
      exact ⟨symbols, count, shape, bound, .inl arrives⟩
    · cases urlSafe : Base64.decode .urlSafe text with
      | error fault =>
          rw [urlSafe] at read
          cases read
      | ok found =>
          rw [urlSafe] at read
          cases read
          obtain ⟨count, bound, shape⟩ := Base64.decode_eq_ok.mp urlSafe
          exact ⟨_, count, shape, bound, .inr rfl⟩
  · rintro ⟨symbols, count, shape, bound, arrives | rfl⟩
    · rw [decode_restorePlus.mpr ⟨symbols, count, shape, bound, arrives⟩]
    · have urlSafe := Base64.decode_eq_ok.mpr ⟨count, bound, shape⟩
      cases standard : Base64.decode .standard (restorePlus text) with
      | error fault =>
          rw [urlSafe]
          rfl
      | ok found =>
          -- nothing in the text is a space, so both alphabets have read the same symbols
          have noSpace : ' '.toUInt8 ∉ text := by
            rw [shape, List.mem_append, not_or]
            refine ⟨noSpace_encode .urlSafe document, fun member => ?_⟩
            exact absurd (List.eq_of_mem_replicate member) (by decide)
          have same : restorePlus text = text :=
            (restorePlus_eq_iff noSpace).mpr (List.forall₂_same.mpr fun _ _ => .inl rfl)
          rw [same] at standard
          obtain ⟨number, -, other⟩ := Base64.decode_eq_ok.mp standard
          rw [Base64.document_unique (other.symm.trans shape)]

/-- A plus sign at neither end, so no space at either end. -/
theorem ends_of_arrives {symbols text : Bytes} (arrives : List.Forall₂ ArrivesAs symbols text)
    (plain : ∀ symbol ∈ symbols.head?, symbol ≠ '+'.toUInt8) : text.head? = symbols.head? := by
  cases arrives with
  | nil => rfl
  | @cons symbol b symbols text first _ =>
      rcases first with rfl | ⟨plus, -⟩
      · rfl
      · exact absurd plus (plain symbol rfl)

theorem symbol_ne_plus {value : Nat} (small : value < 64) (notLast : value ≠ 62) :
    Base64.Alphabet.symbol .standard value ≠ '+'.toUInt8 := by
  revert value
  decide

/-- Bytes that are no blanks as characters. -/
def IsSolidByte (b : UInt8) : Prop := Text.isBlank (Char.ofUInt8 b) = false

theorem isSolidByte_symbol (alphabet : Base64.Alphabet) {value : Nat} (small : value < 64) :
    IsSolidByte (alphabet.symbol value) := by
  unfold IsSolidByte
  revert value
  cases alphabet <;> decide

theorem isSolidByte_encode {alphabet : Base64.Alphabet} {document : Bytes} {b : UInt8}
    (member : b ∈ Base64.encode alphabet document) : IsSolidByte b := by
  obtain ⟨value, small, rfl⟩ := mem_encode member
  exact isSolidByte_symbol alphabet small

theorem first_symbol_of_ofDocument {document : Bytes} {search : Search}
    (read : ofDocument document = .ok search) :
    ∀ symbol ∈ (Base64.encode .standard document).head?, symbol ≠ '+'.toUInt8 := by
  obtain ⟨b, rest, rfl, ascii⟩ := first_of_ofDocument read
  intro symbol first
  rw [Base64.encode_eq_map, List.head?_map, Base64.head?_sextets] at first
  cases first
  exact symbol_ne_plus (by omega) (by omega)

theorem last_symbol_of_ofDocument {document : Bytes} {search : Search}
    (read : ofDocument document = .ok search) :
    ∀ symbol ∈ (Base64.encode .standard document).getLast?, symbol ≠ '+'.toUInt8 := by
  intro symbol last
  rw [Base64.encode_eq_map, List.getLast?_map] at last
  obtain ⟨value, final, rfl⟩ := Option.map_eq_some_iff.mp last
  have small := Base64.lt_of_mem_sextets value (List.mem_of_getLast? final)
  refine symbol_ne_plus small ?_
  rintro rfl
  rcases Base64.getLast?_sextets final with multiple | ⟨b, ends, same⟩
  · exact absurd multiple (by decide)
  · exact last_of_ofDocument read b ends same.symm

/-- A text of a document that can be read is solid at both ends. -/
theorem isSolidByte_ends {text document : Bytes} {search : Search}
    (read : ofDocument document = .ok search) (spelled : Spells text document) {b : UInt8}
    (ends : b ∈ text.head? ∨ b ∈ text.getLast?) : IsSolidByte b := by
  obtain ⟨symbols, count, rfl, -, alphabet⟩ := spelled
  have outer : b ∈ List.replicate count Base64.padding ∨ b ∈ symbols.head? ∨ b ∈ symbols.getLast? := by
    rcases ends with head | last
    · rw [List.head?_append, Option.mem_def, Option.or_eq_some_iff] at head
      rcases head with head | ⟨-, head⟩
      · exact .inr (.inl head)
      · exact .inl (List.mem_of_head? head)
    · rw [List.getLast?_append, Option.mem_def, Option.or_eq_some_iff] at last
      rcases last with last | ⟨-, last⟩
      · exact .inl (List.mem_of_getLast? last)
      · exact .inr (.inr last)
  rcases outer with padding | inner
  · rw [List.eq_of_mem_replicate padding]
    rfl
  rcases alphabet with arrives | rfl
  · have first := ends_of_arrives arrives (first_symbol_of_ofDocument read)
    have last := ends_of_arrives (List.forall₂_reverse_iff.mpr arrives) (by
      rw [List.head?_reverse]
      exact last_symbol_of_ofDocument read)
    rw [List.head?_reverse, List.head?_reverse] at last
    rw [first, last] at inner
    rcases inner with head | tail
    · exact isSolidByte_encode (List.mem_of_head? head)
    · exact isSolidByte_encode (List.mem_of_getLast? tail)
  · rcases inner with head | tail
    · exact isSolidByte_encode (List.mem_of_head? head)
    · exact isSolidByte_encode (List.mem_of_getLast? tail)

/-- What holds of all symbols, of a space and of padding holds of all the text. -/
theorem forall_mem_of_spells (property : UInt8 → Prop)
    (symbol : ∀ (alphabet : Base64.Alphabet) (value : Nat), value < 64 → property (alphabet.symbol value))
    (space : property ' '.toUInt8) (padding : property Base64.padding) {text document : Bytes}
    (spelled : Spells text document) : ∀ b ∈ text, property b := by
  obtain ⟨symbols, count, rfl, -, alphabet⟩ := spelled
  have encoded (alphabet : Base64.Alphabet) : ∀ b ∈ Base64.encode alphabet document, property b := by
    intro b member
    obtain ⟨value, small, rfl⟩ := mem_encode member
    exact symbol alphabet value small
  have inner : ∀ b ∈ symbols, property b := by
    rcases alphabet with arrives | rfl
    · have all := encoded .standard
      generalize Base64.encode .standard document = written at arrives all
      induction arrives with
      | nil => exact nofun
      | @cons symbol b written symbols first _ ih =>
          obtain ⟨here, later⟩ := List.forall_mem_cons.mp all
          refine List.forall_mem_cons.mpr ⟨?_, ih later⟩
          rcases first with rfl | ⟨-, rfl⟩
          · exact here
          · exact space
    · exact encoded .urlSafe
  intro b member
  rcases List.mem_append.mp member with symbol | pad
  · exact inner b symbol
  · rw [List.eq_of_mem_replicate pad]
    exact padding

theorem solidEnds_of_spells {document : Bytes} {spelling : String} {search : Search}
    (read : ofDocument document = .ok search) (spelled : Spells (bytes spelling) document) :
    Text.SolidEnds spelling.toList := by
  have ascii := forall_mem_of_spells (fun b => b.toNat < 0x80)
    (fun alphabet _ => alphabet.symbol_lt) (by decide) (by decide) spelled
  have chars : spelling.toList = (bytes spelling).map Char.ofUInt8 := by
    rw [Text.bytes_eq_utf8] at ascii ⊢
    exact Text.eq_map_of_ascii ascii
  have solid {b : UInt8} := isSolidByte_ends (b := b) read spelled
  rw [chars]
  constructor
  · intro c first
    rw [List.head?_map] at first
    obtain ⟨b, head, rfl⟩ := Option.map_eq_some_iff.mp first
    exact solid (.inl head)
  · intro c last
    rw [List.getLast?_map] at last
    obtain ⟨b, tail, rfl⟩ := Option.map_eq_some_iff.mp last
    exact solid (.inr tail)

theorem head?_ne_brace_of_spells {text document : Bytes} (spelled : Spells text document) :
    text.head? ≠ some '\x7b'.toUInt8 := by
  have noBrace := forall_mem_of_spells (fun b => b ≠ '\x7b'.toUInt8) (by
    intro alphabet value
    revert value
    cases alphabet <;> decide) (by decide) (by decide) spelled
  intro brace
  exact noBrace _ (List.mem_of_head? brace) rfl

theorem ofParameter_eq_ok {raw : String} {search : Search} :
    ofParameter raw = .ok search ↔ (bytes (trim raw)).length ≤ parameterLimit ∧
      ((bytes (trim raw)).head? = some '\x7b'.toUInt8 ∧ ofDocument (bytes (trim raw)) = .ok search ∨
        (bytes (trim raw)).head? ≠ some '\x7b'.toUInt8 ∧
          ∃ document, ofDocument document = .ok search ∧ Spells (bytes (trim raw)) document) := by
  rw [ofParameter]
  by_cases long : parameterLimit < (bytes (trim raw)).length
  · rw [if_pos long]
    constructor
    · intro impossible
      cases impossible
    · rintro ⟨short, -⟩
      omega
  · rw [if_neg long]
    have short : (bytes (trim raw)).length ≤ parameterLimit := Nat.le_of_not_lt long
    by_cases brace : (bytes (trim raw)).head? = some '\x7b'.toUInt8
    · rw [if_pos brace]
      simp [brace, short]
    · rw [if_neg brace, Outcome.bind_eq_ok]
      simp only [unwrap_eq_ok, brace, short, false_and, not_false_eq_true, true_and, false_or, ne_eq,
        and_comm]

/-- Blanks around a text of a document change nothing: none is taken for a plus sign, and no plus sign
for one of them. -/
theorem ofParameter_padded {document : Bytes} {search : Search} {spelling : String}
    {before after : List Char} (read : ofDocument document = .ok search)
    (spelled : Spells (bytes spelling) document)
    (blankBefore : ∀ c ∈ before, Text.isBlank c = true)
    (blankAfter : ∀ c ∈ after, Text.isBlank c = true) :
    trim (String.ofList (before ++ spelling.toList ++ after)) = spelling ∧
      ((bytes spelling).length ≤ parameterLimit →
        ofParameter (String.ofList (before ++ spelling.toList ++ after)) = .ok search) := by
  have trimmed := Text.trim_padded (solidEnds_of_spells read spelled) blankBefore blankAfter
  refine ⟨trimmed, fun short => ofParameter_eq_ok.mpr ?_⟩
  rw [trimmed]
  exact ⟨short, .inr ⟨head?_ne_brace_of_spells spelled, document, read, spelled⟩⟩

/-- Exactly these parameters are read: a document itself, or a base64 text of one, neither longer than
the limit. All the texts of one document are read alike, whatever blanks stand around them. -/
theorem ofParameter_exact :
    (∀ (raw : String) (search : Search), ofParameter raw = .ok search ↔
      (bytes (trim raw)).length ≤ parameterLimit ∧
      ((bytes (trim raw)).head? = some '\x7b'.toUInt8 ∧ ofDocument (bytes (trim raw)) = .ok search ∨
        (bytes (trim raw)).head? ≠ some '\x7b'.toUInt8 ∧
          ∃ document, ofDocument document = .ok search ∧ Spells (bytes (trim raw)) document)) ∧
    ∀ (document : Bytes) (search : Search) (spelling : String) (before after : List Char),
      ofDocument document = .ok search → Spells (bytes spelling) document →
      (∀ c ∈ before, Text.isBlank c = true) → (∀ c ∈ after, Text.isBlank c = true) →
      trim (String.ofList (before ++ spelling.toList ++ after)) = spelling ∧
        ((bytes spelling).length ≤ parameterLimit →
          ofParameter (String.ofList (before ++ spelling.toList ++ after)) = .ok search) :=
  ⟨fun _ _ => ofParameter_eq_ok, fun _ _ _ _ _ read spelled blankBefore blankAfter =>
    ofParameter_padded read spelled blankBefore blankAfter⟩

/-- A plus sign has become a space, half of the padding is left out, and blanks stand around it all. -/
theorem ofParameter_exact_space :
    let spelling := "eyJmaWx0ZXJzIjpbeyJtZW1iZXIiOiJhYj4 PiIsIm9wZXJhdG9yIjoic2V0In1dfQ="
    trim (String.ofList ([' ', '\n'] ++ spelling.toList ++ ['\t'])) = spelling ∧
      ofParameter (String.ofList ([' ', '\n'] ++ spelling.toList ++ ['\t'])) =
        .ok ⟨[.filter ⟨"ab>>>", .set, []⟩]⟩ := by
  intro spelling
  have read : ofDocument
      (bytes "\x7b\"filters\":[\x7b\"member\":\"ab>>>\",\"operator\":\"set\"\x7d]\x7d") =
        .ok ⟨[.filter ⟨"ab>>>", .set, []⟩]⟩ := by decide +kernel
  have spelled : Spells (bytes spelling)
      (bytes "\x7b\"filters\":[\x7b\"member\":\"ab>>>\",\"operator\":\"set\"\x7d]\x7d") :=
    unwrap_eq_ok.mp (by decide +kernel)
  have padded := ofParameter_exact.2 _ _ spelling [' ', '\n'] ['\t'] read spelled
    (List.all_eq_true.mp rfl) (List.all_eq_true.mp rfl)
  exact ⟨padded.1, padded.2 (by decide +kernel)⟩

theorem bytes_toParameter (search : Search) :
    bytes search.toParameter = Base64.encode .urlSafe (bytes search.toJson.render) := by
  rw [toParameter, Text.bytes_ofList, Text.utf8_map_ofUInt8]
  intro b member
  obtain ⟨value, small, rfl⟩ := mem_encode member
  exact Base64.Alphabet.symbol_lt .urlSafe small

theorem spells_toParameter (search : Search) :
    Spells (bytes search.toParameter) (bytes search.toJson.render) :=
  ⟨_, 0, by rw [List.replicate_zero, List.append_nil], Nat.zero_le _, .inr (bytes_toParameter search)⟩

theorem trim_toParameter (search : Search) : trim search.toParameter = search.toParameter := by
  have solid : ∀ c ∈ search.toParameter.toList, Text.isBlank c = false := by
    intro c member
    rw [toParameter, String.toList_ofList] at member
    obtain ⟨b, written, rfl⟩ := List.mem_map.mp member
    exact isSolidByte_encode written
  exact Text.trim_eq_self ⟨fun c first => solid c (List.mem_of_head? first),
    fun c last => solid c (List.mem_of_getLast? last)⟩

/-- A written parameter is refused for its length, for its depth, or not at all. -/
theorem ofParameter_toParameter_eq (search : Search) : ofParameter search.toParameter =
    if parameterLimit < (bytes search.toParameter).length then
      .error (.tooLong (bytes search.toParameter).length parameterLimit)
    else if search.toJson.depth ≤ Json.nestingLimit then .ok search
    else .error (.malformed .tooDeep) := by
  have spelled := spells_toParameter search
  rw [ofParameter, trim_toParameter]
  by_cases long : parameterLimit < (bytes search.toParameter).length
  · rw [if_pos long, if_pos long]
  · rw [if_neg long, if_neg long, if_neg (head?_ne_brace_of_spells spelled),
      unwrap_eq_ok.mpr spelled]
    exact ofDocument_render search

/-- A search is read back from its parameter exactly within both limits, of length and of depth. -/
theorem ofParameter_toParameter (search : Search) :
    (ofParameter search.toParameter = .ok search ↔
      (bytes search.toParameter).length ≤ parameterLimit ∧
        search.toJson.depth ≤ Json.nestingLimit) ∧
    (¬ ((bytes search.toParameter).length ≤ parameterLimit ∧
        search.toJson.depth ≤ Json.nestingLimit) →
      ∃ fault, (ofParameter search.toParameter).mapError SearchError.malformedPayload =
        .error (.malformedPayload fault)) := by
  rw [ofParameter_toParameter_eq]
  by_cases long : parameterLimit < (bytes search.toParameter).length
  · rw [if_pos long]
    refine ⟨⟨nofun, fun within => absurd within.1 (Nat.not_le.mpr long)⟩, fun _ => ⟨_, rfl⟩⟩
  · have short := Nat.le_of_not_lt long
    rw [if_neg long]
    by_cases deep : search.toJson.depth ≤ Json.nestingLimit
    · rw [if_pos deep]
      exact ⟨⟨fun _ => ⟨short, deep⟩, fun _ => rfl⟩, fun beyond => absurd ⟨short, deep⟩ beyond⟩
    · rw [if_neg deep]
      exact ⟨⟨nofun, fun within => absurd within.2 deep⟩, fun _ => ⟨_, rfl⟩⟩

end Search

end PartnerSearch
