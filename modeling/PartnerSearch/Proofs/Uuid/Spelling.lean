import PartnerSearch.Proofs.Text.Ascii
import PartnerSearch.Proofs.Text.Places
import PartnerSearch.Proofs.Text.Trimming
import PartnerSearch.Proofs.Uuid.Canonical
import PartnerSearch.Strategy

set_option autoImplicit false

/-!
The texts that stand for a UUID. Up to the case of letters they are its digits, plain or in hyphenated
groups, and the groups also in braces or behind the name of the URN. Reading accepts these texts and
no others, and no text stands for two UUIDs.
-/

namespace PartnerSearch

namespace Text

theorem splitOn_map {α β : Type} [DecidableEq α] [DecidableEq β] {separator : α} {image : β}
    {change : α → β} (apart : ∀ item, change item = image ↔ item = separator) (items : List α) :
    splitOn image (items.map change) = (splitOn separator items).map (List.map change) := by
  induction items with
  | nil => rfl
  | cons item rest ih =>
      rw [List.map_cons, splitOn, splitOn, ih]
      by_cases same : item = separator
      · rw [if_pos same, if_pos ((apart item).mpr same)]
        rfl
      · rw [if_neg same, if_neg (mt (apart item).mp same)]
        cases splitOn separator rest <;> rfl

theorem splitOn_map_toLower (text : List Char) :
    splitOn '-' (text.map Char.toLower) = (splitOn '-' text).map (List.map Char.toLower) :=
  splitOn_map (fun _ => toLower_eq_hyphen) text

end Text

namespace Uuid

open Text

variable {text : List Char} {uuid : Uuid}

theorem digits_eq_places (uuid : Uuid) :
    uuid.digits = places 16 hexDigit 32 uuid.bits.toNat :=
  (places_eq_map_range 32 uuid.bits.toNat).symm

/-- Digits are appended to a value as the number that they are the places of. -/
theorem readHex?_eq_some {value result : Nat} :
    readHex? value text = some result ↔
      ∃ number < 16 ^ text.length, text.map Char.toLower = places 16 hexDigit text.length number ∧
        result = value * 16 ^ text.length + number := by
  induction text generalizing value with
  | nil =>
      rw [readHex?, Option.some_inj, eq_comm]
      simp [places]
  | cons c rest ih =>
      have front : readHex? value (c :: rest) = some result ↔
          ∃ digit < 16, ∃ number < 16 ^ rest.length,
            (c.toLower = hexDigit digit ∧
              rest.map Char.toLower = places 16 hexDigit rest.length number) ∧
            result = (value * 16 + digit) * 16 ^ rest.length + number := by
        simp only [readHex?, Option.bind_eq_some_iff, hexDigit?_eq_some, ih]
        constructor
        · intro read
          obtain ⟨digit, ⟨small, first⟩, number, bounded, later, sum⟩ := read
          exact ⟨digit, small, number, bounded, ⟨first, later⟩, sum⟩
        · intro written
          obtain ⟨digit, small, number, bounded, ⟨first, later⟩, sum⟩ := written
          exact ⟨digit, ⟨small, first⟩, number, bounded, later, sum⟩
      rw [front, exists_front_digit, List.length_cons, List.map_cons]
      refine exists_congr fun number => and_congr_right fun bounded => ?_
      rw [places_succ bounded, List.cons_eq_cons, append_front_digit]

theorem ofPlain?_eq_some : ofPlain? text = some uuid ↔ text.map Char.toLower = uuid.digits := by
  rw [ofPlain?, digits_eq_places]
  constructor
  · intro read
    split at read
    · next whole =>
      obtain ⟨number, found, rfl⟩ := Option.map_eq_some_iff.mp read
      obtain ⟨other, small, spelled, rfl⟩ := readHex?_eq_some.mp found
      rw [whole] at spelled small
      have same : (0 * 16 ^ text.length + other) % 2 ^ 128 = other := by
        rw [Nat.zero_mul, Nat.zero_add]
        exact Nat.mod_eq_of_lt small
      rw [BitVec.toNat_ofNat, same, spelled]
    · cases read
  · intro spelled
    have whole : text.length = 32 := by
      rw [← List.length_map Char.toLower, spelled, length_places]
    have found : readHex? 0 text = some uuid.bits.toNat := by
      refine readHex?_eq_some.mpr ⟨uuid.bits.toNat, ?_, ?_, ?_⟩
      · rw [whole]
        exact uuid.bits.isLt
      · rw [whole, spelled]
      · rw [Nat.zero_mul, Nat.zero_add]
    rw [if_pos whole, found, Option.map_some, BitVec.ofNat_toNat, BitVec.setWidth_eq]

theorem cut_flatten (parts : List (List Char)) :
    cut (parts.map List.length) parts.flatten = parts := by
  induction parts with
  | nil => rfl
  | cons part rest ih =>
      rw [List.map_cons, List.flatten_cons, cut, List.take_left, List.drop_left, ih]

theorem ofHyphenated?_eq_some :
    ofHyphenated? text = some uuid ↔ text.map Char.toLower = uuid.chars := by
  unfold ofHyphenated?
  dsimp only
  constructor
  · intro read
    split at read
    · next sized =>
      have lower : ((splitOn '-' text).map (List.map Char.toLower)).flatten = uuid.digits := by
        rw [← List.map_flatten]
        exact ofPlain?_eq_some.mp read
      have lengths : ((splitOn '-' text).map (List.map Char.toLower)).map List.length = groups := by
        rw [List.map_map, ← sized]
        exact List.map_congr_left fun part _ => List.length_map Char.toLower
      have parts := cut_flatten ((splitOn '-' text).map (List.map Char.toLower))
      rw [lower, lengths] at parts
      rw [chars, parts, ← splitOn_map_toLower, intercalate_splitOn]
    · cases read
  · intro spelled
    have parts : (splitOn '-' text).map (List.map Char.toLower) = cut groups uuid.digits := by
      rw [← splitOn_map_toLower, spelled, splitOn_chars]
    have lengths : (splitOn '-' text).map List.length = groups := by
      rw [← map_length_cut (Nat.le_of_eq uuid.sum_groups), ← parts, List.map_map]
      exact List.map_congr_left fun part _ => (List.length_map Char.toLower).symm
    rw [if_pos lengths]
    apply ofPlain?_eq_some.mpr
    rw [List.map_flatten, parts, flatten_cut uuid.sum_groups]

theorem unbraced?_eq_some {inner : List Char} :
    unbraced? text = some inner ↔ text = '\x7b' :: (inner ++ ['\x7d']) := by
  constructor
  · intro unwrapped
    unfold unbraced? at unwrapped
    split at unwrapped
    · next rest =>
      split at unwrapped
      · next last =>
        obtain ⟨front, rfl⟩ := List.getLast?_eq_some_iff.mp last
        rw [List.dropLast_concat] at unwrapped
        cases unwrapped
        rfl
      · cases unwrapped
    · cases unwrapped
  · intro wrapped
    subst wrapped
    simp [unbraced?]

theorem unnamed?_eq_some {inner : List Char} :
    unnamed? text = some inner ↔
      ∃ name, name.map Char.toLower = urnStart ∧ text = name ++ inner := by
  unfold unnamed?
  constructor
  · intro unwrapped
    split at unwrapped
    · next named =>
      cases unwrapped
      exact ⟨_, named, (List.take_append_drop _ text).symm⟩
    · cases unwrapped
  · intro wrapped
    obtain ⟨name, named, rfl⟩ := wrapped
    have size : name.length = urnStart.length := by rw [← named, List.length_map]
    rw [← size, List.take_left, List.drop_left, if_pos named]

/-- The spellings of a UUID in lowercase. -/
def layouts (uuid : Uuid) : List (List Char) :=
  [uuid.digits, uuid.chars, '\x7b' :: (uuid.chars ++ ['\x7d']), urnStart ++ uuid.chars]

theorem unbraced_eq_some :
    (unbraced? text).bind ofHyphenated? = some uuid ↔
      text.map Char.toLower = '\x7b' :: (uuid.chars ++ ['\x7d']) := by
  simp only [Option.bind_eq_some_iff, unbraced?_eq_some, ofHyphenated?_eq_some]
  constructor
  · intro wrapped
    obtain ⟨inner, rfl, spelled⟩ := wrapped
    rw [List.map_cons, List.map_append, spelled]
    rfl
  · intro spelled
    obtain ⟨brace, rest, rfl, opens, more⟩ := List.map_eq_cons_iff.mp spelled
    obtain ⟨inner, last, rfl, same, closes⟩ := List.map_eq_append_iff.mp more
    obtain ⟨final, rfl, closed⟩ := List.map_eq_singleton_iff.mp closes
    obtain rfl := toLower_eq_brace.1.mp opens
    obtain rfl := toLower_eq_brace.2.mp closed
    exact ⟨inner, rfl, same⟩

theorem unnamed_eq_some :
    (unnamed? text).bind ofHyphenated? = some uuid ↔
      text.map Char.toLower = urnStart ++ uuid.chars := by
  simp only [Option.bind_eq_some_iff, unnamed?_eq_some, ofHyphenated?_eq_some]
  constructor
  · intro wrapped
    obtain ⟨inner, ⟨name, named, rfl⟩, spelled⟩ := wrapped
    rw [List.map_append, named, spelled]
  · intro spelled
    obtain ⟨name, inner, rfl, named, same⟩ := List.map_eq_append_iff.mp spelled
    exact ⟨inner, ⟨name, named, rfl⟩, same⟩

/-- A reader of spellings of one length does not read a text of another. -/
theorem eq_none_of_length {read : Option Uuid} {spelling : Uuid → List Char} {size : Nat}
    (exact : ∀ other, read = some other ↔ text.map Char.toLower = spelling other)
    (sized : ∀ other, (spelling other).length = size) (differs : text.length ≠ size) :
    read = none := by
  cases found : read with
  | none => rfl
  | some other =>
      have spelled := (exact other).mp found
      rw [← List.length_map Char.toLower, spelled, sized] at differs
      exact absurd rfl differs

/-- Reading accepts the spellings of a UUID in letters of either case. The layouts have different
lengths, so that no text is read in two ways. -/
theorem read?_eq_some : read? text = some uuid ↔ text.map Char.toLower ∈ uuid.layouts := by
  have plain (differs : text.length ≠ 32) : ofPlain? text = none :=
    eq_none_of_length (fun _ => ofPlain?_eq_some) length_digits differs
  have hyphenated (differs : text.length ≠ 36) : ofHyphenated? text = none :=
    eq_none_of_length (fun _ => ofHyphenated?_eq_some) length_chars differs
  have braced (differs : text.length ≠ 38) : (unbraced? text).bind ofHyphenated? = none :=
    eq_none_of_length (fun _ => unbraced_eq_some)
      (fun other => by simp [length_chars]) differs
  simp only [read?, Option.orElse_eq_orElse, Option.orElse_eq_or, Option.or_eq_some_iff,
    ofPlain?_eq_some, ofHyphenated?_eq_some, unbraced_eq_some, unnamed_eq_some, layouts,
    List.mem_cons, List.not_mem_nil, or_false]
  constructor
  · intro read
    rcases read with digits | ⟨-, groups | ⟨-, braces | ⟨-, urn⟩⟩⟩
    · exact .inl digits
    · exact .inr (.inl groups)
    · exact .inr (.inr (.inl braces))
    · exact .inr (.inr (.inr urn))
  · intro spelled
    rcases spelled with digits | groups | braces | urn
    · exact .inl digits
    · have size : text.length = 36 := by
        rw [← List.length_map Char.toLower, groups, length_chars]
      exact .inr ⟨plain (by omega), .inl groups⟩
    · have size : text.length = 38 := by
        rw [← List.length_map Char.toLower, braces]
        simp [length_chars]
      exact .inr ⟨plain (by omega), .inr ⟨hyphenated (by omega), .inl braces⟩⟩
    · have size : text.length = 45 := by
        rw [← List.length_map Char.toLower, urn, List.length_append, length_chars]
        rfl
      exact .inr ⟨plain (by omega), .inr ⟨hyphenated (by omega), .inr ⟨braced (by omega), urn⟩⟩⟩

/-- The text is a spelling of the UUID in letters of either case, with blanks around it. -/
def Denotes (raw : String) (uuid : Uuid) : Prop :=
  ∃ before spelling after, raw.toList = before ++ spelling ++ after ∧
    (∀ c ∈ before, isBlank c = true) ∧ (∀ c ∈ after, isBlank c = true) ∧
    spelling.map Char.toLower ∈ uuid.layouts

theorem not_isBlank_of_mem_layouts {layout : List Char} (among : layout ∈ uuid.layouts) {c : Char}
    (member : c ∈ layout) : isBlank c = false := by
  simp only [layouts, List.mem_cons, List.not_mem_nil, or_false] at among
  rcases among with rfl | rfl | rfl | rfl
  · obtain ⟨digit, small, rfl⟩ := exists_of_mem_digits member
    clear member
    revert digit
    decide
  · exact not_isBlank_of_mem_chars member
  · rcases List.mem_cons.mp member with rfl | later
    · decide
    · rcases List.mem_append.mp later with inner | last
      · exact not_isBlank_of_mem_chars inner
      · obtain rfl := List.mem_singleton.mp last
        decide
  · rcases List.mem_append.mp member with name | groups
    · have visible : urnStart.all (fun c => !isBlank c) = true := by decide
      simpa using List.all_eq_true.mp visible c name
    · exact not_isBlank_of_mem_chars groups

theorem solidEnds_of_spelling {spelling : List Char}
    (spelled : spelling.map Char.toLower ∈ uuid.layouts) : SolidEnds spelling := by
  refine solidEnds_of_forall fun c member => ?_
  by_contra blank
  rw [Bool.not_eq_false] at blank
  have lower : c ∈ spelling.map Char.toLower :=
    List.mem_map.mpr ⟨c, member, toLower_of_isBlank blank⟩
  rw [not_isBlank_of_mem_layouts spelled lower] at blank
  cases blank

theorem denotes_iff {raw : String} : Denotes raw uuid ↔ read? (trimChars raw.toList) = some uuid := by
  rw [read?_eq_some]
  constructor
  · intro denotes
    obtain ⟨before, spelling, after, whole, blankBefore, blankAfter, spelled⟩ := denotes
    rwa [whole, trimChars_padded (solidEnds_of_spelling spelled) blankBefore blankAfter]
  · intro spelled
    obtain ⟨before, after, whole, blankBefore, blankAfter⟩ := exists_padding raw.toList
    exact ⟨before, _, after, whole, blankBefore, blankAfter, spelled⟩

/-- A text stands for one UUID at most. -/
theorem Denotes.unique {raw : String} {other : Uuid} (denotes : Denotes raw uuid)
    (also : Denotes raw other) : uuid = other :=
  Option.some.inj ((denotes_iff.mp denotes).symm.trans (denotes_iff.mp also))

/-- The canonical text stands for the UUID that it was written from. -/
theorem denotes_text (uuid : Uuid) : Denotes uuid.text uuid := by
  refine ⟨[], uuid.chars, [], ?_, nofun, nofun, ?_⟩
  · rw [text, String.toList_ofList, List.nil_append, List.append_nil]
  · rw [toLower_chars]
    exact List.mem_cons_of_mem _ List.mem_cons_self

theorem text_inj {other : Uuid} : uuid.text = other.text ↔ uuid = other := by
  constructor
  · intro same
    exact (denotes_text uuid).unique (same ▸ denotes_text other)
  · intro same
    rw [same]

end Uuid

namespace Strategy

theorem convert_uuid_eq_ok {member raw : String} {uuid : Uuid} (denotes : Uuid.Denotes raw uuid) :
    Strategy.uuid.convert member raw = .ok (.text uuid.text) := by
  simp only [convert, read?, Uuid.denotes_iff.mp denotes, Option.map_some]

/-- The canonical text of a UUID stands for itself. -/
theorem convert_uuid_text (member : String) (uuid : Uuid) :
    Strategy.uuid.convert member uuid.text = .ok (.text uuid.text) :=
  convert_uuid_eq_ok uuid.denotes_text

theorem convert_uuid_eq_error {member raw : String} (none : ∀ uuid, ¬Uuid.Denotes raw uuid) :
    Strategy.uuid.convert member raw = .error (.invalidValue member raw .uuid) := by
  have unread : Uuid.read? (Text.trimChars raw.toList) = .none :=
    Option.eq_none_iff_forall_ne_some.mpr fun uuid read => none uuid (Uuid.denotes_iff.mpr read)
  simp only [convert, read?, unread, Option.map_none, form]

end Strategy

end PartnerSearch
