import PartnerSearch.Proofs.Text.Integer
import PartnerSearch.Proofs.Timestamp.Calendar

set_option autoImplicit false

/-!
The texts of RFC 3339. A date, a time of day and an offset are written with a fixed count of digits
each, a fraction of the second with any count; the reader accepts these texts for dates that exist, and
no others.
-/

namespace PartnerSearch.Timestamp

open Calendar (Date)
open Text (digit? digit?_eq_some numeral length_numeral isSome_of_mem_numeral)

variable {text rest : List Char}

theorem readDigits?_eq_some {count value number : Nat} :
    readDigits? count value text = some (number, rest) ↔
      ∃ more < 10 ^ count, text = numeral count more ++ rest ∧
        number = value * 10 ^ count + more := by
  induction count generalizing value text with
  | zero =>
      simp only [readDigits?, numeral, Text.places, Option.some_inj, Prod.mk.injEq, Nat.pow_zero,
        Nat.lt_one_iff, exists_eq_left, List.nil_append, Nat.mul_one, Nat.add_zero]
      rw [and_comm, eq_comm (a := value)]
  | succ count ih =>
      have front : readDigits? (count + 1) value text = some (number, rest) ↔
          ∃ digit < 10, ∃ others < 10 ^ count,
            text = Nat.digitChar digit :: (numeral count others ++ rest) ∧
              number = (value * 10 + digit) * 10 ^ count + others := by
        cases text with
        | nil => simp [readDigits?]
        | cons c later =>
            simp only [readDigits?, Option.bind_eq_some_iff, digit?_eq_some, ih, List.cons_eq_cons]
            constructor
            · intro read
              obtain ⟨digit, ⟨small, first⟩, others, smaller, after, sum⟩ := read
              exact ⟨digit, small, others, smaller, ⟨first, after⟩, sum⟩
            · intro written
              obtain ⟨digit, small, others, smaller, ⟨first, after⟩, sum⟩ := written
              exact ⟨digit, ⟨small, first⟩, others, smaller, after, sum⟩
      rw [front, Text.exists_front_digit]
      refine exists_congr fun whole => and_congr_right fun bounded => ?_
      rw [numeral, numeral, Text.places_succ bounded, List.cons_append, Text.append_front_digit]

/-- A number of fixed length is read from its digits. -/
theorem readDigits?_zero_eq_some {count number : Nat} :
    readDigits? count 0 text = some (number, rest) ↔
      number < 10 ^ count ∧ text = numeral count number ++ rest := by
  simp only [readDigits?_eq_some, Nat.zero_mul, Nat.zero_add]
  constructor
  · intro read
    obtain ⟨_, small, written, rfl⟩ := read
    exact ⟨small, written⟩
  · intro written
    exact ⟨number, written.1, written.2, rfl⟩

theorem readChar?_eq_some {allowed : List Char} :
    readChar? allowed text = some rest ↔ ∃ c ∈ allowed, text = c :: rest := by
  cases text with
  | nil => simp [readChar?]
  | cons c later =>
      rw [readChar?]
      split
      · next member =>
        simp only [Option.some_inj, List.cons_eq_cons]
        constructor
        · intro same
          exact ⟨c, member, rfl, same⟩
        · intro written
          obtain ⟨_, -, -, same⟩ := written
          exact same
      · next other =>
        simp only [List.cons_eq_cons, reduceCtorEq, false_iff]
        intro written
        obtain ⟨_, member, rfl, -⟩ := written
        exact other member

/-- Nothing, or a point and digits; the nanoseconds are the fraction without the digits beyond the
ninth. -/
def SpellsFraction (text : List Char) (nanosecond : Nat) : Prop :=
  text = [] ∧ nanosecond = 0 ∨
    ∃ count fraction, 0 < count ∧ fraction < 10 ^ count ∧ text = '.' :: numeral count fraction ∧
      nanosecond = fraction * 10 ^ 9 / 10 ^ count

/-- The first nine digits of a fraction, filled up with zeros, are its nanoseconds. -/
theorem nine_digits (count fraction : Nat) :
    (numeral count fraction).take 9 ++ List.replicate (9 - count) '0' =
      numeral 9 (fraction * 10 ^ 9 / 10 ^ count) := by
  rcases Nat.le_total count 9 with few | many
  · obtain ⟨more, whole⟩ := Nat.exists_eq_add_of_le few
    have scaled : fraction * 10 ^ 9 / 10 ^ count = fraction * 10 ^ more := by
      rw [whole, Nat.pow_add, Nat.mul_left_comm, Nat.mul_div_cancel_left _ (Nat.pow_pos (by decide))]
    have zeros : numeral more (fraction * 10 ^ more) = List.replicate more '0' := by
      rw [numeral, ← Text.places_mod_pow, Nat.mul_mod_left, Text.places_zero]
      rfl
    have digits : numeral 9 (fraction * 10 ^ more) =
        numeral count fraction ++ numeral more (fraction * 10 ^ more) := by
      rw [numeral, whole, Text.places_add, Nat.mul_div_cancel _ (Nat.pow_pos (by decide))]
      rfl
    rw [List.take_of_length_le (by rwa [length_numeral]), scaled, digits, zeros,
      show 9 - count = more by omega]
  · obtain ⟨more, rfl⟩ := Nat.exists_eq_add_of_le many
    have cut : fraction * 10 ^ 9 / 10 ^ (9 + more) = fraction / 10 ^ more := by
      rw [Nat.pow_add, Nat.mul_comm fraction, Nat.mul_div_mul_left _ _ (by decide)]
    rw [cut, numeral, Text.places_add, List.take_left' (Text.length_places 9 _),
      Nat.sub_eq_zero_of_le many, List.replicate_zero, List.append_nil]
    rfl

theorem numeral_of_digits {digits : List Char} (each : ∀ c ∈ digits, (digit? c).isSome = true) :
    ∃ number < 10 ^ digits.length, digits = numeral digits.length number := by
  induction digits with
  | nil => exact ⟨0, by decide, rfl⟩
  | cons c others ih =>
      obtain ⟨first, further⟩ := List.forall_mem_cons.mp each
      obtain ⟨digit, read⟩ := Option.isSome_iff_exists.mp first
      obtain ⟨small, rfl⟩ := digit?_eq_some.mp read
      obtain ⟨number, bounded, written⟩ := ih further
      have front := @Text.exists_front_digit 10 others.length fun value rest =>
        Nat.digitChar digit :: others = Nat.digitChar value :: numeral others.length rest
      obtain ⟨whole, bounded, same⟩ := front.mp ⟨digit, small, number, bounded, congrArg _ written⟩
      exact ⟨whole, bounded, same.trans (Text.places_succ bounded).symm⟩

theorem readFraction?_numeral {count fraction : Nat} (positive : 0 < count)
    (small : fraction < 10 ^ count) (ends : ∀ c ∈ rest.head?, digit? c = none) :
    readFraction? (numeral count fraction ++ rest) =
      some (fraction * 10 ^ 9 / 10 ^ count, rest) := by
  have digits : (numeral count fraction ++ rest).takeWhile (fun c => (digit? c).isSome) =
      numeral count fraction := by
    rw [List.takeWhile_append_of_pos fun c => isSome_of_mem_numeral]
    cases rest with
    | nil => rw [List.takeWhile_nil, List.append_nil]
    | cons c later => rw [List.takeWhile_cons_of_neg (by simp [ends c rfl]), List.append_nil]
  have after : (numeral count fraction ++ rest).dropWhile (fun c => (digit? c).isSome) = rest := by
    rw [List.dropWhile_append_of_pos fun c => isSome_of_mem_numeral]
    cases rest with
    | nil => rfl
    | cons c later => rw [List.dropWhile_cons_of_neg (by simp [ends c rfl])]
  have bounded : fraction * 10 ^ 9 / 10 ^ count < 10 ^ 9 :=
    Nat.div_lt_of_lt_mul (Nat.mul_lt_mul_of_pos_right small (by decide))
  have nine : readDigits? 9 0 (numeral 9 (fraction * 10 ^ 9 / 10 ^ count)) =
      some (fraction * 10 ^ 9 / 10 ^ count, []) :=
    readDigits?_zero_eq_some.mpr ⟨bounded, (List.append_nil _).symm⟩
  have some_digit : (numeral count fraction).isEmpty = false := by
    rw [List.isEmpty_eq_false_iff, ← List.length_pos_iff, length_numeral]
    exact positive
  unfold readFraction?
  simp only [digits, after, some_digit, length_numeral, nine_digits, nine, Option.map_some,
    Bool.false_eq_true, if_false]

/-- A fraction ends where no digit follows. -/
theorem readFraction?_eq_some {nanosecond : Nat} :
    readFraction? text = some (nanosecond, rest) ↔
      (∀ c ∈ rest.head?, digit? c = none) ∧ ∃ count fraction, 0 < count ∧ fraction < 10 ^ count ∧
        text = numeral count fraction ++ rest ∧ nanosecond = fraction * 10 ^ 9 / 10 ^ count := by
  constructor
  · intro read
    obtain ⟨fraction, small, written⟩ := numeral_of_digits
      (List.all_eq_true.mp (List.all_takeWhile (p := fun c => (digit? c).isSome) (l := text)))
    have whole := List.takeWhile_append_dropWhile (p := fun c => (digit? c).isSome) (l := text)
    have ends : ∀ c ∈ (text.dropWhile fun c => (digit? c).isSome).head?, digit? c = none := by
      intro c first
      have stops := List.head?_dropWhile_not (fun c => (digit? c).isSome) text
      rw [Option.mem_def.mp first] at stops
      simpa using stops
    have positive : 0 < (text.takeWhile fun c => (digit? c).isSome).length := by
      rw [List.length_pos_iff]
      intro none
      simp [readFraction?, none] at read
    have same := readFraction?_numeral positive small ends
    rw [← written, whole, read] at same
    cases same
    exact ⟨ends, _, fraction, positive, small, by rw [← written, whole], rfl⟩
  · intro written
    obtain ⟨ends, count, fraction, positive, small, rfl, rfl⟩ := written
    exact readFraction?_numeral positive small ends

/-- The signs of offsets; the typographic minus is one of them. -/
def signs : List (Char × Int) := [('+', 1), ('-', -1), ('\u2212', -1)]

/-- The letter of universal time, or a sign, hours and minutes; the offset is counted in minutes. -/
def SpellsOffset (text : List Char) (offset : Int) : Prop :=
  text ∈ [['Z'], ['z']] ∧ offset = 0 ∨
    ∃ sign ∈ signs, ∃ hours < 24, ∃ minutes < 60,
      text = sign.1 :: (numeral 2 hours ++ ':' :: numeral 2 minutes) ∧
        offset = sign.2 * (hours * 60 + minutes : Nat)

theorem readSign?_eq_some {direction : Int} :
    readSign? text = some (direction, rest) ↔ ∃ c, (c, direction) ∈ signs ∧ text = c :: rest := by
  constructor
  · intro read
    unfold readSign? at read
    split at read
    · cases read
      exact ⟨'+', by decide, rfl⟩
    · cases read
      exact ⟨'-', by decide, rfl⟩
    · cases read
      exact ⟨'\u2212', by decide, rfl⟩
    · cases read
  · intro written
    obtain ⟨c, member, rfl⟩ := written
    simp only [signs, List.mem_cons, Prod.mk.injEq, List.not_mem_nil, or_false] at member
    rcases member with ⟨rfl, rfl⟩ | ⟨rfl, rfl⟩ | ⟨rfl, rfl⟩ <;> rfl

/-- An offset without a letter. -/
theorem readOffset?_of_sign {direction : Int} (sign : readSign? text = some (direction, rest)) :
    readOffset? text = (do
      let (hours, text) ← readDigits? 2 0 rest
      let text ← readChar? [':'] text
      let (minutes, text) ← readDigits? 2 0 text
      if hours < 24 ∧ minutes < 60 then some (direction * (hours * 60 + minutes : Nat), text)
      else none) := by
  obtain ⟨c, member, rfl⟩ := readSign?_eq_some.mp sign
  simp only [signs, List.mem_cons, Prod.mk.injEq, List.not_mem_nil, or_false] at member
  rcases member with ⟨rfl, rfl⟩ | ⟨rfl, rfl⟩ | ⟨rfl, rfl⟩ <;> rfl

theorem readOffset?_eq_some {offset : Int} :
    readOffset? text = some (offset, rest) ↔
      ∃ spelling, SpellsOffset spelling offset ∧ text = spelling ++ rest := by
  constructor
  · intro read
    cases sign : readSign? text with
    | none =>
        unfold readOffset? at read
        split at read
        · cases read
          exact ⟨['Z'], .inl ⟨by decide, rfl⟩, rfl⟩
        · cases read
          exact ⟨['z'], .inl ⟨by decide, rfl⟩, rfl⟩
        · rw [sign] at read
          cases read
    | some found =>
        obtain ⟨direction, after⟩ := found
        obtain ⟨c, member, rfl⟩ := readSign?_eq_some.mp sign
        rw [readOffset?_of_sign sign] at read
        simp only [Option.bind_eq_bind, Option.bind_eq_some_iff, Prod.exists, readDigits?_zero_eq_some,
          readChar?_eq_some, List.mem_singleton, exists_eq_left] at read
        obtain ⟨hours, _, ⟨-, rfl⟩, _, rfl, minutes, _, ⟨-, rfl⟩, bounded⟩ := read
        split at bounded
        · next small =>
          cases bounded
          refine ⟨c :: (numeral 2 hours ++ ':' :: numeral 2 minutes),
            .inr ⟨_, member, hours, small.1, minutes, small.2, rfl, rfl⟩, ?_⟩
          simp only [List.cons_append, List.append_assoc]
        · cases bounded
  · intro written
    obtain ⟨_, ⟨letter, rfl⟩ | ⟨⟨c, direction⟩, member, hours, few, minutes, less, rfl, rfl⟩, rfl⟩ :=
      written
    · simp only [List.mem_cons, List.not_mem_nil, or_false] at letter
      rcases letter with rfl | rfl <;> rfl
    · have sign := readSign?_eq_some.mpr
        ⟨c, member, show c :: (numeral 2 hours ++ ':' :: numeral 2 minutes) ++ rest =
          c :: (numeral 2 hours ++ (':' :: (numeral 2 minutes ++ rest))) by
            simp only [List.cons_append, List.append_assoc]⟩
      have first : readDigits? 2 0 (numeral 2 hours ++ (':' :: (numeral 2 minutes ++ rest))) =
          some (hours, ':' :: (numeral 2 minutes ++ rest)) :=
        readDigits?_zero_eq_some.mpr ⟨by omega, rfl⟩
      have second : readDigits? 2 0 (numeral 2 minutes ++ rest) = some (minutes, rest) :=
        readDigits?_zero_eq_some.mpr ⟨by omega, rfl⟩
      have colon : readChar? [':'] (':' :: (numeral 2 minutes ++ rest)) =
          some (numeral 2 minutes ++ rest) :=
        readChar?_eq_some.mpr ⟨':', by decide, rfl⟩
      rw [readOffset?_of_sign sign]
      simp only [Option.bind_eq_bind, first, colon, second, Option.bind_some, few, less, and_self,
        if_true]

def date (time : Timestamp) : Date := ⟨time.year, time.month, time.day⟩

theorem isValid_iff {time : Timestamp} :
    time.isValid = true ↔
      time.date.Exists ∧ time.hour < 24 ∧ time.minute < 60 ∧ time.second ≤ 60 := by
  simp only [isValid, date, Date.Exists, Bool.and_eq_true, decide_eq_true_eq, and_assoc]

/-- The digits of date and time of day, with what stands for the fraction and the offset. -/
def layout (time : Timestamp) (separator : Char) (fraction zone : List Char) : List Char :=
  numeral 4 time.year ++ '-' :: (numeral 2 time.month ++ '-' :: (numeral 2 time.day ++
    separator :: (numeral 2 time.hour ++ ':' :: (numeral 2 time.minute ++
      ':' :: (numeral 2 time.second ++ (fraction ++ zone))))))

/-- The text is that of the date, the time of day and the offset in RFC 3339. The time exists, where the
second of a minute may be a leap second; the date need not. -/
structure Spells (text : List Char) (time : Timestamp) : Prop where
  year : time.year < 10000
  month : time.month < 100
  day : time.day < 100
  hour : time.hour < 24
  minute : time.minute < 60
  second : time.second ≤ 60
  layout : ∃ separator ∈ ['T', 't', ' '], ∃ fraction zone,
    SpellsFraction fraction time.nanosecond ∧ SpellsOffset zone time.offset ∧
      text = time.layout separator fraction zone

/-- An offset begins neither with a digit nor with a point. -/
theorem start_of_spellsOffset {offset : Int} {c : Char} (spelled : SpellsOffset (c :: rest) offset) :
    digit? c = none ∧ c ≠ '.' := by
  rcases spelled with ⟨letter, -⟩ | ⟨sign, member, _, -, _, -, same, -⟩
  · simp only [List.mem_cons, List.cons_eq_cons, List.not_mem_nil, or_false] at letter
    rcases letter with ⟨rfl, -⟩ | ⟨rfl, -⟩ <;> decide
  · have marks : ∀ sign ∈ signs, digit? sign.1 = none ∧ sign.1 ≠ '.' := by decide
    rw [(List.cons.inj same).1]
    exact marks sign member

/-- The fraction that is read, if there is one. -/
def readSecondPart? (text : List Char) : Option (Nat × List Char) :=
  match text with
  | '.' :: fraction => readFraction? fraction
  | text => some (0, text)

theorem readSecondPart?_eq_some {nanosecond : Nat} {offset : Int}
    (zone : SpellsOffset rest offset) :
    readSecondPart? text = some (nanosecond, rest) ↔
      ∃ fraction, SpellsFraction fraction nanosecond ∧ text = fraction ++ rest := by
  constructor
  · intro read
    unfold readSecondPart? at read
    split at read
    · obtain ⟨-, count, fraction, positive, small, rfl, rfl⟩ := readFraction?_eq_some.mp read
      exact ⟨_, .inr ⟨count, fraction, positive, small, rfl, rfl⟩, rfl⟩
    · cases read
      exact ⟨[], .inl ⟨rfl, rfl⟩, rfl⟩
  · intro written
    obtain ⟨_, ⟨rfl, rfl⟩ | ⟨count, fraction, positive, small, rfl, rfl⟩, rfl⟩ := written
    · unfold readSecondPart?
      split
      · exact absurd rfl (start_of_spellsOffset zone).2
      · rfl
    · refine readFraction?_eq_some.mpr ⟨?_, count, fraction, positive, small, rfl, rfl⟩
      intro c first
      obtain ⟨later, rfl⟩ := List.head?_eq_some_iff.mp first
      exact (start_of_spellsOffset zone).1

section Steps

variable {α : Type} {result : α}

theorem bind_readDigits? {count : Nat} {next : Nat × List Char → Option α} :
    readDigits? count 0 text >>= next = some result ↔
      ∃ number < 10 ^ count, ∃ rest, text = numeral count number ++ rest ∧
        next (number, rest) = some result := by
  rw [Option.bind_eq_bind, Option.bind_eq_some_iff, Prod.exists]
  simp only [readDigits?_zero_eq_some, and_assoc, exists_and_left]

theorem bind_readChar? {allowed : List Char} {next : List Char → Option α} :
    readChar? allowed text >>= next = some result ↔
      ∃ c ∈ allowed, ∃ rest, text = c :: rest ∧ next rest = some result := by
  rw [Option.bind_eq_bind, Option.bind_eq_some_iff]
  simp only [readChar?_eq_some]
  constructor
  · intro read
    obtain ⟨rest, ⟨c, member, written⟩, onward⟩ := read
    exact ⟨c, member, rest, written, onward⟩
  · intro written
    obtain ⟨c, member, rest, written, onward⟩ := written
    exact ⟨rest, ⟨c, member, written⟩, onward⟩

theorem bind_readSecondPart? (text : List Char) (next : Nat × List Char → Option α) :
    (match text with
      | '.' :: fraction => readFraction? fraction >>= next
      | text => some (0, text) >>= next) = readSecondPart? text >>= next := by
  unfold readSecondPart?
  split <;> rfl

theorem bind_readOffset? {next : Int × List Char → Option α} :
    readOffset? text >>= next = some result ↔
      ∃ offset zone rest, SpellsOffset zone offset ∧ text = zone ++ rest ∧
        next (offset, rest) = some result := by
  rw [Option.bind_eq_bind, Option.bind_eq_some_iff, Prod.exists]
  simp only [readOffset?_eq_some]
  constructor
  · intro read
    obtain ⟨offset, rest, ⟨zone, spelled, written⟩, onward⟩ := read
    exact ⟨offset, zone, rest, spelled, written, onward⟩
  · intro written
    obtain ⟨offset, zone, rest, spelled, written, onward⟩ := written
    exact ⟨offset, rest, ⟨zone, spelled, written⟩, onward⟩

end Steps

/-- The reader accepts the texts of RFC 3339 for dates that exist. -/
theorem read?_eq_some {time : Timestamp} :
    read? text = some time ↔ Spells text time ∧ time.date.Exists := by
  constructor
  · intro read
    obtain ⟨year, yearSmall, _, toYear, read⟩ := bind_readDigits?.mp read
    obtain ⟨_, hyphen, _, toHyphen, read⟩ := bind_readChar?.mp read
    obtain ⟨month, monthSmall, _, toMonth, read⟩ := bind_readDigits?.mp read
    obtain ⟨_, secondHyphen, _, toSecondHyphen, read⟩ := bind_readChar?.mp read
    obtain ⟨day, daySmall, _, toDay, read⟩ := bind_readDigits?.mp read
    obtain ⟨separator, separates, _, toSeparator, read⟩ := bind_readChar?.mp read
    obtain ⟨hour, -, _, toHour, read⟩ := bind_readDigits?.mp read
    obtain ⟨_, colon, _, toColon, read⟩ := bind_readChar?.mp read
    obtain ⟨minute, -, _, toMinute, read⟩ := bind_readDigits?.mp read
    obtain ⟨_, secondColon, _, toSecondColon, read⟩ := bind_readChar?.mp read
    obtain ⟨second, -, _, toSecond, read⟩ := bind_readDigits?.mp read
    have read := (bind_readSecondPart? _ _).symm.trans read
    obtain ⟨⟨nanosecond, _⟩, part, read⟩ := Option.bind_eq_some_iff.mp read
    obtain ⟨offset, zone, after, spelledZone, toZone, read⟩ := bind_readOffset?.mp read
    dsimp only at read toZone
    split at read
    · next accepted =>
      cases read
      obtain ⟨known, hourSmall, minuteSmall, secondSmall⟩ := isValid_iff.mp accepted.2
      rw [List.isEmpty_iff.mp accepted.1, List.append_nil] at toZone
      rw [toZone] at part
      obtain ⟨fraction, spelledFraction, toFraction⟩ := (readSecondPart?_eq_some spelledZone).mp part
      refine ⟨⟨yearSmall, monthSmall, daySmall, hourSmall, minuteSmall, secondSmall, separator,
        separates, fraction, zone, spelledFraction, spelledZone, ?_⟩, known⟩
      rw [List.mem_singleton] at hyphen secondHyphen colon secondColon
      rw [toYear, toHyphen, toMonth, toSecondHyphen, toDay, toSeparator, toHour, toColon, toMinute,
        toSecondColon, toSecond, toFraction, hyphen, secondHyphen, colon, secondColon]
      rfl
    · cases read
  · intro written
    obtain ⟨⟨year, month, day, hour, minute, second, separator, separates, fraction, zone,
      spelledFraction, spelledZone, rfl⟩, known⟩ := written
    have part := (readSecondPart?_eq_some spelledZone).mpr ⟨fraction, spelledFraction, rfl⟩
    refine bind_readDigits?.mpr ⟨time.year, year, _, rfl, ?_⟩
    refine bind_readChar?.mpr ⟨'-', by decide, _, rfl, ?_⟩
    refine bind_readDigits?.mpr ⟨time.month, month, _, rfl, ?_⟩
    refine bind_readChar?.mpr ⟨'-', by decide, _, rfl, ?_⟩
    refine bind_readDigits?.mpr ⟨time.day, day, _, rfl, ?_⟩
    refine bind_readChar?.mpr ⟨separator, separates, _, rfl, ?_⟩
    refine bind_readDigits?.mpr ⟨time.hour, by omega, _, rfl, ?_⟩
    refine bind_readChar?.mpr ⟨':', by decide, _, rfl, ?_⟩
    refine bind_readDigits?.mpr ⟨time.minute, by omega, _, rfl, ?_⟩
    refine bind_readChar?.mpr ⟨':', by decide, _, rfl, ?_⟩
    refine bind_readDigits?.mpr ⟨time.second, by omega, _, rfl, ?_⟩
    refine (bind_readSecondPart? _ _).trans (Option.bind_eq_some_iff.mpr ⟨_, part, ?_⟩)
    refine bind_readOffset?.mpr ⟨time.offset, zone, [], spelledZone, (List.append_nil zone).symm, ?_⟩
    exact if_pos ⟨rfl, isValid_iff.mpr ⟨known, hour, minute, second⟩⟩

theorem numeral_append_inj {count number other : Nat} {more : List Char}
    (small : number < 10 ^ count) (otherSmall : other < 10 ^ count)
    (same : numeral count number ++ rest = numeral count other ++ more) :
    number = other ∧ rest = more := by
  have read := readDigits?_zero_eq_some.mpr ⟨small, same.symm⟩
  have also := readDigits?_zero_eq_some.mpr ⟨otherSmall, Eq.refl (numeral count other ++ more)⟩
  exact Prod.mk.inj (Option.some.inj (read.symm.trans also))

/-- A text spells one date only, whether the date exists or not. -/
theorem Spells.date_eq {time other : Timestamp} (spelled : Spells text time)
    (also : Spells text other) : time.date = other.date := by
  obtain ⟨_, -, _, _, -, -, written⟩ := spelled.layout
  obtain ⟨_, -, _, _, -, -, rewritten⟩ := also.layout
  obtain ⟨years, later⟩ := numeral_append_inj spelled.year also.year (written.symm.trans rewritten)
  obtain ⟨months, later⟩ := numeral_append_inj spelled.month also.month (List.cons.inj later).2
  obtain ⟨days, -⟩ := numeral_append_inj spelled.day also.day (List.cons.inj later).2
  rw [date, date, years, months, days]

end PartnerSearch.Timestamp
