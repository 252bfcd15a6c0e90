import PartnerSearch.Proofs.Text.Trimming
import PartnerSearch.Proofs.Timestamp.Grammar
import PartnerSearch.Strategy

set_option autoImplicit false

/-!
The conversion of timestamps. A text of RFC 3339 is converted to the nanoseconds that its calendar and
its clock count from the first of January 1970 on, if 64 bits hold them; an integer stands for itself.
Every instant of 64 bits has a text at every offset.
-/

namespace PartnerSearch

namespace Timestamp

open Calendar (epochDay monthLength)
open Text (SpellsInteger isBlank numeral trimChars)

variable {time other : Timestamp}

/-- The instant in nanoseconds, where the days are counted one by one. The second 60 is the next one, and
what is written at an offset is ahead by the offset. -/
def Counts (time : Timestamp) (instant : Int) : Prop :=
  ∃ days, time.date.IsDay days ∧ instant =
    (days * 86400 + time.hour * 3600 + time.minute * 60 + time.second - time.offset * 60) * 10 ^ 9 +
      time.nanosecond

theorem counts_iff {instant : Int} :
    time.Counts instant ↔ time.date.Exists ∧ time.nanoseconds = instant := by
  have sum (days : Int) :
      (days * 86400 + time.hour * 3600 + time.minute * 60 + time.second - time.offset * 60) * 10 ^ 9 +
          (time.nanosecond : Int) =
        (days * 86400 + time.hour * 3600 + (time.minute - time.offset) * 60 + time.second) *
          1000000000 + time.nanosecond := by
    omega
  simp only [Counts, Calendar.Date.isDay_iff, sum]
  constructor
  · intro counted
    obtain ⟨_, ⟨known, rfl⟩, rfl⟩ := counted
    exact ⟨known, rfl⟩
  · intro counted
    obtain ⟨known, rfl⟩ := counted
    exact ⟨_, ⟨known, rfl⟩, rfl⟩

/-- The clock at the offset shows the instant. -/
structure Shows (time : Timestamp) (instant offset : Int) : Prop where
  hour : time.hour < 24
  minute : time.minute < 60
  second : time.second < 60
  nanosecond : time.nanosecond < 10 ^ 9
  offset : time.offset = offset
  counts : time.Counts instant

/-- An instant has one time at an offset. -/
theorem Shows.unique {instant offset : Int} (shown : time.Shows instant offset)
    (also : other.Shows instant offset) : time = other := by
  obtain ⟨hour, minute, second, nanosecond, same, days, counted, total⟩ := shown
  obtain ⟨otherHour, otherMinute, otherSecond, otherNanosecond, otherSame, otherDays, otherCounted,
    otherTotal⟩ := also
  rw [same] at total
  rw [otherSame] at otherTotal
  have parts : days = otherDays ∧ time.hour = other.hour ∧ time.minute = other.minute ∧
      time.second = other.second ∧ time.nanosecond = other.nanosecond := by
    omega
  obtain ⟨sameDays, hours, minutes, seconds, nanoseconds⟩ := parts
  obtain ⟨known, number⟩ := Calendar.Date.isDay_iff.mp counted
  obtain ⟨otherKnown, otherNumber⟩ := Calendar.Date.isDay_iff.mp otherCounted
  have dates : time.date = other.date :=
    known.eq_of_number otherKnown (number.trans (sameDays.trans otherNumber.symm))
  obtain ⟨years, months, dayNumbers⟩ := Calendar.Date.mk.inj dates
  cases time
  cases other
  simp_all

/-- The date and the time of day are the quotient by the length of a day and the remainder. -/
theorem exists_shows {instant offset : Int}
    (least : -(epochDay : Int) * 86400000000000 ≤ instant + offset * 60000000000) :
    ∃ time : Timestamp, time.Shows instant offset := by
  have early : -(epochDay : Int) ≤ (instant + offset * 60000000000) / 86400000000000 := by omega
  obtain ⟨date, counted⟩ := Calendar.Date.exists_isDay early
  have remainder : ∃ rest : Nat, rest < 86400000000000 ∧
      (rest : Int) = (instant + offset * 60000000000) % 86400000000000 :=
    ⟨((instant + offset * 60000000000) % 86400000000000).toNat, by omega, by omega⟩
  obtain ⟨rest, bounded, same⟩ := remainder
  exact ⟨⟨date.year, date.month, date.day, rest / 3600000000000, rest / 60000000000 % 60,
    rest / 1000000000 % 60, rest % 1000000000, offset⟩,
    { hour := by dsimp only; omega
      minute := by dsimp only; omega
      second := by dsimp only; omega
      nanosecond := by dsimp only; omega
      offset := rfl
      counts := ⟨_, counted, by dsimp only; omega⟩ }⟩

/-- The offset in hours and minutes behind its sign. -/
def offsetChars (offset : Int) : List Char :=
  (if 0 ≤ offset then '+' else '-') ::
    (numeral 2 (offset.natAbs / 60) ++ ':' :: numeral 2 (offset.natAbs % 60))

/-- The text of the time, with nine digits of the fraction. -/
def chars (time : Timestamp) : List Char :=
  time.layout 'T' ('.' :: numeral 9 time.nanosecond) (offsetChars time.offset)

def text (time : Timestamp) : String := String.ofList time.chars

theorem spellsOffset_offsetChars {offset : Int} (least : -1440 < offset) (most : offset < 1440) :
    SpellsOffset (offsetChars offset) offset := by
  by_cases ahead : 0 ≤ offset
  · refine .inr ⟨('+', 1), by decide, offset.natAbs / 60, by omega, offset.natAbs % 60, by omega, ?_,
      by dsimp only; omega⟩
    rw [offsetChars, if_pos ahead]
  · refine .inr ⟨('-', -1), by decide, offset.natAbs / 60, by omega, offset.natAbs % 60, by omega, ?_,
      by dsimp only; omega⟩
    rw [offsetChars, if_neg ahead]

theorem Shows.spells {instant offset : Int} (shown : time.Shows instant offset)
    (year : time.year < 10000) (least : -1440 < offset) (most : offset < 1440) :
    Spells time.chars time := by
  obtain ⟨known, -⟩ := counts_iff.mp shown.counts
  have month : time.month ≤ 12 := known.month.2
  have day : time.day ≤ 31 := Nat.le_trans known.2 (Calendar.monthLength_le _ _)
  exact {
    year := year
    month := by omega
    day := by omega
    hour := shown.hour
    minute := shown.minute
    second := Nat.le_of_lt shown.second
    layout := ⟨'T', by decide, _, _,
      .inr ⟨9, time.nanosecond, by decide, shown.nanosecond, rfl,
        (Nat.mul_div_cancel _ (by decide)).symm⟩,
      spellsOffset_offsetChars (shown.offset ▸ least) (shown.offset ▸ most), rfl⟩ }

theorem not_isBlank_of_mem_chars (time : Timestamp) : ∀ c ∈ time.chars, isBlank c = false := by
  have digits (count number : Nat) : (∀ c ∈ numeral count number, isBlank c = false) ↔ True :=
    iff_true_intro fun c => Text.not_isBlank_of_mem_numeral
  have sign : isBlank (if 0 ≤ time.offset then '+' else '-') = false := by split <;> decide
  have marks : isBlank '-' = false ∧ isBlank 'T' = false ∧ isBlank ':' = false ∧
      isBlank '.' = false := by decide
  simp only [chars, layout, offsetChars, List.forall_mem_append, List.forall_mem_cons, digits, marks,
    sign, and_self]

/-- A time is no integer: there is a hyphen behind the year. -/
theorem Spells.not_spellsInteger {text : List Char} (spelled : Spells text time) (integer : Int) :
    ¬SpellsInteger text integer := by
  obtain ⟨separator, -, fraction, zone, -, -, rfl⟩ := spelled.layout
  have unsigned {c : Char} (sign : Text.digit? c = none) (rest : List Char) :
      time.layout separator fraction zone ≠ c :: rest := by
    intro same
    rw [Timestamp.layout, List.append_eq_cons_iff] at same
    rcases same with ⟨empty, -⟩ | ⟨later, digits, -⟩
    · have length := Text.length_numeral 4 time.year
      rw [empty] at length
      cases length
    · have digit := Text.numeral_eq_cons digits
      rw [sign] at digit
      cases digit
  intro spellsInteger
  obtain ⟨count, number, -, -, ⟨digits | plus, -⟩ | ⟨minus, -⟩⟩ := spellsInteger
  · have hyphen : '-' ∈ numeral count number := by
      rw [← digits, Timestamp.layout]
      simp
    cases Text.isSome_of_mem_numeral hyphen
  · exact unsigned (by decide) _ plus
  · exact unsigned (by decide) _ minus

/-- The value is read from its own spelling, or from a time that counts it. -/
theorem readNanoseconds?_eq_some {text : List Char} {value : Int64} :
    readNanoseconds? text = some value ↔
      SpellsInteger text value.toInt ∨ ∃ time, Spells text time ∧ time.Counts value.toInt := by
  unfold readNanoseconds?
  split
  · next other read =>
    have integer := Text.readInt64_eq_ok.mp read
    rw [Option.some_inj]
    constructor
    · intro same
      exact .inl (same ▸ integer)
    · intro written
      rcases written with spelled | ⟨time, spelled, -⟩
      · exact Except.ok.inj (read.symm.trans (Text.readInt64_eq_ok.mpr spelled))
      · exact absurd integer (spelled.not_spellsInteger _)
  · next fault unread =>
    have no_integer : ¬SpellsInteger text value.toInt := by
      intro spelled
      cases unread.symm.trans (Text.readInt64_eq_ok.mpr spelled)
    have least := value.minValue_le_toInt
    have most := value.toInt_le
    rw [or_iff_right no_integer, Option.bind_eq_bind, Option.bind_eq_some_iff]
    simp only [read?_eq_some, counts_iff, and_assoc]
    refine exists_congr fun time => and_congr_right fun _ => and_congr_right fun _ => ?_
    constructor
    · intro held
      split at held
      · next fits =>
        cases held
        rw [Int64.toInt_minValue] at fits
        exact (Int64.toInt_ofInt_of_le fits.1 (by have := Int64.toInt_maxValue; omega)).symm
      · cases held
    · intro counted
      rw [counted, if_pos ⟨least, most⟩, Int64.ofInt_toInt]

end Timestamp

namespace Strategy

open Text (SpellsInteger trimChars)

variable {member raw : String} {value : Int64}

theorem convert_timestamp_eq_ok :
    Strategy.timestamp.convert member raw = .ok (.integer value) ↔
      SpellsInteger (trimChars raw.toList) value.toInt ∨
        ∃ time, Timestamp.Spells (trimChars raw.toList) time ∧ time.Counts value.toInt := by
  rw [← Timestamp.readNanoseconds?_eq_some]
  simp only [convert, read?, form]
  cases Timestamp.readNanoseconds? (trimChars raw.toList) with
  | none => simp
  | some found => simp

theorem convert_timestamp_eq_error
    (unread : ∀ value, Strategy.timestamp.convert member raw ≠ .ok (.integer value)) :
    Strategy.timestamp.convert member raw = .error (.invalidValue member raw .timestamp) := by
  simp only [convert, read?, form] at unread ⊢
  cases found : Timestamp.readNanoseconds? (trimChars raw.toList) with
  | none => rfl
  | some value => exact absurd (by rw [found]; rfl) (unread value)

theorem convert_timestamp_text {time : Timestamp} {offset : Int}
    (shown : time.Shows value.toInt offset) (least : -1440 < offset) (most : offset < 1440) :
    Strategy.timestamp.convert member time.text = .ok (.integer value) := by
  have year : time.year < 10000 := by
    obtain ⟨days, counted, total⟩ := shown.counts
    have bound : Calendar.daysBeforeYear 10000 = 3652425 := by decide
    have same := shown.offset
    have late := value.toInt_lt
    refine counted.year_lt ?_
    rw [bound, Calendar.epochDay]
    omega
  have trimmed : trimChars time.text.toList = time.chars := by
    rw [Timestamp.text, String.toList_ofList]
    exact Text.trimChars_eq_self (Text.solidEnds_of_forall time.not_isBlank_of_mem_chars)
  rw [convert_timestamp_eq_ok, trimmed]
  exact .inr ⟨time, shown.spells year least most, shown.counts⟩

theorem convert_timestamp_toString (member : String) (value : Int64) :
    Strategy.timestamp.convert member (toString value) = .ok (.integer value) := by
  have spelled := Text.spellsInteger_toString value.toInt
  rw [convert_timestamp_eq_ok]
  exact .inl ((Text.trimChars_eq_self (Text.solidEnds_of_forall spelled.not_isBlank)).symm ▸ spelled)

section Times

variable {time : Timestamp} (spelled : Timestamp.Spells (trimChars raw.toList) time)

include spelled

/-- What a text of a time is converted to is what the time counts. -/
theorem counts_of_convert_timestamp
    (converted : Strategy.timestamp.convert member raw = .ok (.integer value)) :
    time.Counts value.toInt := by
  rcases convert_timestamp_eq_ok.mp converted with integer | ⟨other, also, counted⟩
  · exact absurd integer (spelled.not_spellsInteger _)
  · obtain ⟨known, -⟩ := Timestamp.counts_iff.mp counted
    have here := Timestamp.read?_eq_some.mpr ⟨spelled, spelled.date_eq also ▸ known⟩
    have there := Timestamp.read?_eq_some.mpr ⟨also, known⟩
    rw [Option.some.inj (here.symm.trans there)]
    exact counted

theorem convert_timestamp_of_counts {instant : Int} (counted : time.Counts instant) :
    (-2 ^ 63 ≤ instant ∧ instant < 2 ^ 63 →
        Strategy.timestamp.convert member raw = .ok (.integer (Int64.ofInt instant))) ∧
      (instant < -2 ^ 63 ∨ 2 ^ 63 ≤ instant →
        Strategy.timestamp.convert member raw = .error (.invalidValue member raw .timestamp)) := by
  constructor
  · intro fits
    have same := Int64.toInt_ofInt_of_le fits.1 fits.2
    exact convert_timestamp_eq_ok.mpr (.inr ⟨time, spelled, same.symm ▸ counted⟩)
  · intro beyond
    refine convert_timestamp_eq_error fun value converted => ?_
    obtain ⟨-, total⟩ := Timestamp.counts_iff.mp counted
    obtain ⟨-, same⟩ := Timestamp.counts_iff.mp (counts_of_convert_timestamp spelled converted)
    have least := value.le_toInt
    have most := value.toInt_lt
    omega

theorem convert_timestamp_of_no_date (unknown : ¬time.date.Exists) :
    Strategy.timestamp.convert member raw = .error (.invalidValue member raw .timestamp) := by
  refine convert_timestamp_eq_error fun value converted => unknown ?_
  exact (Timestamp.counts_iff.mp (counts_of_convert_timestamp spelled converted)).1

end Times

/-- Timestamps are converted exactly. Every instant of 64 bits has one time at each offset of less than
a day, whose text is converted to the instant, and so is its decimal text. The text of a time is
converted to the instant that the time counts from the first of January 1970, if 64 bits hold it, and
is refused if they do not or if its date does not exist. No other texts than those of integers and of
times are accepted. -/
theorem convert_timestamp_exact (member : String) :
    (∀ (instant : Int64) (offset : Int), -1440 < offset → offset < 1440 →
        (∃! time : Timestamp, time.Shows instant.toInt offset) ∧
          ∀ time : Timestamp, time.Shows instant.toInt offset →
            Strategy.timestamp.convert member time.text = .ok (.integer instant)) ∧
      (∀ instant : Int64,
        Strategy.timestamp.convert member (toString instant) = .ok (.integer instant)) ∧
      (∀ raw time, Timestamp.Spells (trimChars raw.toList) time →
        (time.date.Exists ↔ ∃ instant, time.Counts instant) ∧
        (∀ instant, time.Counts instant →
          (-2 ^ 63 ≤ instant ∧ instant < 2 ^ 63 →
            Strategy.timestamp.convert member raw = .ok (.integer (Int64.ofInt instant))) ∧
          (instant < -2 ^ 63 ∨ 2 ^ 63 ≤ instant →
            Strategy.timestamp.convert member raw = .error (.invalidValue member raw .timestamp))) ∧
        (¬time.date.Exists →
          Strategy.timestamp.convert member raw = .error (.invalidValue member raw .timestamp))) ∧
      (∀ (raw : String) (instant : Int64),
        Strategy.timestamp.convert member raw = .ok (.integer instant) ↔
          SpellsInteger (trimChars raw.toList) instant.toInt ∨
            ∃ time, Timestamp.Spells (trimChars raw.toList) time ∧ time.Counts instant.toInt) ∧
      ∀ raw, (∀ instant, Strategy.timestamp.convert member raw ≠ .ok (.integer instant)) →
        Strategy.timestamp.convert member raw = .error (.invalidValue member raw .timestamp) := by
  refine ⟨?_, convert_timestamp_toString member, ?_, fun _ _ => convert_timestamp_eq_ok,
    fun _ => convert_timestamp_eq_error⟩
  · intro instant offset least most
    have early := instant.le_toInt
    obtain ⟨time, shown⟩ : ∃ time : Timestamp, time.Shows instant.toInt offset := by
      apply Timestamp.exists_shows
      rw [Calendar.epochDay]
      omega
    exact ⟨⟨time, shown, fun other also => also.unique shown⟩,
      fun time shown => convert_timestamp_text shown least most⟩
  · intro raw time spelled
    refine ⟨?_, fun _ => convert_timestamp_of_counts spelled, convert_timestamp_of_no_date spelled⟩
    simp only [Timestamp.counts_iff, exists_and_left, exists_eq', and_true]

/-- The first instant of 64 bits, at the least offset. -/
def firstTime : Timestamp := ⟨1677, 9, 20, 0, 13, 43, 145224192, -1439⟩

theorem convert_timestamp_exact_ends :
    Strategy.timestamp.convert "at" "1677-09-20T00:13:43.145224192-23:59" =
        .ok (.integer Int64.minValue) ∧
      Strategy.timestamp.convert "at" "9223372036854775807" = .ok (.integer Int64.maxValue) ∧
      Strategy.timestamp.convert "at" " 2024-06-30t23:59:60.1234567899-00:30" =
        .ok (.integer 1719793800123456789) ∧
      Strategy.timestamp.convert "at" "2262-04-11T23:47:16.854775808Z" =
        .error (.invalidValue "at" "2262-04-11T23:47:16.854775808Z" .timestamp) ∧
      Strategy.timestamp.convert "at" "1900-02-29 00:00:00Z" =
        .error (.invalidValue "at" "1900-02-29 00:00:00Z" .timestamp) := by
  obtain ⟨written, decimal, times, -, -⟩ := convert_timestamp_exact "at"
  have first : firstTime.Shows Int64.minValue.toInt (-1439) :=
    ⟨by decide, by decide, by decide, by decide, rfl, Timestamp.counts_iff.mpr (by decide +kernel)⟩
  have firstText : firstTime.text = "1677-09-20T00:13:43.145224192-23:59" := by decide +kernel
  have leap : Timestamp.Spells (trimChars " 2024-06-30t23:59:60.1234567899-00:30".toList)
      ⟨2024, 6, 30, 23, 59, 60, 123456789, -30⟩ :=
    (Timestamp.read?_eq_some.mp (by decide +kernel)).1
  have late : Timestamp.Spells (trimChars "2262-04-11T23:47:16.854775808Z".toList)
      ⟨2262, 4, 11, 23, 47, 16, 854775808, 0⟩ :=
    (Timestamp.read?_eq_some.mp (by decide +kernel)).1
  have unknown : Timestamp.Spells (trimChars "1900-02-29 00:00:00Z".toList)
      ⟨1900, 2, 29, 0, 0, 0, 0, 0⟩ :=
    ⟨by decide, by decide, by decide, by decide, by decide, by decide, ' ', by decide, [], ['Z'],
      .inl ⟨rfl, rfl⟩, .inl ⟨by decide, rfl⟩, by decide +kernel⟩
  refine ⟨firstText ▸ (written Int64.minValue (-1439) (by decide) (by decide)).2 firstTime first,
    decimal Int64.maxValue, ?_, ?_, (times _ _ unknown).2.2 (by decide)⟩
  · exact ((times _ _ leap).2.1 1719793800123456789
      (Timestamp.counts_iff.mpr (by decide +kernel))).1 (by decide)
  · exact ((times _ _ late).2.1 9223372036854775808
      (Timestamp.counts_iff.mpr (by decide +kernel))).2 (by decide)

end Strategy

end PartnerSearch
