import PartnerSearch.Proofs.Outcome
import PartnerSearch.Proofs.Text.Ascii
import PartnerSearch.Proofs.Text.Places

set_option autoImplicit false

/-!
Decimal numbers. An integer of 64 bits is read from an optional sign and any count of digits, if it is
in range, and from nothing else; its own decimal text is one of these.
-/

namespace PartnerSearch.Text

/-- The last `count` decimal digits of a number. -/
def numeral (count number : Nat) : List Char := places 10 Nat.digitChar count number

@[simp] theorem length_numeral (count number : Nat) : (numeral count number).length = count :=
  length_places count number

theorem exists_of_mem_numeral {count number : Nat} {c : Char} (member : c ∈ numeral count number) :
    ∃ digit < 10, c = Nat.digitChar digit :=
  exists_of_mem_places (by decide) member

theorem not_isBlank_of_mem_numeral {count number : Nat} {c : Char}
    (member : c ∈ numeral count number) : isBlank c = false := by
  obtain ⟨digit, small, rfl⟩ := exists_of_mem_numeral member
  clear member
  revert digit
  decide

theorem isSome_of_mem_numeral {count number : Nat} {c : Char} (member : c ∈ numeral count number) :
    (digit? c).isSome = true := by
  obtain ⟨digit, small, rfl⟩ := exists_of_mem_numeral member
  rw [digit?_eq_some.mpr ⟨small, rfl⟩]
  rfl

theorem numeral_eq_cons {count number : Nat} {c : Char} {rest : List Char}
    (same : numeral count number = c :: rest) : (digit? c).isSome = true :=
  isSome_of_mem_numeral (same ▸ List.mem_cons_self)

/-- Digits are appended as long as the number stays within the limit. -/
theorem readDigits_eq_ok {limit : Nat} {fault : IntegerFault} {text : List Char} {value number : Nat}
    (start : value ≤ limit) :
    readDigits limit fault value text = .ok number ↔ number ≤ limit ∧
      ∃ rest < 10 ^ text.length, text = numeral text.length rest ∧
        number = value * 10 ^ text.length + rest := by
  induction text generalizing value with
  | nil =>
      rw [readDigits, Except.ok.injEq, eq_comm]
      simp only [List.length_nil, Nat.pow_zero, Nat.lt_one_iff, numeral, places, exists_eq_left,
        Nat.mul_one, Nat.add_zero, true_and]
      exact ⟨fun same => ⟨same ▸ start, same⟩, fun both => both.2⟩
  | cons c rest ih =>
      have front : readDigits limit fault value (c :: rest) = .ok number ↔
          number ≤ limit ∧ ∃ digit < 10, ∃ others < 10 ^ rest.length,
            (c = Nat.digitChar digit ∧ rest = numeral rest.length others) ∧
              number = (value * 10 + digit) * 10 ^ rest.length + others := by
        rw [readDigits]
        constructor
        · intro success
          split at success
          · cases success
          · next digit read =>
            obtain ⟨small, written⟩ := digit?_eq_some.mp read
            dsimp only at success
            split at success
            · next within =>
              obtain ⟨bounded, others, smaller, later, sum⟩ := (ih within).mp success
              exact ⟨bounded, digit, small, others, smaller, ⟨written, later⟩, sum⟩
            · cases success
        · intro written
          obtain ⟨bounded, digit, small, others, smaller, ⟨first, later⟩, sum⟩ := written
          have within : value * 10 + digit ≤ limit :=
            calc value * 10 + digit ≤ (value * 10 + digit) * 10 ^ rest.length :=
                  Nat.le_mul_of_pos_right _ (Nat.pow_pos (by decide))
              _ ≤ number := sum ▸ Nat.le_add_right _ others
              _ ≤ limit := bounded
          simp only [digit?_eq_some.mpr ⟨small, first⟩, if_pos within]
          exact (ih within).mpr ⟨bounded, others, smaller, later, sum⟩
      rw [front, exists_front_digit, List.length_cons]
      refine and_congr_right fun _ => exists_congr fun whole => and_congr_right fun bounded => ?_
      rw [numeral, numeral, places_succ bounded, List.cons_eq_cons, append_front_digit]

theorem readDigits_zero_eq_ok {limit : Nat} {fault : IntegerFault} {text : List Char}
    {number : Nat} :
    readDigits limit fault 0 text = .ok number ↔
      number ≤ limit ∧ number < 10 ^ text.length ∧ text = numeral text.length number := by
  rw [readDigits_eq_ok (Nat.zero_le limit)]
  simp only [Nat.zero_mul, Nat.zero_add]
  constructor
  · intro read
    obtain ⟨bounded, _, small, digits, rfl⟩ := read
    exact ⟨bounded, small, digits⟩
  · intro written
    obtain ⟨bounded, small, digits⟩ := written
    exact ⟨bounded, number, small, digits, rfl⟩

/-- A digit at least is read, behind a plus sign or not. -/
theorem readNatural_eq_ok {limit : Nat} {text : List Char} {number : Nat} :
    readNatural limit text = .ok number ↔ number ≤ limit ∧ ∃ count, 0 < count ∧ number < 10 ^ count ∧
      (text = numeral count number ∨ text = '+' :: numeral count number) := by
  constructor
  · intro read
    unfold readNatural at read
    split at read
    · cases read
    · cases read
    · next digits more =>
      obtain ⟨bounded, small, written⟩ := readDigits_zero_eq_ok.mp read
      have some_digit : digits ≠ [] := fun none => more (none ▸ rfl)
      exact ⟨bounded, _, List.length_pos_iff.mpr some_digit, small, .inr (congrArg _ written)⟩
    · next some_digit _ _ =>
      obtain ⟨bounded, small, written⟩ := readDigits_zero_eq_ok.mp read
      exact ⟨bounded, _, List.length_pos_iff.mpr some_digit, small, .inl written⟩
  · intro written
    obtain ⟨bounded, count, positive, small, spelled⟩ := written
    have read : readDigits limit .tooLarge 0 (numeral count number) = .ok number := by
      rw [readDigits_zero_eq_ok, length_numeral]
      exact ⟨bounded, small, rfl⟩
    obtain ⟨c, rest, digits⟩ := List.exists_cons_of_length_pos
      ((length_numeral count number).symm ▸ positive)
    rcases spelled with rfl | rfl
    · have unsigned : c ≠ '+' := by
        rintro rfl
        cases numeral_eq_cons digits
      rw [digits] at read ⊢
      unfold readNatural
      split
      · next empty => cases empty
      · next sign => exact absurd (List.cons.inj sign).1 unsigned
      · next sign => exact absurd (List.cons.inj sign).1 unsigned
      · exact read
    · rw [digits] at read ⊢
      exact read

/-- The text is of digits, at least one, with or without a sign, and the integer is their number. -/
def SpellsInteger (text : List Char) (integer : Int) : Prop :=
  ∃ count number, 0 < count ∧ number < 10 ^ count ∧
    ((text = numeral count number ∨ text = '+' :: numeral count number) ∧ integer = number ∨
      text = '-' :: numeral count number ∧ integer = -number)

theorem SpellsInteger.not_isBlank {text : List Char} {integer : Int}
    (spelled : SpellsInteger text integer) : ∀ c ∈ text, isBlank c = false := by
  obtain ⟨count, number, -, -, ⟨rfl | rfl, -⟩ | ⟨rfl, -⟩⟩ := spelled
  · exact fun c => not_isBlank_of_mem_numeral
  · exact List.forall_mem_cons.mpr ⟨by decide, fun c => not_isBlank_of_mem_numeral⟩
  · exact List.forall_mem_cons.mpr ⟨by decide, fun c => not_isBlank_of_mem_numeral⟩

/-- Integers of 64 bits are read from their spellings. -/
theorem readInt64_eq_ok {text : List Char} {value : Int64} :
    readInt64 text = .ok value ↔ SpellsInteger text value.toInt := by
  constructor
  · intro read
    unfold readInt64 at read
    split at read
    · cases read
    · next digits more =>
      obtain ⟨_, converted, rfl⟩ := Outcome.map_eq_ok.mp read
      obtain ⟨number, found, whole⟩ := Outcome.bind_eq_ok.mp converted
      obtain rfl := Outcome.pure_eq_ok.mp whole
      obtain ⟨bounded, small, written⟩ := readDigits_zero_eq_ok.mp found
      have some_digit : digits ≠ [] := fun none => more (none ▸ rfl)
      have same : (Int64.ofInt (-(number : Int))).toInt = -number :=
        Int64.toInt_ofInt_of_le (by omega) (by omega)
      exact ⟨_, number, List.length_pos_iff.mpr some_digit, small, .inr ⟨congrArg _ written, same⟩⟩
    · obtain ⟨number, found, rfl⟩ := Outcome.map_eq_ok.mp read
      obtain ⟨bounded, count, positive, small, spelled⟩ := readNatural_eq_ok.mp found
      have same : (Int64.ofNat number).toInt = number := Int64.toInt_ofNat_of_lt (by omega)
      exact ⟨count, number, positive, small, .inl ⟨spelled, same⟩⟩
  · intro spelled
    have least := value.le_toInt
    have most := value.toInt_lt
    obtain ⟨count, number, positive, small, ⟨digits, same⟩ | ⟨rfl, same⟩⟩ := spelled
    · have found := readNatural_eq_ok.mpr
        ⟨show number ≤ 0x7FFFFFFFFFFFFFFF by omega, count, positive, small, digits⟩
      have back : Int64.ofNat number = value :=
        Int64.toInt_inj.mp ((Int64.toInt_ofNat_of_lt (by omega)).trans same.symm)
      have unsigned (rest : List Char) : text ≠ '-' :: rest := by
        rintro rfl
        rcases digits with plain | plus
        · cases numeral_eq_cons plain.symm
        · cases plus
      unfold readInt64
      split
      · exact absurd rfl (unsigned _)
      · exact absurd rfl (unsigned _)
      · rw [found, Except.map, back]
    · have found : readDigits 0x8000000000000000 .tooSmall 0 (numeral count number) =
          .ok number := by
        rw [readDigits_zero_eq_ok, length_numeral]
        exact ⟨by omega, small, rfl⟩
      have back : Int64.ofInt (-(number : Int)) = value := by rw [← same, Int64.ofInt_toInt]
      obtain ⟨c, rest, digits⟩ := List.exists_cons_of_length_pos
        ((length_numeral count number).symm ▸ positive)
      rw [digits] at found ⊢
      refine Outcome.map_eq_ok.mpr ⟨number, ?_, back⟩
      exact Outcome.bind_eq_ok.mpr ⟨number, found, rfl⟩

/-- The decimal text of a number is of digits without leading zeros. -/
theorem exists_toDigits_eq_numeral (number : Nat) :
    ∃ count, 0 < count ∧ number < 10 ^ count ∧ Nat.toDigits 10 number = numeral count number := by
  induction number using Nat.strongRecOn with
  | ind number ih =>
      by_cases small : number < 10
      · refine ⟨1, by decide, by simpa using small, ?_⟩
        rw [Nat.toDigits_of_lt_base small, numeral, places, places, Nat.pow_zero, Nat.div_one,
          Nat.mod_eq_of_lt small]
      · obtain ⟨count, positive, bounded, digits⟩ := ih (number / 10) (by omega)
        refine ⟨count + 1, Nat.succ_pos count, ?_, ?_⟩
        · rw [Nat.pow_succ]
          omega
        · rw [Nat.toDigits_of_base_le (by decide) (Nat.le_of_not_lt small), digits, numeral, numeral,
            places_succ_last]

theorem spellsInteger_toString (integer : Int) :
    SpellsInteger (toString integer).toList integer := by
  cases integer with
  | ofNat number =>
      obtain ⟨count, positive, small, digits⟩ := exists_toDigits_eq_numeral number
      exact ⟨count, number, positive, small, .inl ⟨.inl (Nat.toList_repr.trans digits), rfl⟩⟩
  | negSucc number =>
      obtain ⟨count, positive, small, digits⟩ := exists_toDigits_eq_numeral (number + 1)
      refine ⟨count, number + 1, positive, small, .inr ⟨?_, rfl⟩⟩
      have text : toString (Int.negSucc number) = "-" ++ (number + 1).repr := rfl
      rw [text, String.toList_append, Nat.toList_repr, digits]
      rfl

end PartnerSearch.Text
