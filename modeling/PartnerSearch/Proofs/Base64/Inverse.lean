import PartnerSearch.Base64
import PartnerSearch.Proofs.Outcome
import PartnerSearch.Proofs.Text.Encoding

set_option autoImplicit false

/-!
Reading base64 undoes writing it. A text is read as some bytes exactly when it is what is written for
them, followed by padding up to the full last group; which bytes those are does not depend on the
alphabet.
-/

namespace PartnerSearch.Base64

open Text (Bytes)

theorem Alphabet.symbol_lt (alphabet : Alphabet) {value : Nat} (small : value < 64) :
    (alphabet.symbol value).toNat < 0x80 := by
  revert value
  cases alphabet <;> decide

theorem Alphabet.value?_padding (alphabet : Alphabet) : alphabet.value? padding = none := by
  cases alphabet <;> rfl

/-- A value belongs to one symbol. -/
theorem Alphabet.value?_eq_some {alphabet : Alphabet} {symbol : UInt8} {value : Nat} :
    alphabet.value? symbol = some value ↔ value < 64 ∧ symbol = alphabet.symbol value := by
  have bytes : ∀ n < 256, ∀ found ∈ alphabet.value? (UInt8.ofNat n),
      found < 64 ∧ UInt8.ofNat n = alphabet.symbol found := by
    cases alphabet <;> decide +kernel
  have inverse := bytes symbol.toNat symbol.toNat_lt
  rw [UInt8.ofNat_toNat] at inverse
  constructor
  · exact inverse value
  · rintro ⟨small, rfl⟩
    exact alphabet.value?_symbol value small

theorem Alphabet.symbol_ne_padding (alphabet : Alphabet) {value : Nat} (small : value < 64) :
    alphabet.symbol value ≠ padding := by
  intro same
  have found := alphabet.value?_symbol value small
  rw [same, alphabet.value?_padding] at found
  cases found

/-- No symbol has two values, one in each alphabet. -/
theorem Alphabet.value_unique {first second : Alphabet} {value other : Nat} (small : value < 64)
    (otherSmall : other < 64) (same : first.symbol value = second.symbol other) : value = other := by
  have bytes : ∀ n < 256, ∀ found ∈ first.value? (UInt8.ofNat n),
      ∀ too ∈ second.value? (UInt8.ofNat n), found = too := by
    cases first <;> cases second <;> decide +kernel
  have agree := bytes (first.symbol value).toNat (UInt8.toNat_lt _)
  rw [UInt8.ofNat_toNat] at agree
  refine agree value (first.value?_symbol value small) other ?_
  rw [same]
  exact second.value?_symbol other otherSmall

theorem Alphabet.read_eq_ok {alphabet : Alphabet} {offset : Nat} {symbol : UInt8} {value : Nat} :
    alphabet.read offset symbol = .ok value ↔ alphabet.value? symbol = some value := by
  rw [Alphabet.read]
  cases alphabet.value? symbol <;> simp

/-- The bits of the bytes, six at a time; zeros fill up the last six. -/
def sextets : Bytes → List Nat
  | a :: b :: c :: rest =>
    a.toNat / 4 :: (a.toNat % 4 * 16 + b.toNat / 16) :: (b.toNat % 16 * 4 + c.toNat / 64) ::
      c.toNat % 64 :: sextets rest
  | [a, b] => [a.toNat / 4, a.toNat % 4 * 16 + b.toNat / 16, b.toNat % 16 * 4]
  | [a] => [a.toNat / 4, a.toNat % 4 * 16]
  | [] => []

theorem encode_eq_map (alphabet : Alphabet) (document : Bytes) :
    encode alphabet document = (sextets document).map alphabet.symbol := by
  induction document using sextets.induct with
  | case1 a b c rest ih =>
      have first : (a.toNat * 65536 + b.toNat * 256 + c.toNat) / 262144 = a.toNat / 4 := by
        have := b.toNat_lt
        have := c.toNat_lt
        omega
      have second : (a.toNat * 65536 + b.toNat * 256 + c.toNat) / 4096 % 64 =
          a.toNat % 4 * 16 + b.toNat / 16 := by
        have := b.toNat_lt
        have := c.toNat_lt
        omega
      have third : (a.toNat * 65536 + b.toNat * 256 + c.toNat) / 64 % 64 =
          b.toNat % 16 * 4 + c.toNat / 64 := by
        have := c.toNat_lt
        omega
      have fourth : (a.toNat * 65536 + b.toNat * 256 + c.toNat) % 64 = c.toNat % 64 := by omega
      rw [encode, sextets, first, second, third, fourth, ih]
      rfl
  | case2 a b =>
      have first : (a.toNat * 1024 + b.toNat * 4) / 4096 = a.toNat / 4 := by
        have := b.toNat_lt
        omega
      have second : (a.toNat * 1024 + b.toNat * 4) / 64 % 64 = a.toNat % 4 * 16 + b.toNat / 16 := by
        have := b.toNat_lt
        omega
      have third : (a.toNat * 1024 + b.toNat * 4) % 64 = b.toNat % 16 * 4 := by omega
      rw [encode, sextets, first, second, third]
      rfl
  | case3 a => rfl
  | case4 => rfl

theorem lt_of_mem_sextets {document : Bytes} : ∀ value ∈ sextets document, value < 64 := by
  induction document using sextets.induct with
  | case1 a b c rest ih =>
      have := a.toNat_lt
      have := b.toNat_lt
      have := c.toNat_lt
      simp only [sextets, List.forall_mem_cons]
      exact ⟨by omega, by omega, by omega, by omega, ih⟩
  | case2 a b =>
      have := a.toNat_lt
      have := b.toNat_lt
      simp only [sextets, List.forall_mem_cons]
      exact ⟨by omega, by omega, by omega, nofun⟩
  | case3 a =>
      have := a.toNat_lt
      simp only [sextets, List.forall_mem_cons]
      exact ⟨by omega, by omega, nofun⟩
  | case4 => simp [sextets]

theorem length_encode (alphabet : Alphabet) (document : Bytes) :
    (encode alphabet document).length = (document.length * 4 + 2) / 3 := by
  rw [encode_eq_map, List.length_map]
  induction document using sextets.induct with
  | case1 a b c rest ih =>
      simp only [sextets, List.length_cons, ih]
      omega
  | case2 a b => simp [sextets]
  | case3 a => simp [sextets]
  | case4 => rfl

/-- Four values are three bytes, whatever follows. -/
theorem sextets_group {v w x y : Nat} (first : v < 64) (second : w < 64) (third : x < 64)
    (fourth : y < 64) (rest : Bytes) :
    sextets (UInt8.ofNat (v * 4 + w / 16) :: UInt8.ofNat (w % 16 * 16 + x / 4) ::
      UInt8.ofNat (x % 4 * 64 + y) :: rest) = v :: w :: x :: y :: sextets rest := by
  have one : (UInt8.ofNat (v * 4 + w / 16)).toNat = v * 4 + w / 16 :=
    UInt8.toNat_ofNat_of_lt' (by show _ < 256; omega)
  have two : (UInt8.ofNat (w % 16 * 16 + x / 4)).toNat = w % 16 * 16 + x / 4 :=
    UInt8.toNat_ofNat_of_lt' (by show _ < 256; omega)
  have three : (UInt8.ofNat (x % 4 * 64 + y)).toNat = x % 4 * 64 + y :=
    UInt8.toNat_ofNat_of_lt' (by show _ < 256; omega)
  rw [sextets, one, two, three]
  simp only [List.cons.injEq, and_true]
  omega

/-- The padding that fills up the last group after so many bytes. -/
def canonicalPadding (bytes : Nat) : Nat := (3 - bytes % 3) % 3

/-- With its padding the last group has four symbols. -/
theorem canonicalPadding_fills (bytes : Nat) :
    (bytes * 4 + 2) / 3 + canonicalPadding bytes = (bytes + 2) / 3 * 4 := by
  rw [canonicalPadding]
  have cases : bytes % 3 = 0 ∨ bytes % 3 = 1 ∨ bytes % 3 = 2 := by omega
  rcases cases with rest | rest | rest <;> rw [rest] <;> omega

theorem canonicalPadding_add_three (bytes : Nat) :
    canonicalPadding (bytes + 3) = canonicalPadding bytes := by
  rw [canonicalPadding, canonicalPadding, Nat.add_mod_right]

theorem all_padding_iff {symbols : Bytes} :
    symbols.any (· != padding) = false ↔ ∃ count, symbols = List.replicate count padding := by
  constructor
  · intro all
    refine ⟨symbols.length, List.eq_replicate_of_mem fun symbol member => ?_⟩
    have equal := List.any_eq_false.mp all symbol member
    simpa using equal
  · rintro ⟨count, rfl⟩
    simp

section LastGroup

variable {alphabet : Alphabet} {start index : Nat} {symbol : UInt8} {rest : Bytes}
  {found : List (UInt8 × Nat)}

/-- Padding is the end of the group, and not before its third place. -/
theorem readLastGroup_padding_eq_ok :
    readLastGroup alphabet start index (padding :: rest) = .ok found ↔
      found = [] ∧ 2 ≤ index ∧ ∃ count, rest = List.replicate count padding := by
  rw [readLastGroup, if_pos rfl, ← all_padding_iff]
  by_cases regular : index < 2 ∨ rest.any (· != padding) = true
  · rw [if_pos regular]
    constructor
    · intro impossible
      cases impossible
    · rintro ⟨-, far, all⟩
      rcases regular with near | other
      · omega
      · rw [all] at other
        cases other
  · rw [if_neg regular, Except.ok.injEq, eq_comm]
    rw [not_or, Bool.not_eq_true, Nat.not_lt] at regular
    exact ⟨fun none => ⟨none, regular⟩, fun group => group.1⟩

theorem readLastGroup_symbol_eq_ok (notPadding : symbol ≠ padding) :
    readLastGroup alphabet start index (symbol :: rest) = .ok found ↔
      ∃ value others, alphabet.value? symbol = some value ∧
        readLastGroup alphabet start (index + 1) rest = .ok others ∧
        found = (symbol, value) :: others := by
  rw [readLastGroup, if_neg notPadding]
  constructor
  · intro read
    obtain ⟨value, here, onward⟩ := Outcome.bind_eq_ok.mp read
    obtain ⟨others, later, same⟩ := Outcome.bind_eq_ok.mp onward
    cases same
    exact ⟨value, others, Alphabet.read_eq_ok.mp here, later, rfl⟩
  · rintro ⟨value, others, here, later, rfl⟩
    rw [Alphabet.read_eq_ok.mpr here, later]
    rfl

/-- The last group is made of symbols of the alphabet, and of padding behind the second one. -/
theorem readLastGroup_eq_ok {symbols : Bytes} :
    readLastGroup alphabet start index symbols = .ok found ↔
      (∀ pair ∈ found, alphabet.value? pair.1 = some pair.2) ∧
        ∃ count, symbols = found.map Prod.fst ++ List.replicate count padding ∧
          (0 < count → 2 ≤ index + found.length) := by
  induction symbols generalizing index found with
  | nil =>
      rw [readLastGroup, Except.ok.injEq]
      constructor
      · rintro rfl
        exact ⟨nofun, 0, rfl, nofun⟩
      · rintro ⟨-, count, same, -⟩
        have none := (List.append_eq_nil_iff.mp same.symm).1
        exact (List.map_eq_nil_iff.mp none).symm
  | cons symbol rest ih =>
      by_cases padded : symbol = padding
      · subst padded
        rw [readLastGroup_padding_eq_ok]
        constructor
        · rintro ⟨rfl, far, count, rfl⟩
          exact ⟨nofun, count + 1, rfl, fun _ => far⟩
        · rintro ⟨values, count, same, far⟩
          cases found with
          | nil =>
              cases count with
              | zero => cases same
              | succ count => exact ⟨rfl, far (Nat.succ_pos count), count, (List.cons.inj same).2⟩
          | cons pair found =>
              have value := values pair List.mem_cons_self
              rw [← (List.cons.inj same).1, alphabet.value?_padding] at value
              cases value
      · rw [readLastGroup_symbol_eq_ok padded]
        constructor
        · rintro ⟨value, others, first, later, rfl⟩
          obtain ⟨values, count, rfl, far⟩ := ih.mp later
          refine ⟨List.forall_mem_cons.mpr ⟨first, values⟩, count, rfl, fun some => ?_⟩
          have := far some
          rw [List.length_cons]
          omega
        · rintro ⟨values, count, same, far⟩
          cases found with
          | nil =>
              cases count with
              | zero => cases same
              | succ count => exact absurd (List.cons.inj same).1 padded
          | cons pair found =>
              cases same
              obtain ⟨first, values⟩ := List.forall_mem_cons.mp values
              refine ⟨pair.2, found, first, ih.mpr ⟨values, count, rfl, fun some => ?_⟩, rfl⟩
              have := far some
              rw [List.length_cons] at this
              omega

end LastGroup

/-- Values beside their symbols. -/
def Alphabet.paired (alphabet : Alphabet) (values : List Nat) : List (UInt8 × Nat) :=
  values.map fun value => (alphabet.symbol value, value)

theorem eq_paired {alphabet : Alphabet} {found : List (UInt8 × Nat)}
    (values : ∀ pair ∈ found, alphabet.value? pair.1 = some pair.2) :
    found = alphabet.paired (found.map Prod.snd) ∧ ∀ value ∈ found.map Prod.snd, value < 64 := by
  induction found with
  | nil => exact ⟨rfl, nofun⟩
  | cons pair found ih =>
      obtain ⟨first, later⟩ := List.forall_mem_cons.mp values
      obtain ⟨small, symbol⟩ := Alphabet.value?_eq_some.mp first
      obtain ⟨same, below⟩ := ih later
      refine ⟨?_, List.forall_mem_cons.mpr ⟨small, below⟩⟩
      have head : pair = (alphabet.symbol pair.2, pair.2) := Prod.ext symbol rfl
      exact List.cons.injEq .. ▸ ⟨head, same⟩

theorem value?_of_mem_paired {alphabet : Alphabet} {document : Bytes} :
    ∀ pair ∈ alphabet.paired (sextets document), alphabet.value? pair.1 = some pair.2 := by
  intro pair member
  obtain ⟨value, within, rfl⟩ := List.mem_map.mp member
  exact alphabet.value?_symbol value (lt_of_mem_sextets value within)

theorem map_fst_paired (alphabet : Alphabet) (document : Bytes) :
    (alphabet.paired (sextets document)).map Prod.fst = encode alphabet document := by
  rw [encode_eq_map, Alphabet.paired, List.map_map]
  rfl

theorem ofNat_eq {n : Nat} {b : UInt8} (same : n = b.toNat) : UInt8.ofNat n = b := by
  rw [same, UInt8.ofNat_toNat]

theorem lastGroupBytes_sextets (alphabet : Alphabet) (start : Nat) {document : Bytes}
    (short : document.length ≤ 3) :
    lastGroupBytes start (alphabet.paired (sextets document)) = .ok document := by
  match document, short with
  | [], _ => rfl
  | [a], _ =>
      have := a.toNat_lt
      simp only [sextets, Alphabet.paired, List.map_cons, List.map_nil, lastGroupBytes]
      rw [if_neg (by omega), ofNat_eq (b := a) (by omega)]
  | [a, b], _ =>
      have := a.toNat_lt
      have := b.toNat_lt
      simp only [sextets, Alphabet.paired, List.map_cons, List.map_nil, lastGroupBytes]
      rw [if_neg (by omega), ofNat_eq (b := a) (by omega), ofNat_eq (b := b) (by omega)]
  | [a, b, c], _ =>
      have := a.toNat_lt
      have := b.toNat_lt
      have := c.toNat_lt
      simp only [sextets, Alphabet.paired, List.map_cons, List.map_nil, lastGroupBytes]
      rw [ofNat_eq (b := a) (by omega), ofNat_eq (b := b) (by omega), ofNat_eq (b := c) (by omega)]

theorem sextets_of_lastGroupBytes {alphabet : Alphabet} {start : Nat} {values : List Nat}
    {document : Bytes} (small : ∀ value ∈ values, value < 64) (short : values.length ≤ 4)
    (read : lastGroupBytes start (alphabet.paired values) = .ok document) :
    document.length ≤ 3 ∧ values = sextets document := by
  match values, short with
  | [], _ =>
      cases read
      exact ⟨by simp, rfl⟩
  | [_], _ => cases read
  | [v, w], _ =>
      simp only [List.forall_mem_cons] at small
      obtain ⟨first, second, -⟩ := small
      simp only [Alphabet.paired, List.map_cons, List.map_nil, lastGroupBytes] at read
      split at read
      · cases read
      · cases read
        have one : (UInt8.ofNat (v * 4 + w / 16)).toNat = v * 4 + w / 16 :=
          UInt8.toNat_ofNat_of_lt' (by show _ < 256; omega)
        refine ⟨by simp, ?_⟩
        rw [sextets, one]
        simp only [List.cons.injEq, and_true]
        omega
  | [v, w, x], _ =>
      simp only [List.forall_mem_cons] at small
      obtain ⟨first, second, third, -⟩ := small
      simp only [Alphabet.paired, List.map_cons, List.map_nil, lastGroupBytes] at read
      split at read
      · cases read
      · cases read
        have one : (UInt8.ofNat (v * 4 + w / 16)).toNat = v * 4 + w / 16 :=
          UInt8.toNat_ofNat_of_lt' (by show _ < 256; omega)
        have two : (UInt8.ofNat (w % 16 * 16 + x / 4)).toNat = w % 16 * 16 + x / 4 :=
          UInt8.toNat_ofNat_of_lt' (by show _ < 256; omega)
        refine ⟨by simp, ?_⟩
        rw [sextets, one, two]
        simp only [List.cons.injEq, and_true]
        omega
  | [v, w, x, y], _ =>
      simp only [List.forall_mem_cons] at small
      obtain ⟨first, second, third, fourth, -⟩ := small
      cases read
      exact ⟨by simp, (sextets_group first second third fourth []).symm⟩

theorem decodeFrom_last {alphabet : Alphabet} {start : Nat} {symbols : Bytes}
    (short : symbols.length ≤ 4) : decodeFrom alphabet start symbols =
      readLastGroup alphabet start 0 symbols >>= lastGroupBytes start := by
  match symbols, short with
  | [], _ => rfl
  | [_], _ => rfl
  | [_, _], _ => rfl
  | [_, _, _], _ => rfl
  | [_, _, _, _], _ => rfl

theorem decodeFrom_last_eq_ok {alphabet : Alphabet} {start : Nat} {symbols document : Bytes}
    (short : symbols.length ≤ 4) : decodeFrom alphabet start symbols = .ok document ↔
      ∃ count ≤ canonicalPadding document.length,
        symbols = encode alphabet document ++ List.replicate count padding := by
  rw [decodeFrom_last short]
  constructor
  · intro read
    obtain ⟨found, group, bytes⟩ := Outcome.bind_eq_ok.mp read
    obtain ⟨values, count, rfl, far⟩ := readLastGroup_eq_ok.mp group
    obtain ⟨paired, small⟩ := eq_paired values
    rw [List.length_append, List.length_map, List.length_replicate] at short
    rw [paired] at bytes
    obtain ⟨few, same⟩ := sextets_of_lastGroupBytes small (by rw [List.length_map]; omega) bytes
    rw [same] at paired
    have length := length_encode alphabet document
    rw [← map_fst_paired, ← paired, List.length_map] at length
    have fills := canonicalPadding_fills document.length
    exact ⟨count, by omega, by rw [← map_fst_paired, ← paired]⟩
  · rintro ⟨count, bound, rfl⟩
    have length := length_encode alphabet document
    have fills := canonicalPadding_fills document.length
    rw [List.length_append, List.length_replicate, length] at short
    have group : readLastGroup alphabet start 0
          (encode alphabet document ++ List.replicate count padding) =
        .ok (alphabet.paired (sextets document)) := by
      refine readLastGroup_eq_ok.mpr ⟨value?_of_mem_paired, count, by rw [map_fst_paired], ?_⟩
      intro some
      have paired : (alphabet.paired (sextets document)).length = (document.length * 4 + 2) / 3 := by
        rw [← length, ← map_fst_paired, List.length_map]
      rcases Nat.eq_zero_or_pos document.length with none | some <;> omega
    rw [group]
    exact lastGroupBytes_sextets alphabet start (by omega)

/-- A full group that is not the last one is three bytes of their own. -/
theorem decodeFrom_group (alphabet : Alphabet) (start : Nat) {v w x y : Nat} (first : v < 64)
    (second : w < 64) (third : x < 64) (fourth : y < 64) (next : UInt8) (rest : Bytes) :
    decodeFrom alphabet start (alphabet.symbol v :: alphabet.symbol w :: alphabet.symbol x ::
      alphabet.symbol y :: next :: rest) =
      (decodeFrom alphabet (start + 4) (next :: rest)).map fun others =>
        UInt8.ofNat (v * 4 + w / 16) :: UInt8.ofNat (w % 16 * 16 + x / 4) ::
          UInt8.ofNat (x % 4 * 64 + y) :: others := by
  have read (offset : Nat) {value : Nat} (small : value < 64) :
      alphabet.read offset (alphabet.symbol value) = .ok value :=
    Alphabet.read_eq_ok.mpr (alphabet.value?_symbol value small)
  rw [decodeFrom, read _ first, read _ second, read _ third, read _ fourth]
  dsimp only [bind, Except.bind]
  cases decodeFrom alphabet (start + 4) (next :: rest) <;> rfl

/-- The symbols of a full group have values. -/
theorem values_of_decodeFrom {alphabet : Alphabet} {start : Nat} {a b c d next : UInt8}
    {rest document : Bytes}
    (read : decodeFrom alphabet start (a :: b :: c :: d :: next :: rest) = .ok document) :
    ∃ v < 64, ∃ w < 64, ∃ x < 64, ∃ y < 64, a = alphabet.symbol v ∧ b = alphabet.symbol w ∧
      c = alphabet.symbol x ∧ d = alphabet.symbol y := by
  rw [decodeFrom] at read
  obtain ⟨v, first, read⟩ := Outcome.bind_eq_ok.mp read
  obtain ⟨w, second, read⟩ := Outcome.bind_eq_ok.mp read
  obtain ⟨x, third, read⟩ := Outcome.bind_eq_ok.mp read
  obtain ⟨y, fourth, read⟩ := Outcome.bind_eq_ok.mp read
  obtain ⟨smallV, isV⟩ := Alphabet.value?_eq_some.mp (Alphabet.read_eq_ok.mp first)
  obtain ⟨smallW, isW⟩ := Alphabet.value?_eq_some.mp (Alphabet.read_eq_ok.mp second)
  obtain ⟨smallX, isX⟩ := Alphabet.value?_eq_some.mp (Alphabet.read_eq_ok.mp third)
  obtain ⟨smallY, isY⟩ := Alphabet.value?_eq_some.mp (Alphabet.read_eq_ok.mp fourth)
  exact ⟨v, smallV, w, smallW, x, smallX, y, smallY, isV, isW, isX, isY⟩

/-- A text is read as what it is written for, with any padding up to the full last group. -/
theorem decodeFrom_eq_ok {alphabet : Alphabet} {start : Nat} {symbols document : Bytes} :
    decodeFrom alphabet start symbols = .ok document ↔
      ∃ count ≤ canonicalPadding document.length,
        symbols = encode alphabet document ++ List.replicate count padding := by
  induction start, symbols using decodeFrom.induct generalizing document with
  | case1 start a b c d next rest ih =>
      constructor
      · intro read
        obtain ⟨v, first, w, second, x, third, y, fourth, rfl, rfl, rfl, rfl⟩ :=
          values_of_decodeFrom read
        rw [decodeFrom_group alphabet start first second third fourth] at read
        obtain ⟨others, later, rfl⟩ := Outcome.map_eq_ok.mp read
        obtain ⟨count, bound, tail⟩ := ih.mp later
        refine ⟨count, ?_, ?_⟩
        · show count ≤ canonicalPadding (others.length + 3)
          rwa [canonicalPadding_add_three]
        · rw [encode_eq_map, sextets_group first second third fourth, tail, encode_eq_map]
          rfl
      · rintro ⟨count, bound, same⟩
        have length := length_encode alphabet document
        have fills := canonicalPadding_fills document.length
        have total := congrArg List.length same
        rw [List.length_append, List.length_replicate, length] at total
        simp only [List.length_cons] at total
        have long : 4 ≤ document.length := by omega
        match document, long with
        | p :: q :: r :: document, _ =>
            have := p.toNat_lt
            have := q.toNat_lt
            have := r.toNat_lt
            rw [encode_eq_map, sextets] at same
            simp only [List.map_cons, List.cons_append, List.cons.injEq] at same
            obtain ⟨rfl, rfl, rfl, rfl, tail⟩ := same
            rw [← encode_eq_map] at tail
            rw [decodeFrom_group alphabet start (by omega) (by omega) (by omega) (by omega),
              ih.mpr ⟨count, by rwa [← canonicalPadding_add_three], tail⟩, Except.map,
              ofNat_eq (b := p) (by omega), ofNat_eq (b := q) (by omega), ofNat_eq (b := r) (by omega)]
  | case2 start symbols notLong =>
      apply decodeFrom_last_eq_ok
      match symbols, notLong with
      | [], _ => simp
      | [_], _ => simp
      | [_, _], _ => simp
      | [_, _, _], _ => simp
      | [_, _, _, _], _ => simp
      | a :: b :: c :: d :: next :: rest, notLong => exact absurd rfl (notLong a b c d next rest)

/-- No text that can be read ends in a lone symbol. -/
theorem loneLast?_eq_none (alphabet : Alphabet) (document : Bytes) {count : Nat}
    (bound : count ≤ canonicalPadding document.length) :
    loneLast? alphabet (encode alphabet document ++ List.replicate count padding) = none := by
  have notLone : (encode alphabet document ++ List.replicate count padding).length % 4 ≠ 1 := by
    have fills := canonicalPadding_fills document.length
    have small : canonicalPadding document.length ≤ 2 := by
      rw [canonicalPadding]
      omega
    rw [List.length_append, List.length_replicate, length_encode]
    omega
  rw [loneLast?]
  split
  · rw [if_neg fun lone => notLone lone.1]
  · rfl

/-- The texts of a document are what is written for it, with any padding up to the full last group. -/
theorem decode_eq_ok {alphabet : Alphabet} {symbols document : Bytes} :
    decode alphabet symbols = .ok document ↔ ∃ count ≤ canonicalPadding document.length,
      symbols = encode alphabet document ++ List.replicate count padding := by
  constructor
  · intro read
    rw [decode] at read
    split at read
    · cases read
    · exact decodeFrom_eq_ok.mp read
  · rintro ⟨count, bound, rfl⟩
    rw [decode, loneLast?_eq_none alphabet document bound]
    exact decodeFrom_eq_ok.mpr ⟨count, bound, rfl⟩

theorem decode_encode (alphabet : Alphabet) (document : Bytes) :
    decode alphabet (encode alphabet document) = .ok document :=
  decode_eq_ok.mpr ⟨0, Nat.zero_le _, (List.append_nil _).symm⟩

theorem eq_of_map_symbol {first second : Alphabet} {values others : List Nat}
    (small : ∀ value ∈ values, value < 64) (otherSmall : ∀ value ∈ others, value < 64)
    (same : values.map first.symbol = others.map second.symbol) : values = others := by
  induction values generalizing others with
  | nil => exact (List.map_eq_nil_iff.mp same.symm).symm
  | cons value values ih =>
      cases others with
      | nil => cases same
      | cons other others =>
          obtain ⟨head, tail⟩ := List.cons.inj same
          obtain ⟨here, later⟩ := List.forall_mem_cons.mp small
          obtain ⟨otherHere, otherLater⟩ := List.forall_mem_cons.mp otherSmall
          rw [Alphabet.value_unique here otherHere head, ih later otherLater tail]

/-- A text begins with the symbols before its padding. -/
theorem takeWhile_padded (alphabet : Alphabet) (document : Bytes) (count : Nat) :
    (encode alphabet document ++ List.replicate count padding).takeWhile (· != padding) =
      encode alphabet document := by
  have symbols : ∀ symbol ∈ encode alphabet document, (symbol != padding) = true := by
    intro symbol member
    rw [encode_eq_map] at member
    obtain ⟨value, within, rfl⟩ := List.mem_map.mp member
    simpa using alphabet.symbol_ne_padding (lt_of_mem_sextets value within)
  have none : (List.replicate count padding).takeWhile (· != padding) = [] := by
    cases count <;> simp [List.replicate_succ]
  rw [List.takeWhile_append_of_pos symbols, none, List.append_nil]

/-- A text stands for one document, in whichever alphabet it is read. -/
theorem document_unique {first second : Alphabet} {document other : Bytes} {count number : Nat}
    (same : encode first document ++ List.replicate count padding =
      encode second other ++ List.replicate number padding) : document = other := by
  have symbols : encode first document = encode second other := by
    rw [← takeWhile_padded first document count, same, takeWhile_padded]
  rw [encode_eq_map, encode_eq_map] at symbols
  have values := eq_of_map_symbol lt_of_mem_sextets lt_of_mem_sextets symbols
  have read := decode_encode first document
  rw [encode_eq_map, values, ← encode_eq_map, decode_encode] at read
  cases read
  rfl

theorem head?_sextets (b : UInt8) (rest : Bytes) :
    (sextets (b :: rest)).head? = some (b.toNat / 4) := by
  match rest with
  | [] => rfl
  | [_] => rfl
  | _ :: _ :: _ => rfl

/-- The last value is a multiple of four, or the last six bits of a full group. -/
theorem getLast?_sextets {document : Bytes} {value : Nat}
    (last : value ∈ (sextets document).getLast?) :
    value % 4 = 0 ∨ ∃ b ∈ document.getLast?, value = b.toNat % 64 := by
  induction document using sextets.induct with
  | case1 a b c rest ih =>
      cases rest with
      | nil =>
          cases last
          exact .inr ⟨c, rfl, rfl⟩
      | cons next rest =>
          obtain ⟨first, tail, shape⟩ : ∃ first tail, sextets (next :: rest) = first :: tail := by
            have head := head?_sextets next rest
            cases shape : sextets (next :: rest) with
            | nil =>
                rw [shape] at head
                cases head
            | cons first tail => exact ⟨first, tail, rfl⟩
          rw [sextets, shape] at last
          rw [shape] at ih
          exact ih last
  | case2 a b =>
      have same : b.toNat % 16 * 4 = value := Option.some.inj last
      exact .inl (by omega)
  | case3 a =>
      have same : a.toNat % 4 * 16 = value := Option.some.inj last
      exact .inl (by omega)
  | case4 => cases last

end PartnerSearch.Base64
