import PartnerSearch.Json.Reader
import PartnerSearch.Proofs.Outcome

set_option autoImplicit false

/-!
What the readers find and what they leave, apart from the proof that it is less. One equation for
each reader; later proofs go by these.
-/

namespace PartnerSearch.Json

open Text (Bytes)

variable {ε α β : Type}

/-- What a reader finds at the front of its input, and the bytes that it leaves. -/
def run (reader : Reader ε α) (input : Bytes) : Except ε (α × Bytes) :=
  (reader input).map fun front => (front.value, front.rest)

theorem run_of_ok {reader : Reader ε α} {input : Bytes} {front : Front α input}
    (read : reader input = .ok front) : run reader input = .ok (front.value, front.rest) := by
  rw [run, read]
  rfl

theorem front_of_run {reader : Reader ε α} {input : Bytes} {value : α} {rest : Bytes}
    (read : run reader input = .ok (value, rest)) :
    ∃ shorter, reader input = .ok ⟨value, rest, shorter⟩ := by
  obtain ⟨front, found, same⟩ := Outcome.map_eq_ok.mp read
  cases same
  exact ⟨front.shorter, found⟩

theorem shorter_of_run {reader : Reader ε α} {input : Bytes} {value : α} {rest : Bytes}
    (read : run reader input = .ok (value, rest)) : rest.length < input.length := by
  obtain ⟨shorter, -⟩ := front_of_run read
  exact shorter

theorem bind_run {γ : Type} (reader : Reader ε α) (input : Bytes)
    (next : α × Bytes → Except ε γ) :
    (reader input >>= fun front => next (front.value, front.rest)) = run reader input >>= next := by
  unfold run
  cases reader input <;> rfl

/-- A reader that goes on after another one: what it leaves apart, step by step. -/
theorem map_parts_bind {input : Bytes} {γ : Type} {read : Except ε (Front α input)}
    {next : Front α input → Except ε γ} {parts : γ → β × Bytes}
    {onward : α × Bytes → Except ε (β × Bytes)}
    (agree : ∀ front, (next front).map parts = onward (front.value, front.rest)) :
    (read >>= next).map parts =
      (read.map fun front => (front.value, front.rest)) >>= onward := by
  cases read with
  | error fault => rfl
  | ok front => exact agree front

theorem skipBlanks_cons_of_not_blank {b : UInt8} (solid : isBlankByte b = false) (rest : Bytes) :
    skipBlanks (b :: rest) = b :: rest := by
  rw [skipBlanks, List.dropWhile_cons_of_neg (by simp [solid])]

theorem run_readEscape (input : Bytes) : run readEscape input =
    match input with
    | [] => .error .unclosedString
    | b :: rest =>
      match simpleEscape? b with
      | some value => .ok ([value], rest)
      | none => if b = 0x75 then run readUnicodeEscape rest else .error .invalidEscape := by
  unfold run
  cases input with
  | nil => rfl
  | cons b rest =>
      rw [readEscape]
      dsimp only
      cases simpleEscape? b with
      | some value => rfl
      | none =>
          by_cases unicode : b = 0x75
          · simp only [unicode, if_true]
            cases readUnicodeEscape rest <;> rfl
          · simp only [unicode, if_false]
            rfl

theorem run_readContent (input : Bytes) : run readContent input =
    match input with
    | [] => .error .unclosedString
    | 0x22 :: rest => .ok ([], rest)
    | 0x5C :: rest => do
      let escape ← run readEscape rest
      let content ← run readContent escape.2
      return (escape.1 ++ content.1, content.2)
    | b :: rest =>
      if b < 0x20 then .error .controlCharacter
      else do
        let content ← run readContent rest
        return (b :: content.1, content.2) := by
  unfold run
  rw [readContent.eq_def]
  split
  · rfl
  · rfl
  · exact map_parts_bind fun escape => map_parts_bind fun _ => rfl
  · rename_i b rest notQuote notBackslash
    by_cases control : b < 0x20
    · simp only [control, if_true]
      rfl
    · simp only [control, if_false]
      exact map_parts_bind fun _ => rfl

theorem run_readString (input : Bytes) : run readString input = (do
    let content ← run readContent input
    match Text.ofBytes? content.1 with
    | some text => return (text, content.2)
    | none => .error .invalidUnicode) := by
  unfold run readString
  refine map_parts_bind fun content => ?_
  dsimp only
  cases Text.ofBytes? content.value <;> rfl

theorem run_readScalar_string (input : Bytes) : run readScalar (0x22 :: input) =
    (run readString input).map fun read => (.string read.1, read.2) := by
  unfold run readScalar
  show Except.map _ (Except.map _ (readString _)) = _
  cases readString input <;> rfl

theorem run_readColon (input : Bytes) : run readColon input =
    match skipBlanks input with
    | [] => .error .unclosedObject
    | 0x3A :: rest => .ok ((), rest)
    | _ => .error .expectedColon := by
  unfold run readColon
  split <;> simp_all [Except.map]

theorem run_readFirstName (input : Bytes) : run readFirstName input =
    match skipBlanks input with
    | [] => .error .unclosedObject
    | 0x7D :: rest => .ok (none, rest)
    | 0x22 :: rest => (run readString rest).map fun read => (some read.1, read.2)
    | _ => .error .keyNotString := by
  unfold run readFirstName
  split <;> rename_i shape <;> simp only [shape]
  · rfl
  · rfl
  · cases readString _ <;> rfl
  · rfl

theorem run_readNextName (input : Bytes) : run readNextName input =
    match skipBlanks input with
    | [] => .error .unclosedObject
    | 0x7D :: rest => .ok (none, rest)
    | 0x2C :: rest =>
      match skipBlanks rest with
      | [] => .error .missingValue
      | 0x7D :: _ => .error .trailingComma
      | 0x22 :: after => (run readString after).map fun read => (some read.1, read.2)
      | _ => .error .keyNotString
    | _ => .error .expectedObjectCommaOrEnd := by
  unfold run readNextName
  split <;> rename_i shape <;> simp only [shape]
  · rfl
  · rfl
  · split <;> rename_i following <;> simp only [following]
    · rfl
    · rfl
    · cases readString _ <;> rfl
    · rfl
  · rfl

theorem skipBlanks_of_noFirstName {input rest : Bytes}
    (none : run readFirstName input = .ok (none, rest)) : skipBlanks input = 0x7D :: rest := by
  rw [run_readFirstName] at none
  split at none
  · cases none
  · rename_i closing
    cases none
    exact closing
  · obtain ⟨_, -, impossible⟩ := Outcome.map_eq_ok.mp none
    cases impossible
  · cases none

theorem skipBlanks_of_noNextName {input rest : Bytes}
    (none : run readNextName input = .ok (none, rest)) : skipBlanks input = 0x7D :: rest := by
  rw [run_readNextName] at none
  split at none
  · cases none
  · rename_i closing
    cases none
    exact closing
  · split at none
    · cases none
    · cases none
    · obtain ⟨_, -, impossible⟩ := Outcome.map_eq_ok.mp none
      cases impossible
    · cases none
  · cases none

theorem run_readMoreItems (syntaxFault : SyntaxFault → ε) (item : Reader ε α) (input : Bytes) :
    run (readMoreItems syntaxFault item) input =
      match skipBlanks input with
      | [] => .error (syntaxFault .unclosedList)
      | 0x5D :: rest => .ok ([], rest)
      | 0x2C :: rest =>
        match skipBlanks rest with
        | [] => .error (syntaxFault .missingValue)
        | 0x5D :: _ => .error (syntaxFault .trailingComma)
        | _ => do
          let first ← run item rest
          let others ← run (readMoreItems syntaxFault item) first.2
          return (first.1 :: others.1, others.2)
      | _ => .error (syntaxFault .expectedListCommaOrEnd) := by
  unfold run
  rw [readMoreItems]
  split <;> rename_i shape <;> simp only [shape]
  · rfl
  · rfl
  · rename_i after
    cases ahead : skipBlanks after with
    | nil => rfl
    | cons b tail =>
        by_cases closing : b = 0x5D
        · subst closing
          rfl
        · -- each side has a match of its own, and they are taken one by one
          refine Eq.trans (?_ : _ = (do
            let first ← run item after
            let others ← run (readMoreItems syntaxFault item) first.2
            return (first.1 :: others.1, others.2))) ?_
          · split
            case h_1 empty => cases empty
            case h_2 same =>
              cases same
              exact absurd rfl closing
            case h_3 => exact map_parts_bind fun first => map_parts_bind fun _ => rfl
          · split
            case h_1 empty => cases empty
            case h_2 same =>
              cases same
              exact absurd rfl closing
            case h_3 => rfl
  · rfl

theorem run_readItems (syntaxFault : SyntaxFault → ε) (item : Reader ε α) (input : Bytes) :
    run (readItems syntaxFault item) input =
      match skipBlanks input with
      | [] => .error (syntaxFault .unclosedList)
      | 0x5D :: rest => .ok ([], rest)
      | _ => do
        let first ← run item input
        let others ← run (readMoreItems syntaxFault item) first.2
        return (first.1 :: others.1, others.2) := by
  unfold run readItems
  split <;> rename_i shape <;> simp only [shape]
  · rfl
  · rfl
  · exact map_parts_bind fun first => map_parts_bind fun _ => rfl

theorem run_readMoreItems_comma {syntaxFault : SyntaxFault → ε} {item : Reader ε α}
    {input rest tail : Bytes} {b : UInt8} (comma : skipBlanks input = 0x2C :: rest)
    (next : skipBlanks rest = b :: tail) (notClosing : b ≠ 0x5D) :
    run (readMoreItems syntaxFault item) input = (do
      let first ← run item rest
      let others ← run (readMoreItems syntaxFault item) first.2
      return (first.1 :: others.1, others.2)) := by
  rw [run_readMoreItems, comma]
  split <;> simp_all

theorem run_readMoreItems_end {syntaxFault : SyntaxFault → ε} {item : Reader ε α}
    {input rest : Bytes} (closing : skipBlanks input = 0x5D :: rest) :
    run (readMoreItems syntaxFault item) input = .ok ([], rest) := by
  rw [run_readMoreItems, closing]
  rfl

/-- Items end at the bracket, or go on after a comma that the bracket does not follow. -/
theorem readMoreItems_ok {syntaxFault : SyntaxFault → ε} {item : Reader ε α}
    {input rest : Bytes} {values : List α}
    (read : run (readMoreItems syntaxFault item) input = .ok (values, rest)) :
    (values = [] ∧ skipBlanks input = 0x5D :: rest) ∨
      ∃ after b tail first middle more, skipBlanks input = 0x2C :: after ∧
        skipBlanks after = b :: tail ∧ b ≠ 0x5D ∧ run item after = .ok (first, middle) ∧
        run (readMoreItems syntaxFault item) middle = .ok (more, rest) ∧ values = first :: more := by
  rw [run_readMoreItems] at read
  split at read
  · cases read
  · rename_i closing
    cases read
    exact .inl ⟨rfl, closing⟩
  · rename_i after comma
    split at read
    · cases read
    · cases read
    · rename_i notEmpty notClosing
      obtain ⟨⟨first, middle⟩, found, onward⟩ := Outcome.bind_eq_ok.mp read
      obtain ⟨⟨more, _⟩, later, same⟩ := Outcome.bind_eq_ok.mp onward
      cases same
      cases ahead : skipBlanks after with
      | nil => exact absurd ahead notEmpty
      | cons b tail =>
          refine .inr ⟨after, b, tail, first, middle, more, comma, ahead, ?_, found, later, rfl⟩
          rintro rfl
          exact notClosing tail ahead
  · cases read

theorem run_readItems_end {syntaxFault : SyntaxFault → ε} {item : Reader ε α}
    {input rest : Bytes} (closing : skipBlanks input = 0x5D :: rest) :
    run (readItems syntaxFault item) input = .ok ([], rest) := by
  rw [run_readItems, closing]
  rfl

theorem readItems_ok {syntaxFault : SyntaxFault → ε} {item : Reader ε α}
    {input rest : Bytes} {values : List α}
    (read : run (readItems syntaxFault item) input = .ok (values, rest)) :
    (values = [] ∧ skipBlanks input = 0x5D :: rest) ∨
      ∃ b tail first middle more, skipBlanks input = b :: tail ∧ b ≠ 0x5D ∧
        run item input = .ok (first, middle) ∧
        run (readMoreItems syntaxFault item) middle = .ok (more, rest) ∧ values = first :: more := by
  rw [run_readItems] at read
  split at read
  · cases read
  · rename_i closing
    cases read
    exact .inl ⟨rfl, closing⟩
  · rename_i notEmpty notClosing
    obtain ⟨⟨first, middle⟩, found, onward⟩ := Outcome.bind_eq_ok.mp read
    obtain ⟨⟨more, _⟩, later, same⟩ := Outcome.bind_eq_ok.mp onward
    cases same
    cases ahead : skipBlanks input with
    | nil => exact absurd ahead notEmpty
    | cons b tail =>
        refine .inr ⟨b, tail, first, middle, more, rfl, ?_, found, later, rfl⟩
        rintro rfl
        exact notClosing tail ahead

theorem run_readItems_first {syntaxFault : SyntaxFault → ε} {item : Reader ε α}
    {input tail : Bytes} {b : UInt8} (next : skipBlanks input = b :: tail)
    (notClosing : b ≠ 0x5D) :
    run (readItems syntaxFault item) input = (do
      let first ← run item input
      let others ← run (readMoreItems syntaxFault item) first.2
      return (first.1 :: others.1, others.2)) := by
  rw [run_readItems, next]
  split <;> simp_all

theorem run_readMembers (child : Reader SyntaxFault Json) (name : String) (input : Bytes) :
    run (readMembers child name) input = (do
      let colon ← run readColon input
      let value ← run child colon.2
      let next ← run readNextName value.2
      match next.1 with
      | none => return ([(name, value.1)], next.2)
      | some following =>
        let others ← run (readMembers child following) next.2
        return ((name, value.1) :: others.1, others.2)) := by
  unfold run
  rw [readMembers]
  refine map_parts_bind fun colon => map_parts_bind fun value => map_parts_bind fun next => ?_
  cases next.value with
  | none => rfl
  | some following => exact map_parts_bind fun _ => rfl

/-- The members from one on are that one, and those from the next name on. -/
theorem readMembers_ok {child : Reader SyntaxFault Json} {name : String} {input rest : Bytes}
    {members : List (String × Json)} (read : run (readMembers child name) input = .ok (members, rest)) :
    ∃ start value after more, run readColon input = .ok ((), start) ∧
      run child start = .ok (value, after) ∧ members = (name, value) :: more ∧
      ((more = [] ∧ run readNextName after = .ok (none, rest)) ∨
        ∃ following middle, run readNextName after = .ok (some following, middle) ∧
          run (readMembers child following) middle = .ok (more, rest)) := by
  rw [run_readMembers] at read
  obtain ⟨⟨_, start⟩, colon, read⟩ := Outcome.bind_eq_ok.mp read
  obtain ⟨⟨value, after⟩, found, read⟩ := Outcome.bind_eq_ok.mp read
  obtain ⟨⟨next, middle⟩, named, read⟩ := Outcome.bind_eq_ok.mp read
  cases next with
  | none =>
      cases read
      exact ⟨start, value, after, [], colon, found, rfl, .inl ⟨rfl, named⟩⟩
  | some following =>
      obtain ⟨⟨more, _⟩, later, same⟩ := Outcome.bind_eq_ok.mp read
      cases same
      exact ⟨start, value, after, more, colon, found, rfl, .inr ⟨following, middle, named, later⟩⟩

theorem run_readEmbeddedText (input : Bytes) : run readEmbeddedText input =
    match skipBlanks input with
    | 0x22 :: rest => run readString rest
    | _ => describeFront input >>= fun found => .error (.embeddedNotText found) := by
  unfold run readEmbeddedText
  split <;> rename_i shape <;> simp only [shape]
  · cases readString _ <;> rfl
  · cases describeFront input <;> rfl

theorem run_readClosingBrace (input : Bytes) : run readClosingBrace input =
    match skipBlanks input with
    | [] => .error .unclosedObject
    | 0x7D :: rest => .ok ((), rest)
    | 0x2C :: _ => .error .trailingComma
    | _ => .error .trailingCharacters := by
  unfold run readClosingBrace
  split <;> rename_i shape <;> simp only [shape] <;> rfl

theorem run_readEmbedded (embedded : Bytes → Except SyntaxFault Json) (input : Bytes) :
    run (readEmbedded embedded) input = (do
      let colon ← run readColon input
      let text ← run readEmbeddedText colon.2
      let value ← embedded (Text.bytes text.1)
      let closing ← run readClosingBrace text.2
      return (value, closing.2)) := by
  unfold run readEmbedded
  refine map_parts_bind fun colon => map_parts_bind fun text => ?_
  cases embedded (Text.bytes text.value) with
  | error fault => rfl
  | ok value => exact map_parts_bind fun _ => rfl

theorem readEmbedded_ok {embedded : Bytes → Except SyntaxFault Json} {input rest : Bytes}
    {value : Json} (read : run (readEmbedded embedded) input = .ok (value, rest)) :
    ∃ start text tail, run readColon input = .ok ((), start) ∧
      run readEmbeddedText start = .ok (text, tail) ∧ embedded (Text.bytes text) = .ok value ∧
      run readClosingBrace tail = .ok ((), rest) := by
  rw [run_readEmbedded] at read
  obtain ⟨⟨_, start⟩, colon, read⟩ := Outcome.bind_eq_ok.mp read
  obtain ⟨⟨text, tail⟩, quoted, read⟩ := Outcome.bind_eq_ok.mp read
  obtain ⟨_, found, read⟩ := Outcome.bind_eq_ok.mp read
  obtain ⟨⟨_, last⟩, closing, same⟩ := Outcome.bind_eq_ok.mp read
  cases same
  exact ⟨start, text, tail, colon, quoted, found, closing⟩

theorem run_readObject (embedded : Bytes → Except SyntaxFault Json)
    (child : Reader SyntaxFault Json) (input : Bytes) :
    run (readObject embedded child) input = (do
      let first ← run readFirstName input
      match first.1 with
      | none => return (.object [], first.2)
      | some name =>
        if name = embeddedName then run (readEmbedded embedded) first.2
        else
          let members ← run (readMembers child name) first.2
          return (ofMembers members.1, members.2)) := by
  unfold run readObject
  refine map_parts_bind fun first => ?_
  cases first.value with
  | none => rfl
  | some name =>
      by_cases special : name = embeddedName
      · simp only [special, if_true]
        cases readEmbedded embedded first.rest <;> rfl
      · simp only [special, if_false]
        exact map_parts_bind fun _ => rfl

/-- An object is empty, stands for an embedded document, or has the members from its first name on. -/
theorem readObject_ok {embedded : Bytes → Except SyntaxFault Json} {child : Reader SyntaxFault Json}
    {input rest : Bytes} {value : Json}
    (read : run (readObject embedded child) input = .ok (value, rest)) :
    (value = .object [] ∧ run readFirstName input = .ok (none, rest)) ∨
      (∃ after, run readFirstName input = .ok (some embeddedName, after) ∧
        run (readEmbedded embedded) after = .ok (value, rest)) ∨
      ∃ name after members, name ≠ embeddedName ∧
        run readFirstName input = .ok (some name, after) ∧
        run (readMembers child name) after = .ok (members, rest) ∧ value = ofMembers members := by
  rw [run_readObject] at read
  obtain ⟨⟨name, after⟩, named, read⟩ := Outcome.bind_eq_ok.mp read
  cases name with
  | none =>
      cases read
      exact .inl ⟨rfl, named⟩
  | some name =>
      dsimp only at read
      by_cases special : name = embeddedName
      · subst special
        exact .inr (.inl ⟨after, named, read⟩)
      · rw [if_neg special] at read
        obtain ⟨⟨members, _⟩, found, same⟩ := Outcome.bind_eq_ok.mp read
        cases same
        exact .inr (.inr ⟨name, after, members, special, named, found, rfl⟩)

theorem run_readWith (embedded : Bytes → Except SyntaxFault Json)
    (child : Option (Reader SyntaxFault Json)) (input : Bytes) :
    run (readWith embedded child) input =
      match skipBlanks input with
      | [] => .error .missingValue
      | 0x5B :: rest =>
        match child with
        | none => .error .tooDeep
        | some child => (run (readItems id child) rest).map fun read => (.array read.1, read.2)
      | 0x7B :: rest =>
        match child with
        | none => .error .tooDeep
        | some child => run (readObject embedded child) rest
      | b :: rest => run readScalar (b :: rest) := by
  unfold run readWith
  split
  · rename_i shape
    simp only [shape]
    rfl
  · rename_i rest shape
    simp only [shape]
    cases child with
    | none => rfl
    | some child =>
        dsimp only
        cases readItems id child rest <;> rfl
  · rename_i rest shape
    simp only [shape]
    cases child with
    | none => rfl
    | some child =>
        dsimp only
        cases readObject embedded child rest <;> rfl
  · rename_i b rest notList notObject shape
    simp only [shape]
    cases readScalar (b :: rest) <;> rfl

theorem run_readWith_quote (embedded : Bytes → Except SyntaxFault Json)
    (child : Option (Reader SyntaxFault Json)) {input rest : Bytes}
    (quote : skipBlanks input = 0x22 :: rest) : run (readWith embedded child) input =
      (run readString rest).map fun read => (.string read.1, read.2) := by
  rw [run_readWith, quote]
  exact run_readScalar_string rest

theorem run_readValue_list (embedded : Bytes → Except SyntaxFault Json) (levels : Nat)
    {input rest : Bytes} (opening : skipBlanks input = 0x5B :: rest) :
    run (readValue embedded (levels + 1)) input =
      (run (readItems id (readValue embedded levels)) rest).map fun read => (.array read.1, read.2) := by
  show run (readWith embedded (some (readValue embedded levels))) input = _
  rw [run_readWith, opening]
  rfl

theorem run_readValue_object (embedded : Bytes → Except SyntaxFault Json) (levels : Nat)
    {input rest : Bytes} (opening : skipBlanks input = 0x7B :: rest) :
    run (readValue embedded (levels + 1)) input =
      run (readObject embedded (readValue embedded levels)) rest := by
  show run (readWith embedded (some (readValue embedded levels))) input = _
  rw [run_readWith, opening]
  rfl

end PartnerSearch.Json
