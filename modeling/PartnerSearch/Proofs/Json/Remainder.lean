import PartnerSearch.Proofs.Json.Reading
import PartnerSearch.Proofs.Text.Encoding

set_option autoImplicit false

/-!
What a reader leaves is the end of its input. The bytes that a string stands for are fewer than the
bytes it is written with.
-/

namespace PartnerSearch.Json

open Text (Bytes)

variable {ε α : Type}

/-- The bytes that are left are the last ones of the input. -/
def KeepsEnd (reader : Reader ε α) : Prop :=
  ∀ ⦃input : Bytes⦄ ⦃value : α⦄ ⦃rest : Bytes⦄,
    run reader input = .ok (value, rest) → rest <:+ input

theorem suffix_of_skipBlanks {input rest : Bytes} {b : UInt8}
    (skipped : skipBlanks input = b :: rest) : b :: rest <:+ input := by
  rw [← skipped]
  exact List.dropWhile_suffix isBlankByte

theorem rest_suffix_of_skipBlanks {input rest : Bytes} {b : UInt8}
    (skipped : skipBlanks input = b :: rest) : rest <:+ input :=
  (List.suffix_cons b rest).trans (suffix_of_skipBlanks skipped)

/-- The value is not longer than the bytes that have been taken for it. -/
def Shrinks (reader : Reader ε Bytes) (spare : Nat) : Prop :=
  ∀ ⦃input value rest : Bytes⦄, run reader input = .ok (value, rest) →
    rest <:+ input ∧ value.length + rest.length + spare ≤ input.length

theorem readHex_rest {input : Bytes} {front : Front Nat input} (read : readHex input = .ok front) :
    front.rest <:+ input ∧ front.rest.length + 4 = input.length := by
  unfold readHex at read
  split at read
  · rename_i a b c d rest
    split at read
    · cases read
      exact ⟨⟨[a, b, c, d], rfl⟩, rfl⟩
    · cases read
  · cases read

theorem length_codePointBytes_le (n : Nat) : (codePointBytes n).length ≤ 4 := by
  rw [codePointBytes, String.length_utf8EncodeChar]
  exact Char.utf8Size_le_four _

theorem shrinks_readUnicodeEscape : Shrinks readUnicodeEscape 0 := by
  intro input value rest read
  obtain ⟨shorter, found⟩ := front_of_run read
  obtain ⟨first, hex, onward⟩ := Outcome.bind_eq_ok.mp found
  obtain ⟨ends, digits⟩ := readHex_rest hex
  split at onward
  · cases onward
  split at onward
  · have same := Outcome.pure_eq_ok.mp onward
    have atValue : codePointBytes first.value = value := congrArg Front.value same
    have atRest : first.rest = rest := congrArg Front.rest same
    have small := length_codePointBytes_le first.value
    rw [atValue] at small
    rw [atRest] at ends digits
    exact ⟨ends, by omega⟩
  split at onward
  · cases onward
  · cases onward
  · rename_i after next
    obtain ⟨second, hex', last⟩ := Outcome.bind_eq_ok.mp onward
    obtain ⟨ends', digits'⟩ := readHex_rest hex'
    split at last
    · have same := Outcome.pure_eq_ok.mp last
      simp only [Front.within, Front.map, Front.mk.injEq] at same
      obtain ⟨atValue, atRest⟩ := same
      have small : value.length ≤ 4 := by
        rw [← atValue]
        exact length_codePointBytes_le _
      rw [atRest] at ends' digits'
      have counted := congrArg List.length next
      simp only [List.length_cons] at counted
      refine ⟨ends'.trans ?_, by omega⟩
      rw [next] at ends
      exact (List.suffix_cons _ _).trans ((List.suffix_cons _ _).trans ends)
    · cases last
  · cases onward

theorem shrinks_readEscape : Shrinks readEscape 0 := by
  intro input value rest read
  rw [run_readEscape] at read
  cases input with
  | nil => cases read
  | cons b after =>
      dsimp only at read
      cases simple : simpleEscape? b with
      | some letter =>
          rw [simple] at read
          cases read
          exact ⟨List.suffix_cons _ _, by simp [Nat.add_comm]⟩
      | none =>
          rw [simple] at read
          dsimp only at read
          split at read
          · obtain ⟨ends, bound⟩ := shrinks_readUnicodeEscape read
            refine ⟨ends.trans (List.suffix_cons _ _), ?_⟩
            simp only [List.length_cons]
            omega
          · cases read

/-- The closing quote stands for nothing. -/
theorem shrinks_readContent : Shrinks readContent 1 := by
  intro input
  induction size : input.length using Nat.strongRecOn generalizing input with
  | ind size ih =>
    intro value rest read
    rw [run_readContent] at read
    split at read
    · cases read
    · cases read
      exact ⟨List.suffix_cons _ _, by simp [← size]⟩
    · rename_i after
      obtain ⟨escape, escaped, onward⟩ := Outcome.bind_eq_ok.mp read
      obtain ⟨content, unescaped, same⟩ := Outcome.bind_eq_ok.mp onward
      cases same
      obtain ⟨ends, bound⟩ := shrinks_readEscape escaped
      simp only [List.length_cons] at size
      obtain ⟨ends', bound'⟩ := ih escape.2.length (by omega) rfl unescaped
      refine ⟨(ends'.trans ends).trans (List.suffix_cons _ _), ?_⟩
      simp only [List.length_append]
      omega
    · rename_i b after notQuote notBackslash
      split at read
      · cases read
      · obtain ⟨content, plain, same⟩ := Outcome.bind_eq_ok.mp read
        cases same
        simp only [List.length_cons] at size
        obtain ⟨ends, bound⟩ := ih after.length (by omega) rfl plain
        refine ⟨ends.trans (List.suffix_cons _ _), ?_⟩
        simp only [List.length_cons]
        omega

theorem readString_rest {input rest : Bytes} {text : String}
    (read : run readString input = .ok (text, rest)) :
    rest <:+ input ∧ (Text.bytes text).length + rest.length < input.length := by
  rw [run_readString] at read
  obtain ⟨content, found, onward⟩ := Outcome.bind_eq_ok.mp read
  obtain ⟨ends, bound⟩ := shrinks_readContent found
  cases decoded : Text.ofBytes? content.1 with
  | none =>
      rw [decoded] at onward
      cases onward
  | some text =>
      rw [decoded] at onward
      cases onward
      refine ⟨ends, ?_⟩
      rw [Text.bytes_of_ofBytes? decoded]
      omega

theorem keepsEnd_readString : KeepsEnd readString :=
  fun _ _ _ read => (readString_rest read).1

/-- An embedded document is shorter than what it is read from. -/
theorem readEmbeddedText_rest {input rest : Bytes} {text : String}
    (read : run readEmbeddedText input = .ok (text, rest)) :
    rest <:+ input ∧ (Text.bytes text).length + rest.length < input.length := by
  rw [run_readEmbeddedText] at read
  split at read
  · rename_i skipped
    obtain ⟨ends, bound⟩ := readString_rest read
    have onText := rest_suffix_of_skipBlanks skipped
    have shorter := onText.length_le
    exact ⟨ends.trans onText, by omega⟩
  · obtain ⟨found, -, impossible⟩ := Outcome.bind_eq_ok.mp read
    cases impossible

theorem splitDigits_suffix (input : Bytes) : (splitDigits input).2 <:+ input :=
  List.dropWhile_suffix isDigitByte

theorem readDigits_suffix {input : Bytes} {front : Front (List Nat) input}
    (read : readDigits input = .ok front) : front.rest <:+ input := by
  unfold readDigits at read
  split at read
  · cases read
  · rename_i b rest
    split at read
    · cases read
    · cases read
      exact (splitDigits_suffix rest).trans (List.suffix_cons b rest)

theorem readWhole_suffix {input : Bytes} {front : Front (List Nat) input}
    (read : readWhole input = .ok front) : front.rest <:+ input := by
  unfold readWhole at read
  split at read
  · split at read
    · cases read
      exact List.suffix_cons _ _
    · cases read
  · exact readDigits_suffix read

theorem readPart_suffix {isMark : UInt8 → Bool} {part : Reader SyntaxFault α}
    (keeps : ∀ {input : Bytes} {front : Front α input}, part input = .ok front →
      front.rest <:+ input)
    {input : Bytes} {found : Option α × { rest : Bytes // rest.length ≤ input.length }}
    (read : readPart isMark part input = .ok found) : found.2.val <:+ input := by
  unfold readPart at read
  split at read
  · cases read
    exact List.suffix_refl _
  · rename_i b rest
    split at read
    · obtain ⟨front, marked, same⟩ := Outcome.bind_eq_ok.mp read
      cases same
      exact (keeps marked).trans (List.suffix_cons b rest)
    · cases read
      exact List.suffix_refl _

theorem readExponent_suffix {input : Bytes} {front : Front Int input}
    (read : readExponent input = .ok front) : front.rest <:+ input := by
  unfold readExponent at read
  split at read
  all_goals
    obtain ⟨digits, found, same⟩ := Outcome.map_eq_ok.mp read
    cases same
  · exact (readDigits_suffix found).trans (List.suffix_cons _ _)
  · exact (readDigits_suffix found).trans (List.suffix_cons _ _)
  · exact readDigits_suffix found

theorem readNumber_suffix {negative : Bool} {input : Bytes} {front : Front Number input}
    (read : readNumber negative input = .ok front) : front.rest <:+ input := by
  obtain ⟨whole, integral, read⟩ := Outcome.bind_eq_ok.mp read
  obtain ⟨⟨fraction, afterFraction, _⟩, places, read⟩ := Outcome.bind_eq_ok.mp read
  obtain ⟨⟨exponent, afterExponent, _⟩, power, read⟩ := Outcome.bind_eq_ok.mp read
  have first := readWhole_suffix integral
  have second := readPart_suffix readDigits_suffix places
  have third := readPart_suffix readExponent_suffix power
  dsimp only at read
  split at read
  · cases read
    exact (third.trans second).trans first
  · cases read

theorem readWord_suffix {input : Bytes} {word : List UInt8}
    {after : { rest : Bytes // rest.length ≤ input.length }}
    (read : readWord input word = .ok after) : after.val <:+ input := by
  induction word generalizing input with
  | nil =>
      rw [readWord] at read
      cases read
      exact List.suffix_refl _
  | cons expected word ih =>
      rw [readWord.eq_def] at read
      dsimp only at read
      split at read
      · cases read
      · rename_i b rest
        split at read
        · obtain ⟨later, found, same⟩ := Outcome.map_eq_ok.mp read
          cases same
          exact (ih found).trans (List.suffix_cons b rest)
        · cases read

theorem readLiteral_suffix {value : Json} {word : List UInt8} {input : Bytes}
    {front : Front Json input} (read : readLiteral value word input = .ok front) :
    front.rest <:+ input := by
  cases input with
  | nil => cases read
  | cons b rest =>
      obtain ⟨after, found, same⟩ := Outcome.map_eq_ok.mp read
      cases same
      exact (readWord_suffix found).trans (List.suffix_cons b rest)

theorem readScalar_suffix {input : Bytes} {front : Front Json input}
    (read : readScalar input = .ok front) : front.rest <:+ input := by
  unfold readScalar at read
  split at read
  · cases read
  · rename_i b rest
    split at read
    · exact readLiteral_suffix read
    · exact readLiteral_suffix read
    · exact readLiteral_suffix read
    · obtain ⟨text, found, same⟩ := Outcome.map_eq_ok.mp read
      cases same
      exact (keepsEnd_readString (run_of_ok found)).trans (List.suffix_cons _ _)
    · obtain ⟨number, found, same⟩ := Outcome.map_eq_ok.mp read
      cases same
      exact (readNumber_suffix found).trans (List.suffix_cons _ _)
    · split at read
      · obtain ⟨number, found, same⟩ := Outcome.map_eq_ok.mp read
        cases same
        exact readNumber_suffix found
      · cases read

theorem keepsEnd_readColon : KeepsEnd readColon := by
  intro input value rest read
  rw [run_readColon] at read
  split at read
  · cases read
  · rename_i skipped
    cases read
    exact rest_suffix_of_skipBlanks skipped
  · cases read

theorem keepsEnd_readFirstName : KeepsEnd readFirstName := by
  intro input value rest read
  rw [run_readFirstName] at read
  split at read
  · cases read
  · rename_i skipped
    cases read
    exact rest_suffix_of_skipBlanks skipped
  · rename_i skipped
    obtain ⟨name, found, same⟩ := Outcome.map_eq_ok.mp read
    cases same
    exact (keepsEnd_readString found).trans (rest_suffix_of_skipBlanks skipped)
  · cases read

theorem keepsEnd_readNextName : KeepsEnd readNextName := by
  intro input value rest read
  rw [run_readNextName] at read
  split at read
  · cases read
  · rename_i skipped
    cases read
    exact rest_suffix_of_skipBlanks skipped
  · rename_i after skipped
    split at read
    · cases read
    · cases read
    · rename_i following
      obtain ⟨name, found, same⟩ := Outcome.map_eq_ok.mp read
      cases same
      exact ((keepsEnd_readString found).trans (rest_suffix_of_skipBlanks following)).trans
        (rest_suffix_of_skipBlanks skipped)
    · cases read
  · cases read

theorem keepsEnd_readMoreItems {syntaxFault : SyntaxFault → ε} {item : Reader ε α}
    (keeps : KeepsEnd item) : KeepsEnd (readMoreItems syntaxFault item) := by
  intro input
  induction size : input.length using Nat.strongRecOn generalizing input with
  | ind size ih =>
    intro values rest read
    rcases readMoreItems_ok read with ⟨-, closing⟩ |
      ⟨after, b, tail, first, middle, more, comma, -, -, found, later, -⟩
    · exact rest_suffix_of_skipBlanks closing
    · have onAfter := rest_suffix_of_skipBlanks comma
      have shorter := shorter_of_run found
      have bound := onAfter.length_le
      exact ((ih middle.length (by omega) rfl later).trans (keeps found)).trans onAfter

theorem keepsEnd_readItems {syntaxFault : SyntaxFault → ε} {item : Reader ε α}
    (keeps : KeepsEnd item) : KeepsEnd (readItems syntaxFault item) := by
  intro input values rest read
  rcases readItems_ok read with ⟨-, closing⟩ | ⟨b, tail, first, middle, more, -, -, found, later, -⟩
  · exact rest_suffix_of_skipBlanks closing
  · exact (keepsEnd_readMoreItems keeps later).trans (keeps found)

theorem keepsEnd_readMembers {child : Reader SyntaxFault Json} (keeps : KeepsEnd child)
    (name : String) : KeepsEnd (readMembers child name) := by
  intro input
  induction size : input.length using Nat.strongRecOn generalizing input name with
  | ind size ih =>
    intro members rest read
    obtain ⟨start, value, after, more, colon, found, -, onward⟩ := readMembers_ok read
    have onAfter : after <:+ input := (keeps found).trans (keepsEnd_readColon colon)
    rcases onward with ⟨-, closing⟩ | ⟨following, middle, next, later⟩
    · exact (keepsEnd_readNextName closing).trans onAfter
    · have onMiddle := (keepsEnd_readNextName next).trans onAfter
      have shorter := shorter_of_run next
      have bound := onAfter.length_le
      exact (ih middle.length (by omega) following rfl later).trans onMiddle

theorem keepsEnd_readEmbedded (embedded : Bytes → Except SyntaxFault Json) :
    KeepsEnd (readEmbedded embedded) := by
  intro input value rest read
  obtain ⟨start, text, tail, colon, quoted, -, closed⟩ := readEmbedded_ok read
  have onColon := keepsEnd_readColon colon
  have onText := (readEmbeddedText_rest quoted).1
  have onClosing : rest <:+ tail := by
    rw [run_readClosingBrace] at closed
    split at closed
    · cases closed
    · rename_i skipped
      cases closed
      exact rest_suffix_of_skipBlanks skipped
    · cases closed
    · cases closed
  exact (onClosing.trans onText).trans onColon

theorem keepsEnd_readObject {embedded : Bytes → Except SyntaxFault Json}
    {child : Reader SyntaxFault Json} (keeps : KeepsEnd child) :
    KeepsEnd (readObject embedded child) := by
  intro input value rest read
  rcases readObject_ok read with ⟨-, named⟩ | ⟨after, named, found⟩ |
    ⟨name, after, members, -, named, found, -⟩
  · exact keepsEnd_readFirstName named
  · exact (keepsEnd_readEmbedded embedded found).trans (keepsEnd_readFirstName named)
  · exact (keepsEnd_readMembers keeps name found).trans (keepsEnd_readFirstName named)

theorem keepsEnd_readWith {embedded : Bytes → Except SyntaxFault Json}
    {child : Option (Reader SyntaxFault Json)} (keeps : ∀ inner ∈ child, KeepsEnd inner) :
    KeepsEnd (readWith embedded child) := by
  intro input value rest read
  rw [run_readWith] at read
  split at read
  · cases read
  · rename_i after skipped
    cases child with
    | none => cases read
    | some inner =>
        obtain ⟨items, found, same⟩ := Outcome.map_eq_ok.mp read
        cases same
        exact (keepsEnd_readItems (keeps inner rfl) found).trans (rest_suffix_of_skipBlanks skipped)
  · rename_i after skipped
    cases child with
    | none => cases read
    | some inner =>
        exact (keepsEnd_readObject (keeps inner rfl) read).trans (rest_suffix_of_skipBlanks skipped)
  · rename_i b after notList notObject skipped
    obtain ⟨shorter, found⟩ := front_of_run read
    exact (readScalar_suffix found).trans (suffix_of_skipBlanks skipped)

theorem keepsEnd_readValue (embedded : Bytes → Except SyntaxFault Json) (levels : Nat) :
    KeepsEnd (readValue embedded levels) := by
  induction levels with
  | zero => exact keepsEnd_readWith fun inner none => by cases none
  | succ levels ih =>
      refine keepsEnd_readWith fun inner same => ?_
      cases same
      exact ih

end PartnerSearch.Json
