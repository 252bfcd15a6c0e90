import PartnerSearch.Json.Writer
import PartnerSearch.Proofs.Json.Members
import PartnerSearch.Proofs.Json.Reading
import PartnerSearch.Proofs.Text.Encoding

set_option autoImplicit false

/-!
The compact text of a value is read back as the value, unless the value nests deeper than the reader
goes; then the text is refused for that reason alone. This is about values of texts, lists and objects:
a real number has no exact text.
-/

namespace PartnerSearch.Json

open Text (Bytes utf8)

/-- Bytes of a string that stand for themselves. -/
def IsPlainByte (b : UInt8) : Prop := 0x20 ≤ b.toNat ∧ b ≠ 0x22 ∧ b ≠ 0x5C

theorem run_readContent_plain {b : UInt8} (plain : IsPlainByte b) (rest : Bytes) :
    run readContent (b :: rest) =
      (run readContent rest).map fun content => (b :: content.1, content.2) := by
  obtain ⟨visible, notQuote, notBackslash⟩ := plain
  rw [run_readContent]
  split
  · contradiction
  · rename_i same
    cases same
    contradiction
  · rename_i same
    cases same
    contradiction
  · rename_i other after same
    cases same
    have notControl : ¬ b < 0x20 := by
      rw [UInt8.lt_iff_toNat_lt]
      have bound : (0x20 : UInt8).toNat = 0x20 := rfl
      omega
    rw [if_neg notControl]
    cases run readContent rest <;> rfl

theorem run_readContent_append {symbols : Bytes} (plain : ∀ b ∈ symbols, IsPlainByte b)
    (rest : Bytes) : run readContent (symbols ++ rest) =
      (run readContent rest).map fun content => (symbols ++ content.1, content.2) := by
  induction symbols with
  | nil =>
      rw [List.nil_append]
      cases run readContent rest <;> rfl
  | cons b symbols ih =>
      rw [List.cons_append, run_readContent_plain (plain b List.mem_cons_self),
        ih fun b member => plain b (List.mem_cons_of_mem _ member)]
      cases run readContent rest <;> rfl

/-- After a backslash, what an escape stands for is put in front of what follows. -/
theorem run_readContent_escape {written value rest : Bytes}
    (escape : run readEscape (written ++ rest) = .ok (value, rest)) :
    run readContent (0x5C :: written ++ rest) =
      (run readContent rest).map fun content => (value ++ content.1, content.2) := by
  have step : run readContent (0x5C :: (written ++ rest)) = (do
      let escape ← run readEscape (written ++ rest)
      let content ← run readContent escape.2
      return (escape.1 ++ content.1, content.2)) := run_readContent _
  rw [List.cons_append, step, escape]
  show (run readContent rest >>= fun content => pure (value ++ content.1, content.2)) = _
  cases run readContent rest <;> rfl

theorem run_readEscape_simple {letter value : UInt8} (simple : simpleEscape? letter = some value)
    (rest : Bytes) : run readEscape ([letter] ++ rest) = .ok ([value], rest) := by
  rw [List.singleton_append, run_readEscape]
  dsimp only
  rw [simple]

theorem readHex_digits {a b c d : UInt8} {high low : Nat} (rest : Bytes)
    (first : Text.hexPair? (Char.ofUInt8 a) (Char.ofUInt8 b) = some high)
    (second : Text.hexPair? (Char.ofUInt8 c) (Char.ofUInt8 d) = some low) :
    ∃ shorter, readHex (a :: b :: c :: d :: rest) = .ok ⟨high * 256 + low, rest, shorter⟩ := by
  rw [readHex, first, second]
  exact ⟨_, rfl⟩

/-- Four digits below the surrogates stand for their character. -/
theorem run_readUnicodeEscape_digits {a b c d : UInt8} {high low : Nat} (rest : Bytes)
    (first : Text.hexPair? (Char.ofUInt8 a) (Char.ofUInt8 b) = some high)
    (second : Text.hexPair? (Char.ofUInt8 c) (Char.ofUInt8 d) = some low)
    (below : high * 256 + low < 0xD800) :
    run readUnicodeEscape (a :: b :: c :: d :: rest) =
      .ok (codePointBytes (high * 256 + low), rest) := by
  obtain ⟨shorter, hex⟩ := readHex_digits rest first second
  have notLow : ¬ (0xDC00 ≤ high * 256 + low ∧ high * 256 + low ≤ 0xDFFF) := by omega
  have notHigh : high * 256 + low < 0xD800 ∨ 0xDFFF < high * 256 + low := .inl below
  unfold run readUnicodeEscape
  rw [hex]
  dsimp only [bind, Except.bind]
  rw [if_neg notLow, if_pos notHigh]
  rfl

theorem run_readEscape_control {n : Nat} (control : n < 0x20) (rest : Bytes) :
    run readEscape (utf8 ['u', '0', '0', Text.hexDigit (n / 16), Text.hexDigit (n % 16)] ++ rest) =
      .ok (codePointBytes n, rest) := by
  have written : utf8 ['u', '0', '0', Text.hexDigit (n / 16), Text.hexDigit (n % 16)] =
      [0x75, 0x30, 0x30, UInt8.ofNat (Text.hexDigit (n / 16)).toNat,
        UInt8.ofNat (Text.hexDigit (n % 16)).toNat] := by
    revert n
    decide
  have zeros : Text.hexPair? (Char.ofUInt8 0x30) (Char.ofUInt8 0x30) = some 0 := by decide
  have digits : Text.hexPair? (Char.ofUInt8 (UInt8.ofNat (Text.hexDigit (n / 16)).toNat))
      (Char.ofUInt8 (UInt8.ofNat (Text.hexDigit (n % 16)).toNat)) = some n := by
    revert n
    decide
  rw [written, List.cons_append, run_readEscape]
  show run readUnicodeEscape _ = _
  have unicode := run_readUnicodeEscape_digits rest zeros digits (by omega)
  rwa [Nat.zero_mul, Nat.zero_add] at unicode

theorem isPlainByte_of_ascii {c : Char} (visible : 0x20 ≤ c.toNat) (ascii : c.toNat < 0x80)
    (notQuote : c ≠ '"') (notBackslash : c ≠ '\\') : IsPlainByte (UInt8.ofNat c.toNat) := by
  have same : (UInt8.ofNat c.toNat).toNat = c.toNat := by
    rw [UInt8.toNat_ofNat']
    omega
  refine ⟨by rw [same]; exact visible, ?_, ?_⟩
  · intro quote
    apply notQuote
    apply Char.toNat_inj.mp
    rw [← same, quote]
    rfl
  · intro backslash
    apply notBackslash
    apply Char.toNat_inj.mp
    rw [← same, backslash]
    rfl

/-- Characters other than quotes, backslashes and control characters stand for themselves. -/
theorem isPlainByte_of_mem {c : Char} (visible : 0x20 ≤ c.toNat) (notQuote : c ≠ '"')
    (notBackslash : c ≠ '\\') : ∀ b ∈ String.utf8EncodeChar c, IsPlainByte b := by
  intro b member
  rcases Nat.lt_or_ge c.toNat 0x80 with ascii | wide
  · rw [Text.utf8EncodeChar_of_ascii ascii, List.mem_singleton] at member
    rw [member]
    exact isPlainByte_of_ascii visible ascii notQuote notBackslash
  · have large := Text.le_of_mem_utf8EncodeChar wide member
    refine ⟨by omega, ?_, ?_⟩
    · rintro rfl
      exact absurd large (by decide)
    · rintro rfl
      exact absurd large (by decide)

theorem run_readContent_escapedChar (c : Char) (rest : Bytes) :
    run readContent (utf8 (escapedChar c) ++ rest) =
      (run readContent rest).map fun content =>
        (String.utf8EncodeChar c ++ content.1, content.2) := by
  unfold escapedChar
  split
  · exact run_readContent_escape (run_readEscape_simple rfl rest)
  · exact run_readContent_escape (run_readEscape_simple rfl rest)
  · exact run_readContent_escape (run_readEscape_simple rfl rest)
  · exact run_readContent_escape (run_readEscape_simple rfl rest)
  · exact run_readContent_escape (run_readEscape_simple rfl rest)
  · exact run_readContent_escape (run_readEscape_simple rfl rest)
  · exact run_readContent_escape (run_readEscape_simple rfl rest)
  · rename_i notQuote notBackslash _ _ _ _ _
    by_cases control : c.toNat < 0x20
    · rw [if_pos control]
      have escape := run_readContent_escape (run_readEscape_control control rest)
      rw [codePointBytes, Char.ofNat_toNat] at escape
      exact escape
    · rw [if_neg control, Text.utf8_cons, Text.utf8_nil, List.append_nil]
      exact run_readContent_append
        (isPlainByte_of_mem (by omega) notQuote notBackslash) rest

theorem run_readContent_escaped (chars : List Char) (rest : Bytes) :
    run readContent (utf8 (chars.flatMap escapedChar) ++ 0x22 :: rest) = .ok (utf8 chars, rest) := by
  induction chars with
  | nil => exact run_readContent _
  | cons c chars ih =>
      rw [List.flatMap_cons, Text.utf8_append, List.append_assoc, run_readContent_escapedChar, ih]
      rfl

/-- A string is read back from its text, whatever follows its closing quote. -/
theorem run_readString_escaped (text : String) (rest : Bytes) :
    run readString (utf8 (text.toList.flatMap escapedChar) ++ 0x22 :: rest) = .ok (text, rest) := by
  have decoded : Text.ofBytes? (utf8 text.toList) = some text := by
    rw [← Text.bytes_eq_utf8]
    exact Text.ofBytes?_bytes text
  rw [run_readString, run_readContent_escaped]
  dsimp only [bind, Except.bind]
  rw [decoded]
  rfl

section Lists

variable {ε α β : Type} {syntaxFault : SyntaxFault → ε} {item : Reader ε β} {print : α → Bytes}
  {judge : α → Except ε β}

/-- What is printed of a thing is read as it is judged, whatever follows. Its first byte is not blank
and does not end a list. -/
structure ReadsPrinted (item : Reader ε β) (print : α → Bytes) (judge : α → Except ε β) (x : α) :
    Prop where
  reads : ∀ rest, run item (print x ++ rest) = (judge x).map fun value => (value, rest)
  starts : ∃ b tail, print x = b :: tail ∧ isBlankByte b = false ∧ b ≠ 0x5D

/-- The items after the first one, with a comma before each. -/
def printedMore (print : α → Bytes) (items : List α) : Bytes :=
  items.flatMap fun x => 0x2C :: print x

theorem ReadsPrinted.skipBlanks {x : α} (printed : ReadsPrinted item print judge x) (rest : Bytes) :
    ∃ b tail, Json.skipBlanks (print x ++ rest) = b :: tail ∧ b ≠ 0x5D := by
  obtain ⟨b, tail, same, solid, notClosing⟩ := printed.starts
  refine ⟨b, tail ++ rest, ?_, notClosing⟩
  rw [same, List.cons_append]
  exact skipBlanks_cons_of_not_blank solid _

theorem run_readMoreItems_printed {items : List α}
    (printed : ∀ x ∈ items, ReadsPrinted item print judge x) (rest : Bytes) :
    run (readMoreItems syntaxFault item) (printedMore print items ++ 0x5D :: rest) =
      (items.mapM judge).map fun values => (values, rest) := by
  induction items with
  | nil =>
      rw [run_readMoreItems]
      rfl
  | cons x items ih =>
      have first := printed x List.mem_cons_self
      have later := ih fun y member => printed y (List.mem_cons_of_mem _ member)
      have comma : printedMore print (x :: items) ++ 0x5D :: rest =
          0x2C :: (print x ++ (printedMore print items ++ 0x5D :: rest)) := by
        simp [printedMore]
      obtain ⟨b, tail, solid, notClosing⟩ := first.skipBlanks (printedMore print items ++ 0x5D :: rest)
      rw [comma, run_readMoreItems_comma rfl solid notClosing, first.reads, List.mapM_cons]
      cases judge x with
      | error fault => rfl
      | ok value =>
          dsimp only [Except.map, bind, Except.bind]
          rw [later]
          cases items.mapM judge <;> rfl

/-- The items of a printed list are read as they are judged, up to the first that is refused. -/
theorem run_readItems_printed {x : α} {items : List α}
    (printed : ∀ y ∈ x :: items, ReadsPrinted item print judge y) (rest : Bytes) :
    run (readItems syntaxFault item) (print x ++ printedMore print items ++ 0x5D :: rest) =
      ((x :: items).mapM judge).map fun values => (values, rest) := by
  have first := printed x List.mem_cons_self
  have later : run (readMoreItems syntaxFault item) (printedMore print items ++ 0x5D :: rest) =
      (items.mapM judge).map fun values => (values, rest) :=
    run_readMoreItems_printed (fun y member => printed y (List.mem_cons_of_mem _ member)) rest
  rw [List.append_assoc]
  obtain ⟨b, tail, solid, notClosing⟩ := first.skipBlanks (printedMore print items ++ 0x5D :: rest)
  rw [run_readItems_first solid notClosing, first.reads, List.mapM_cons]
  cases judge x with
  | error fault => rfl
  | ok value =>
      dsimp only [Except.map, bind, Except.bind]
      rw [later]
      cases items.mapM judge <;> rfl

end Lists

section Objects

variable {child : Reader SyntaxFault Json} {print : Json → Bytes}
  {judge : Json → Except SyntaxFault Json}

def printedMember (print : Json → Bytes) (member : String × Json) : Bytes :=
  utf8 (stringChars member.1) ++ 0x3A :: print member.2

def judgeMember (judge : Json → Except SyntaxFault Json) (member : String × Json) :
    Except SyntaxFault (String × Json) :=
  (judge member.2).map fun value => (member.1, value)

theorem utf8_stringChars (text : String) (rest : Bytes) :
    utf8 (stringChars text) ++ rest =
      0x22 :: (utf8 (text.toList.flatMap escapedChar) ++ 0x22 :: rest) := by
  have quote : String.utf8EncodeChar '"' = [0x22] := rfl
  simp [stringChars, quote]

theorem run_readColon_colon (rest : Bytes) : run readColon (0x3A :: rest) = .ok ((), rest) :=
  run_readColon _

theorem run_readNextName_end (rest : Bytes) :
    run readNextName (0x7D :: rest) = .ok (none, rest) := run_readNextName _

theorem run_readNextName_comma (name : String) (rest : Bytes) :
    run readNextName (0x2C :: (utf8 (stringChars name) ++ rest)) = .ok (some name, rest) := by
  rw [utf8_stringChars]
  have read : run readNextName
        (0x2C :: 0x22 :: (utf8 (name.toList.flatMap escapedChar) ++ 0x22 :: rest)) =
      (run readString (utf8 (name.toList.flatMap escapedChar) ++ 0x22 :: rest)).map
        fun read => (some read.1, read.2) := run_readNextName _
  rw [read, run_readString_escaped]
  rfl

theorem run_readFirstName_string (name : String) (rest : Bytes) :
    run readFirstName (utf8 (stringChars name) ++ rest) = .ok (some name, rest) := by
  rw [utf8_stringChars]
  have read : run readFirstName (0x22 :: (utf8 (name.toList.flatMap escapedChar) ++ 0x22 :: rest)) =
      (run readString (utf8 (name.toList.flatMap escapedChar) ++ 0x22 :: rest)).map
        fun read => (some read.1, read.2) := run_readFirstName _
  rw [read, run_readString_escaped]
  rfl

/-- The members of a printed object are read as their values are judged. -/
theorem run_readMembers_printed {name : String} {value : Json} {members : List (String × Json)}
    (printed : ∀ member ∈ (name, value) :: members, ReadsPrinted child print judge member.2)
    (rest : Bytes) :
    run (readMembers child name)
        (0x3A :: (print value ++ printedMore (printedMember print) members ++ 0x7D :: rest)) =
      (((name, value) :: members).mapM (judgeMember judge)).map fun found => (found, rest) := by
  induction members generalizing name value with
  | nil =>
      have judged : judgeMember judge (name, value) =
        (judge value).map fun found => (name, found) := rfl
      have first := printed (name, value) List.mem_cons_self
      have only : printedMore (printedMember print) [] = [] := rfl
      rw [only, List.append_nil, run_readMembers, run_readColon_colon]
      dsimp only [bind, Except.bind]
      rw [first.reads, List.mapM_cons, List.mapM_nil, judged]
      cases judge value with
      | error fault => rfl
      | ok found =>
          dsimp only [Except.map, bind, Except.bind]
          rw [run_readNextName_end]
          rfl
  | cons next members ih =>
      have judged : judgeMember judge (name, value) =
        (judge value).map fun found => (name, found) := rfl
      have first := printed (name, value) List.mem_cons_self
      have later := ih fun member within => printed member (List.mem_cons_of_mem _ within)
      have comma : printedMore (printedMember print) (next :: members) ++ 0x7D :: rest =
          0x2C :: (utf8 (stringChars next.1) ++ 0x3A ::
            (print next.2 ++ printedMore (printedMember print) members ++ 0x7D :: rest)) := by
        simp [printedMore, printedMember]
      rw [List.append_assoc, comma, run_readMembers, run_readColon_colon]
      dsimp only [bind, Except.bind]
      rw [first.reads, List.mapM_cons, judged]
      cases judge value with
      | error fault => rfl
      | ok found =>
          dsimp only [Except.map, bind, Except.bind]
          rw [run_readNextName_comma]
          dsimp only
          rw [later]
          cases (next :: members).mapM (judgeMember judge) <;> rfl

end Objects

/-- Values of texts, lists and objects alone. The names of an object differ, and its first name does
not make it an embedded document. -/
inductive Textual : Json → Prop where
  | string (text : String) : Textual (.string text)
  | array {items : List Json} (inside : ∀ item ∈ items, Textual item) : Textual (.array items)
  | object {members : List (String × Json)} (inside : ∀ member ∈ members, Textual member.2)
      (distinct : (members.map Prod.fst).Nodup)
      (ordinary : ∀ member ∈ members.head?, member.1 ≠ embeddedName) : Textual (.object members)

/-- A value is accepted if it nests no deeper than the levels that are left. -/
def withinLevels (levels : Nat) (value : Json) : Except SyntaxFault Json :=
  if value.depth ≤ levels then .ok value else .error .tooDeep

theorem listDepth_le_iff {items : List Json} {levels : Nat} :
    listDepth items ≤ levels ↔ ∀ item ∈ items, item.depth ≤ levels := by
  induction items with
  | nil => simp [listDepth]
  | cons item items ih => rw [listDepth, Nat.max_le, ih, List.forall_mem_cons]

theorem membersDepth_le_iff {members : List (String × Json)} {levels : Nat} :
    membersDepth members ≤ levels ↔ ∀ member ∈ members, member.2.depth ≤ levels := by
  induction members with
  | nil => simp [membersDepth]
  | cons member members ih => rw [membersDepth, Nat.max_le, ih, List.forall_mem_cons]

theorem mapM_withinLevels (levels : Nat) (items : List Json) :
    items.mapM (withinLevels levels) =
      if listDepth items ≤ levels then .ok items else .error .tooDeep := by
  simp only [listDepth_le_iff]
  exact Outcome.mapM_guard (fun item => item.depth ≤ levels) SyntaxFault.tooDeep items

theorem mapM_judgeMember_withinLevels (levels : Nat) (members : List (String × Json)) :
    members.mapM (judgeMember (withinLevels levels)) =
      if membersDepth members ≤ levels then .ok members else .error .tooDeep := by
  have judged : judgeMember (withinLevels levels) = fun member =>
      if member.2.depth ≤ levels then .ok member else .error .tooDeep := by
    funext member
    rw [judgeMember, withinLevels]
    split <;> rfl
  rw [judged]
  simp only [membersDepth_le_iff]
  exact Outcome.mapM_guard (fun member => member.2.depth ≤ levels) SyntaxFault.tooDeep members

theorem utf8_listChars (item : Json) (items : List Json) :
    utf8 (listChars (item :: items)) =
      utf8 item.chars ++ printedMore (fun other => utf8 other.chars) items := by
  have comma : String.utf8EncodeChar ',' = [0x2C] := rfl
  induction items generalizing item with
  | nil => simp [listChars, printedMore]
  | cons next items ih =>
      rw [listChars, Text.utf8_append, Text.utf8_cons, ih, comma]
      simp [printedMore]

theorem utf8_membersChars (name : String) (value : Json) (members : List (String × Json)) :
    utf8 (membersChars ((name, value) :: members)) =
      utf8 (stringChars name) ++ 0x3A :: (utf8 value.chars ++
        printedMore (printedMember fun other => utf8 other.chars) members) := by
  have comma : String.utf8EncodeChar ',' = [0x2C] := rfl
  have colon : String.utf8EncodeChar ':' = [0x3A] := rfl
  induction members generalizing name value with
  | nil => simp [membersChars, printedMore, colon]
  | cons next members ih =>
      obtain ⟨following, other⟩ := next
      rw [membersChars]
      simp [ih, printedMore, printedMember, colon, comma]

theorem utf8_chars_array (items : List Json) (rest : Bytes) :
    utf8 (chars (.array items)) ++ rest = 0x5B :: (utf8 (listChars items) ++ 0x5D :: rest) := by
  have first : String.utf8EncodeChar '[' = [0x5B] := rfl
  have last : String.utf8EncodeChar ']' = [0x5D] := rfl
  simp [chars, first, last]

theorem utf8_chars_object (members : List (String × Json)) (rest : Bytes) :
    utf8 (chars (.object members)) ++ rest =
      0x7B :: (utf8 (membersChars members) ++ 0x7D :: rest) := by
  have first : String.utf8EncodeChar '\x7b' = [0x7B] := rfl
  have last : String.utf8EncodeChar '\x7d' = [0x7D] := rfl
  simp [chars, first, last]

theorem starts_chars {value : Json} (textual : Textual value) :
    ∃ b tail, utf8 value.chars = b :: tail ∧ isBlankByte b = false ∧ b ≠ 0x5D := by
  cases textual with
  | string text => exact ⟨0x22, _, rfl, rfl, by decide⟩
  | array inside => exact ⟨0x5B, _, rfl, rfl, by decide⟩
  | object inside distinct ordinary => exact ⟨0x7B, _, rfl, rfl, by decide⟩

theorem run_readObject_printed {child : Reader SyntaxFault Json}
    {judge : Json → Except SyntaxFault Json} (embedded : Bytes → Except SyntaxFault Json)
    {members : List (String × Json)} (ordinary : ∀ member ∈ members.head?, member.1 ≠ embeddedName)
    (printed : ∀ member ∈ members,
      ReadsPrinted child (fun value => utf8 value.chars) judge member.2) (rest : Bytes) :
    run (readObject embedded child) (utf8 (membersChars members) ++ 0x7D :: rest) =
      (members.mapM (judgeMember judge)).map fun found => (ofMembers found, rest) := by
  rw [run_readObject]
  cases members with
  | nil =>
      have none : run readFirstName (utf8 (membersChars []) ++ 0x7D :: rest) = .ok (none, rest) :=
        run_readFirstName _
      rw [none]
      rfl
  | cons member members =>
      obtain ⟨name, value⟩ := member
      have notEmbedded : name ≠ embeddedName := ordinary (name, value) rfl
      rw [utf8_membersChars, List.append_assoc, run_readFirstName_string]
      dsimp only [bind, Except.bind]
      rw [if_neg notEmbedded, List.cons_append, run_readMembers_printed printed]
      cases ((name, value) :: members).mapM (judgeMember judge) <;> rfl

theorem run_readWith_string (embedded : Bytes → Except SyntaxFault Json)
    (child : Option (Reader SyntaxFault Json)) (text : String) (rest : Bytes) :
    run (readWith embedded child) (utf8 (chars (.string text)) ++ rest) =
      .ok (.string text, rest) := by
  have opening : utf8 (chars (.string text)) ++ rest =
      0x22 :: (utf8 (text.toList.flatMap escapedChar) ++ 0x22 :: rest) :=
    utf8_stringChars text rest
  rw [opening, run_readWith_quote embedded child rfl, run_readString_escaped]
  rfl

/-- Whatever follows it, the text of a value is read back as the value if it nests no deeper than the
levels that are left, and refused for its depth otherwise. -/
theorem run_readValue_chars (embedded : Bytes → Except SyntaxFault Json) {value : Json}
    (textual : Textual value) (levels : Nat) (rest : Bytes) :
    run (readValue embedded levels) (utf8 value.chars ++ rest) =
      (withinLevels levels value).map fun found => (found, rest) := by
  induction textual generalizing levels rest with
  | string text =>
      have shallow : withinLevels levels (.string text) = .ok (.string text) :=
        if_pos (Nat.zero_le levels)
      rw [shallow]
      cases levels with
      | zero => exact run_readWith_string embedded none text rest
      | succ levels => exact run_readWith_string embedded (some (readValue embedded levels)) text rest
  | @array items inside ih =>
      rw [utf8_chars_array]
      cases levels with
      | zero => exact run_readWith _ _ _
      | succ levels =>
          have read : run (readItems id (readValue embedded levels))
                (utf8 (listChars items) ++ 0x5D :: rest) =
              (items.mapM (withinLevels levels)).map fun values => (values, rest) := by
            cases items with
            | nil => exact run_readItems _ _ _
            | cons item items =>
                rw [utf8_listChars]
                exact run_readItems_printed
                  (fun other member => ⟨ih other member levels, starts_chars (inside other member)⟩) rest
          rw [run_readValue_list embedded levels rfl, read, mapM_withinLevels, withinLevels, depth]
          by_cases fits : listDepth items ≤ levels
          · rw [if_pos fits, if_pos (Nat.succ_le_succ fits)]
            rfl
          · rw [if_neg fits, if_neg fun within => fits (Nat.le_of_succ_le_succ within)]
            rfl
  | @object members inside distinct ordinary ih =>
      rw [utf8_chars_object]
      cases levels with
      | zero => exact run_readWith _ _ _
      | succ levels =>
          have printed : ∀ member ∈ members, ReadsPrinted (readValue embedded levels)
              (fun value => utf8 value.chars) (withinLevels levels) member.2 :=
            fun member within => ⟨ih member within levels, starts_chars (inside member within)⟩
          rw [run_readValue_object embedded levels rfl, run_readObject_printed embedded ordinary printed,
            mapM_judgeMember_withinLevels, withinLevels, depth]
          by_cases fits : membersDepth members ≤ levels
          · rw [if_pos fits, if_pos (Nat.succ_le_succ fits)]
            show Except.ok (ofMembers members, rest) = _
            rw [ofMembers_eq, collapse_of_nodup distinct]
            rfl
          · rw [if_neg fits, if_neg fun within => fits (Nat.le_of_succ_le_succ within)]
            rfl

end PartnerSearch.Json
