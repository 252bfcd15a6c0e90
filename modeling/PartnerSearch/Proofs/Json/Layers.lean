import PartnerSearch.Proofs.Json.Embedding
import PartnerSearch.Proofs.Json.Members
import PartnerSearch.Proofs.Json.RoundTrip
import PartnerSearch.Proofs.Json.Shape

set_option autoImplicit false

/-!
Documents inside documents, counted. Every document has levels of its own, so a value may nest deeper
the more documents stand one inside another, and no deeper than that.
-/

namespace PartnerSearch.Json

open Text (Bytes bytes utf8)

variable {ε α : Type}

/-- A whole document, whose embedded documents are read by `embedded`. -/
def readDocument (embedded : Bytes → Except SyntaxFault Json) (input : Bytes) :
    Except SyntaxFault Json := do
  let found ← run (readValue embedded nestingLimit) input
  endOfDocument found.1 found.2

/-- Reads a document of at most so many layers. The document is one, and those inside it are below. -/
def readLayers : Nat → Bytes → Except SyntaxFault Json
  | 0, _ => .error .tooDeep
  | layers + 1, input => readDocument (readLayers layers) input

/-- In this document at most so many documents stand one inside another. -/
def EmbedsAtMost (embedded : Nat) (document : Bytes) : Prop :=
  ∃ value, readLayers (embedded + 1) document = .ok value

theorem readDocument_eq_ok {embedded : Bytes → Except SyntaxFault Json} {input : Bytes}
    {value : Json} : readDocument embedded input = .ok value ↔
      ∃ rest, run (readValue embedded nestingLimit) input = .ok (value, rest) ∧
        skipBlanks rest = [] := by
  rw [readDocument, Outcome.bind_eq_ok]
  constructor
  · intro found
    obtain ⟨⟨_, rest⟩, read, ending⟩ := found
    obtain ⟨ended, rfl⟩ := endOfDocument_eq_ok.mp ending
    exact ⟨rest, read, ended⟩
  · intro found
    obtain ⟨rest, read, ended⟩ := found
    exact ⟨(value, rest), read, endOfDocument_eq_ok.mpr ⟨ended, rfl⟩⟩

/-- A value that opens with neither bracket is a scalar. -/
theorem run_readWith_scalar (embedded : Bytes → Except SyntaxFault Json)
    (child : Option (Reader SyntaxFault Json)) {input rest : Bytes} {b : UInt8}
    (opening : skipBlanks input = b :: rest) (notList : b ≠ 0x5B) (notObject : b ≠ 0x7B) :
    run (readWith embedded child) input = run readScalar (b :: rest) := by
  rw [run_readWith, opening]
  split <;> simp_all

/-- What one reader accepts, the other reads alike. -/
def Narrower (item other : Reader ε α) : Prop :=
  ∀ {input value rest}, run item input = .ok (value, rest) → run other input = .ok (value, rest)

section Narrower

variable {syntaxFault : SyntaxFault → ε} {item other : Reader ε α}

theorem Narrower.readMoreItems (narrower : Narrower item other) :
    Narrower (readMoreItems syntaxFault item) (readMoreItems syntaxFault other) := by
  intro input values rest read
  induction size : input.length using Nat.strongRecOn generalizing input values with
  | ind size ih =>
    rcases readMoreItems_ok read with ⟨rfl, closing⟩ |
      ⟨after, b, tail, first, middle, more, comma, ahead, notClosing, found, later, rfl⟩
    · exact run_readMoreItems_end closing
    · have onAfter := (rest_suffix_of_skipBlanks comma).length_le
      have shorter := shorter_of_run found
      have onward := ih middle.length (by omega) later rfl
      rw [run_readMoreItems_comma comma ahead notClosing, narrower found]
      dsimp only [bind, Except.bind]
      rw [onward]
      rfl

theorem Narrower.readItems (narrower : Narrower item other) :
    Narrower (readItems syntaxFault item) (readItems syntaxFault other) := by
  intro input values rest read
  rcases readItems_ok read with ⟨rfl, closing⟩ |
    ⟨b, tail, first, middle, more, ahead, notClosing, found, later, rfl⟩
  · exact run_readItems_end closing
  · rw [run_readItems_first ahead notClosing, narrower found]
    dsimp only [bind, Except.bind]
    rw [narrower.readMoreItems later]
    rfl

end Narrower

section Documents

variable {first second : Bytes → Except SyntaxFault Json}

theorem Narrower.readMembers {child other : Reader SyntaxFault Json} (narrower : Narrower child other)
    (name : String) : Narrower (readMembers child name) (readMembers other name) := by
  intro input members rest read
  induction size : input.length using Nat.strongRecOn generalizing input name members with
  | ind size ih =>
    obtain ⟨start, value, after, more, colon, found, rfl, onward⟩ := readMembers_ok read
    rw [run_readMembers, colon]
    dsimp only [bind, Except.bind]
    rw [narrower found]
    dsimp only
    rcases onward with ⟨rfl, closing⟩ | ⟨following, middle, next, later⟩
    · rw [closing]
      rfl
    · have afterColon := shorter_of_run colon
      have afterValue := shorter_of_run found
      have afterName := shorter_of_run next
      rw [next]
      dsimp only
      rw [ih middle.length (by omega) following later rfl]
      rfl

variable (agree : ∀ {text value}, first text = .ok value → second text = .ok value)

include agree

theorem narrower_readEmbedded : Narrower (readEmbedded first) (readEmbedded second) := by
  intro input value rest read
  rw [run_readEmbedded] at read ⊢
  obtain ⟨colon, marked, read⟩ := Outcome.bind_eq_ok.mp read
  obtain ⟨text, quoted, read⟩ := Outcome.bind_eq_ok.mp read
  obtain ⟨document, found, read⟩ := Outcome.bind_eq_ok.mp read
  rw [marked]
  dsimp only [bind, Except.bind] at read ⊢
  rw [quoted]
  dsimp only
  rw [agree found]
  exact read

theorem narrower_readObject {child other : Reader SyntaxFault Json}
    (narrower : Narrower child other) :
    Narrower (readObject first child) (readObject second other) := by
  intro input value rest read
  rw [run_readObject] at read ⊢
  obtain ⟨⟨name, after⟩, named, read⟩ := Outcome.bind_eq_ok.mp read
  rw [named]
  cases name with
  | none => exact read
  | some name =>
      dsimp only [bind, Except.bind] at read ⊢
      by_cases special : name = embeddedName
      · rw [if_pos special] at read ⊢
        exact narrower_readEmbedded agree read
      · rw [if_neg special] at read ⊢
        obtain ⟨⟨members, left⟩, found, same⟩ := Outcome.bind_eq_ok.mp read
        cases same
        rw [narrower.readMembers name found]
        rfl

/-- The more embedded documents are accepted, the more values are. -/
theorem narrower_readValue (levels : Nat) :
    Narrower (readValue first levels) (readValue second levels) := by
  induction levels with
  | zero =>
      intro input value rest read
      change run (readWith first none) input = _ at read
      change run (readWith second none) input = _
      rw [run_readWith] at read ⊢
      exact read
  | succ levels ih =>
      intro input value rest read
      cases opening : skipBlanks input with
      | nil =>
          change run (readWith first (some (readValue first levels))) input = _ at read
          rw [run_readWith, opening] at read
          cases read
      | cons b inside =>
          by_cases list : b = 0x5B
          · subst list
            rw [run_readValue_list _ _ opening] at read ⊢
            obtain ⟨found, items, same⟩ := Outcome.map_eq_ok.mp read
            rw [ih.readItems items]
            exact congrArg Except.ok same
          by_cases object : b = 0x7B
          · subst object
            rw [run_readValue_object _ _ opening] at read ⊢
            exact narrower_readObject agree ih read
          · change run (readWith first (some (readValue first levels))) input = _ at read
            change run (readWith second (some (readValue second levels))) input = _
            rw [run_readWith_scalar _ _ opening list object] at read ⊢
            exact read

end Documents

/-- Layers that are allowed and not needed change nothing. -/
theorem read_of_readLayers {layers : Nat} {input : Bytes} {value : Json}
    (read : readLayers layers input = .ok value) : Json.read input = .ok value := by
  induction layers generalizing input value with
  | zero => cases read
  | succ layers ih =>
      obtain ⟨rest, found, ended⟩ := readDocument_eq_ok.mp read
      exact read_eq_ok.mpr ⟨rest, narrower_readValue ih nestingLimit found, ended⟩

/-- A document has fewer layers than bytes. -/
theorem readLayers_eq_read {layers : Nat} {input : Bytes} (enough : input.length < layers) :
    readLayers layers input = read input := by
  induction layers generalizing input with
  | zero => omega
  | succ layers ih =>
      rw [readLayers, readDocument, read_eq]
      have agree : ∀ text : Bytes, text.length < input.length → readLayers layers text = read text :=
        fun text small => ih (by omega)
      rw [run_readValue_congr nestingLimit agree]

theorem readLayers_of_read {document : Bytes} {value : Json} (parsed : read document = .ok value) :
    readLayers (document.length + 1) document = .ok value :=
  (readLayers_eq_read (Nat.lt_succ_self _)).trans parsed

theorem embedsAtMost_length {document : Bytes} {value : Json} (parsed : read document = .ok value) :
    EmbedsAtMost document.length document :=
  ⟨value, readLayers_of_read parsed⟩

theorem EmbedsAtMost.readLayers {embedded : Nat} {document : Bytes} {value : Json}
    (within : EmbedsAtMost embedded document) (parsed : read document = .ok value) :
    readLayers (embedded + 1) document = .ok value := by
  obtain ⟨found, layered⟩ := within
  have same := (read_of_readLayers layered).symm.trans parsed
  cases same
  exact layered

theorem embedsAtMost_iff {embedded : Nat} {document : Bytes} :
    EmbedsAtMost embedded document ↔ (readLayers (embedded + 1) document).isOk = true := by
  rw [EmbedsAtMost]
  cases Json.readLayers (embedded + 1) document with
  | error fault => simp [Except.isOk, Except.toBool]
  | ok value => simp [Except.isOk, Except.toBool]

instance {embedded : Nat} {document : Bytes} : Decidable (EmbedsAtMost embedded document) :=
  decidable_of_iff _ embedsAtMost_iff.symm

section Items

variable {syntaxFault : SyntaxFault → ε} {item : Reader ε α} {kept : α → Prop}
  (each : ∀ {input value rest}, run item input = .ok (value, rest) → kept value)

include each

theorem forall_of_readMoreItems {input rest : Bytes} {values : List α}
    (read : run (readMoreItems syntaxFault item) input = .ok (values, rest)) :
    ∀ value ∈ values, kept value := by
  induction size : input.length using Nat.strongRecOn generalizing input values with
  | ind size ih =>
    rcases readMoreItems_ok read with ⟨rfl, -⟩ |
      ⟨after, -, -, first, middle, more, comma, -, -, found, later, rfl⟩
    · exact nofun
    · have onAfter := (rest_suffix_of_skipBlanks comma).length_le
      have shorter := shorter_of_run found
      exact List.forall_mem_cons.mpr ⟨each found, ih middle.length (by omega) later rfl⟩

/-- What holds of all that the reader of an item finds holds of the items of a list. -/
theorem forall_of_readItems {input rest : Bytes} {values : List α}
    (read : run (readItems syntaxFault item) input = .ok (values, rest)) :
    ∀ value ∈ values, kept value := by
  rcases readItems_ok read with ⟨rfl, -⟩ | ⟨-, -, first, middle, more, -, -, found, later, rfl⟩
  · exact nofun
  · exact List.forall_mem_cons.mpr ⟨each found, forall_of_readMoreItems each later⟩

end Items

theorem forall_of_readMembers {child : Reader SyntaxFault Json} {kept : Json → Prop}
    (each : ∀ {input value rest}, run child input = .ok (value, rest) → kept value) {name : String}
    {input rest : Bytes} {members : List (String × Json)}
    (read : run (readMembers child name) input = .ok (members, rest)) :
    ∀ member ∈ members, kept member.2 := by
  induction size : input.length using Nat.strongRecOn generalizing input name members with
  | ind size ih =>
    obtain ⟨start, value, after, more, colon, found, rfl, onward⟩ := readMembers_ok read
    refine List.forall_mem_cons.mpr ⟨each found, ?_⟩
    rcases onward with ⟨rfl, -⟩ | ⟨following, middle, next, later⟩
    · exact nofun
    · have afterColon := shorter_of_run colon
      have afterValue := shorter_of_run found
      have afterName := shorter_of_run next
      exact ih middle.length (by omega) later rfl

theorem depth_of_scalar {value : Json} (notArray : ∀ items, value ≠ .array items)
    (notObject : ∀ members, value ≠ .object members) : value.depth = 0 := by
  cases value with
  | array items => exact absurd rfl (notArray items)
  | object members => exact absurd rfl (notObject members)
  | _ => rfl

section Depth

variable {embedded : Bytes → Except SyntaxFault Json} {extra : Nat}
  (shallow : ∀ {text value}, embedded text = .ok value → value.depth ≤ extra + 1)

include shallow

theorem depth_of_readObject {child : Reader SyntaxFault Json} {bound : Nat}
    (each : ∀ {input value rest}, run child input = .ok (value, rest) → value.depth ≤ bound)
    (room : extra ≤ bound) {input rest : Bytes} {value : Json}
    (read : run (readObject embedded child) input = .ok (value, rest)) : value.depth ≤ bound + 1 := by
  rcases readObject_ok read with ⟨rfl, -⟩ | ⟨_, -, found⟩ | ⟨_, _, members, -, -, found, rfl⟩
  · exact Nat.succ_le_succ (Nat.zero_le bound)
  · -- the object around the text is a level of its own, which the document inside does not count
    obtain ⟨_, _, _, -, -, document, -⟩ := readEmbedded_ok found
    have inner := shallow document
    omega
  · have written : ∀ member ∈ members, member.2.depth ≤ bound := forall_of_readMembers each found
    have kept : ∀ member ∈ collapse [] members, member.2.depth ≤ bound :=
      forall_collapse (fun value => value.depth ≤ bound) (by simp) written
    exact Nat.succ_le_succ (membersDepth_le_iff.mpr kept)

/-- A value nests no deeper than its levels, but for the documents that are embedded in it. -/
theorem depth_of_readValue {levels : Nat} {input rest : Bytes} {value : Json}
    (read : run (readValue embedded levels) input = .ok (value, rest)) :
    value.depth ≤ levels + extra := by
  induction levels generalizing input value rest with
  | zero =>
      obtain ⟨notArray, notObject⟩ := scalar_of_readValue read
      rw [depth_of_scalar notArray notObject]
      exact Nat.zero_le _
  | succ levels ih =>
      rcases shape_of_readValue read with ⟨inside, items, -, found, rfl⟩ | ⟨inside, -, found⟩ |
        ⟨-, -, -, notArray, notObject⟩
      · have each := listDepth_le_iff.mpr (forall_of_readItems ih found)
        rw [depth]
        omega
      · have bound := depth_of_readObject shallow ih (Nat.le_add_left extra levels) found
        omega
      · rw [depth_of_scalar notArray notObject]
        exact Nat.zero_le _

end Depth

/-- Each layer adds as many levels as a document may nest, less the one of the object that stands for
the document below. -/
theorem depth_of_readLayers {layers : Nat} {input : Bytes} {value : Json}
    (read : readLayers layers input = .ok value) : value.depth ≤ 126 * layers + 1 := by
  induction layers generalizing input value with
  | zero => cases read
  | succ layers ih =>
      obtain ⟨rest, found, -⟩ := readDocument_eq_ok.mp read
      have bound := depth_of_readValue ih found
      simp only [nestingLimit] at bound
      omega

section Length

variable {syntaxFault : SyntaxFault → ε} {item : Reader ε Json} {child : Reader SyntaxFault Json}
  {embedded : Bytes → Except SyntaxFault Json}

/-- What is read takes two bytes for every level of the value, an opening bracket and a closing one. -/
def TakesLevels (item : Reader ε Json) : Prop :=
  ∀ {input value rest}, run item input = .ok (value, rest) →
    2 * value.depth + rest.length ≤ input.length

theorem TakesLevels.readMoreItems (takes : TakesLevels item) {input rest : Bytes} {values : List Json}
    (read : run (readMoreItems syntaxFault item) input = .ok (values, rest)) :
    2 * listDepth values + rest.length < input.length := by
  induction size : input.length using Nat.strongRecOn generalizing input values with
  | ind size ih =>
    rcases readMoreItems_ok read with ⟨rfl, -⟩ |
      ⟨after, -, -, first, middle, more, comma, -, -, found, later, rfl⟩
    · rw [← size]
      simpa [listDepth] using shorter_of_run read
    · have onAfter := length_lt_of_skipBlanks comma
      have shorter := shorter_of_run found
      have here := takes found
      have onward := ih middle.length (by omega) later rfl
      rw [listDepth]
      omega

theorem TakesLevels.readItems (takes : TakesLevels item) {input rest : Bytes} {values : List Json}
    (read : run (readItems syntaxFault item) input = .ok (values, rest)) :
    2 * listDepth values + rest.length < input.length := by
  rcases readItems_ok read with ⟨rfl, -⟩ | ⟨-, -, first, middle, more, -, -, found, later, rfl⟩
  · simpa [listDepth] using shorter_of_run read
  · have here := takes found
    have onward := takes.readMoreItems later
    rw [listDepth]
    omega

theorem TakesLevels.readMembers (takes : TakesLevels child) {name : String} {input rest : Bytes}
    {members : List (String × Json)}
    (read : run (readMembers child name) input = .ok (members, rest)) :
    2 * membersDepth members + rest.length < input.length := by
  induction size : input.length using Nat.strongRecOn generalizing input name members with
  | ind size ih =>
    obtain ⟨start, value, after, more, colon, found, rfl, onward⟩ := readMembers_ok read
    have afterColon := shorter_of_run colon
    have here := takes found
    rcases onward with ⟨rfl, closing⟩ | ⟨following, middle, next, later⟩
    · have ended := shorter_of_run closing
      simp only [membersDepth, Nat.max_zero]
      omega
    · have afterValue := shorter_of_run found
      have afterName := shorter_of_run next
      have inside := ih middle.length (by omega) later rfl
      rw [membersDepth]
      omega

theorem membersDepth_collapse_le (members : List (String × Json)) :
    membersDepth (collapse [] members) ≤ membersDepth members := by
  rw [membersDepth_le_iff]
  exact forall_collapse (fun value => value.depth ≤ membersDepth members) (by simp)
    (membersDepth_le_iff.mp (Nat.le_refl _))

variable (short : ∀ {text value}, embedded text = .ok value → 2 * value.depth ≤ text.length)

include short

/-- The opening brace in front is a byte more. -/
theorem TakesLevels.readObject (takes : TakesLevels child) {input rest : Bytes} {value : Json}
    (read : run (readObject embedded child) input = .ok (value, rest)) :
    2 * value.depth + rest.length ≤ input.length + 1 := by
  rcases readObject_ok read with ⟨rfl, named⟩ | ⟨after, named, found⟩ |
    ⟨name, after, members, -, named, found, rfl⟩
  · have afterName := shorter_of_run named
    simp only [depth, membersDepth]
    omega
  · obtain ⟨start, text, tail, colon, quoted, document, closing⟩ := readEmbedded_ok found
    have inner := short document
    have afterName := shorter_of_run named
    have afterColon := shorter_of_run colon
    have inText := (readEmbeddedText_rest quoted).2
    have closed := shorter_of_run closing
    omega
  · have afterName := shorter_of_run named
    have inside := takes.readMembers found
    have collapsed := membersDepth_collapse_le members
    change 2 * (membersDepth (collapse [] members) + 1) + rest.length ≤ _
    omega

theorem takesLevels_readValue (levels : Nat) : TakesLevels (readValue embedded levels) := by
  induction levels with
  | zero =>
      intro input value rest read
      have shorter := shorter_of_run read
      obtain ⟨notArray, notObject⟩ := scalar_of_readValue read
      rw [depth_of_scalar notArray notObject]
      omega
  | succ levels ih =>
      intro input value rest read
      have shorter := shorter_of_run read
      rcases shape_of_readValue read with ⟨inside, items, opening, found, rfl⟩ |
        ⟨inside, opening, found⟩ | ⟨-, -, -, notArray, notObject⟩
      · have bracket := length_lt_of_skipBlanks opening
        have within := ih.readItems found
        rw [depth]
        omega
      · have brace := length_lt_of_skipBlanks opening
        have within := TakesLevels.readObject short ih found
        omega
      · rw [depth_of_scalar notArray notObject]
        omega

end Length

theorem length_of_readLayers {layers : Nat} {input : Bytes} {value : Json}
    (read : readLayers layers input = .ok value) : 2 * value.depth ≤ input.length := by
  induction layers generalizing input value with
  | zero => cases read
  | succ layers ih =>
      obtain ⟨rest, found, -⟩ := readDocument_eq_ok.mp read
      have taken := takesLevels_readValue ih nestingLimit found
      omega

/-- A document has two bytes for every level of its value, however documents are embedded in it. -/
theorem length_of_read {document : Bytes} {value : Json} (parsed : read document = .ok value) :
    2 * value.depth ≤ document.length :=
  length_of_readLayers (readLayers_of_read parsed)

/-- The text of one value is read as another, whatever follows it. -/
abbrev Reads (embedded : Bytes → Except SyntaxFault Json) (levels : Nat) (written value : Json) : Prop :=
  ReadsPrinted (readValue embedded levels) (fun written => utf8 written.chars) (fun _ => .ok value)
    written

section Writing

variable {embedded : Bytes → Except SyntaxFault Json} {levels : Nat} {written value : Json}

theorem Reads.of_textual (textual : Textual value) (shallow : value.depth ≤ levels) :
    Reads embedded levels value value where
  reads rest := by
    rw [run_readValue_chars embedded textual, withinLevels, if_pos shallow]
  starts := starts_chars textual

theorem Reads.array (inside : Reads embedded levels written value) :
    Reads embedded (levels + 1) (.array [written]) (.array [value]) where
  reads rest := by
    have item : run (readItems id (readValue embedded levels))
        (utf8 written.chars ++ [] ++ 0x5D :: rest) = .ok ([value], rest) :=
      run_readItems_printed (List.forall_mem_singleton.mpr inside) rest
    rw [List.append_nil] at item
    rw [utf8_chars_array, run_readValue_list embedded levels rfl, listChars, item]
    rfl
  starts := ⟨0x5B, _, rfl, rfl, by decide⟩

theorem Reads.object {name : String} (ordinary : name ≠ embeddedName)
    (inside : Reads embedded levels written value) :
    Reads embedded (levels + 1) (.object [(name, written)]) (.object [(name, value)]) where
  reads rest := by
    have first : ∀ member ∈ [(name, written)].head?, member.1 ≠ embeddedName := by
      simpa using ordinary
    have member : run (readObject embedded (readValue embedded levels))
        (utf8 (membersChars [(name, written)]) ++ 0x7D :: rest) =
          .ok (.object [(name, value)], rest) :=
      run_readObject_printed embedded first (List.forall_mem_singleton.mpr inside) rest
    rw [utf8_chars_object, run_readValue_object embedded levels rfl, member]
    rfl
  starts := ⟨0x7B, _, rfl, rfl, by decide⟩

/-- An object that stands for an embedded document is read as what the document is. -/
theorem Reads.embedding {document : String} (found : embedded (bytes document) = .ok value) :
    Reads embedded (levels + 1) (.object [(embeddedName, .string document)]) value where
  reads rest := by
    have text : run readEmbeddedText (utf8 (chars (.string document)) ++ 0x7D :: rest) =
        .ok (document, 0x7D :: rest) := by
      have opening : utf8 (chars (.string document)) ++ 0x7D :: rest =
          0x22 :: (utf8 (document.toList.flatMap escapedChar) ++ 0x22 :: 0x7D :: rest) :=
        utf8_stringChars document (0x7D :: rest)
      rw [opening, ← run_readString_escaped document (0x7D :: rest)]
      exact run_readEmbeddedText _
    have member : utf8 (membersChars [(embeddedName, .string document)]) ++ 0x7D :: rest =
        utf8 (stringChars embeddedName) ++ 0x3A ::
          (utf8 (chars (.string document)) ++ 0x7D :: rest) := by
      rw [utf8_membersChars]
      simp [printedMore]
    rw [utf8_chars_object, run_readValue_object embedded levels rfl, run_readObject, member,
      run_readFirstName_string]
    dsimp only [bind, Except.bind]
    rw [if_pos rfl, run_readEmbedded, run_readColon_colon]
    dsimp only [bind, Except.bind]
    rw [text]
    dsimp only
    rw [found]
    rfl
  starts := ⟨0x7B, _, rfl, rfl, by decide⟩

theorem Reads.document (whole : Reads embedded nestingLimit written value) :
    readDocument embedded (bytes written.render) = .ok value := by
  have read := whole.reads []
  rw [List.append_nil] at read
  rw [readDocument_eq_ok, render, Text.bytes_ofList]
  exact ⟨[], read, rfl⟩

end Writing

end PartnerSearch.Json
