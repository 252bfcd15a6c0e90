import PartnerSearch.Proofs.Sql.Lexer

set_option autoImplicit false

/-!
The tokens of a formula's text. Plain names, keywords and placeholders stand apart in it, so that
the text has exactly the tokens of its parts, with the values of the conditions for the parameters.
-/

namespace PartnerSearch.Sql

def ColumnRef.tokens (reference : ColumnRef) : List Token :=
  [.name (aliasName reference.slot), .dot, .name reference.column]

namespace Link

def sourceTokens (link : Link) : List Token := [.name link.table, .name (aliasName link.slot)]

def equalityTokens (link : Link) : List Token :=
  (ColumnRef.mk link.slot link.remote).tokens ++ [.comparison .equal] ++
    (ColumnRef.mk link.parent link.home).tokens

def joinTokens : JoinKind → List Token
  | .inner => [.keyword .JOIN]
  | .left => [.keyword .LEFT, .keyword .JOIN]

def joinedTokens (link : Link) : List Token :=
  joinTokens link.kind ++ link.sourceTokens ++ [.keyword .ON] ++ link.equalityTokens

def fromTokens : List Link → List Token
  | [] => []
  | first :: rest => first.sourceTokens ++ rest.flatMap joinedTokens

def whereTokens : List Link → List Token
  | [] => []
  | first :: _ => first.equalityTokens

def selectTokens (what : List Token) (links : List Link) : List Token :=
  [.keyword .SELECT] ++ what ++ [.keyword .FROM] ++ fromTokens links ++ [.keyword .WHERE] ++
    whereTokens links

end Link

def Operand.tokens : Operand → List Token
  | .column reference => reference.tokens
  | .subquery reference links =>
    [.opening] ++ Link.selectTokens reference.tokens links ++ [.closing]

def comparisonTokens : Comparison → List Token
  | .notEqual => [.keyword .IS, .keyword .NOT]
  | comparison => [.comparison comparison]

def listTokens : List Value → List Token
  | [] => []
  | [value] => [.value value]
  | value :: next :: rest => [.value value, .comma] ++ listTokens (next :: rest)

/-- What a condition says of a subject. -/
def conditionTokens : Condition → List Token
  | .compare comparison value => comparisonTokens comparison ++ [.value value]
  | .within values => [.keyword .IN, .opening] ++ listTokens values ++ [.closing]
  | .contains needle =>
    [.keyword .LIKE, .value (.text (Pattern.containing needle)), .keyword .ESCAPE, .literal "\\"]
  | .set => [.keyword .IS, .keyword .NOT, .keyword .NULL]
  | .notSet => [.keyword .IS, .keyword .NULL]
  | .between low high => [.keyword .BETWEEN, .value low, .keyword .AND, .value high]

def connectiveKeyword : Connective → Keyword
  | .all => .AND
  | .any => .OR

namespace Formula

mutual

def tokens : Formula → List Token
  | .always => [.number 1, .comparison .equal, .number 1]
  | .test operand condition => operand.tokens ++ conditionTokens condition
  | .existsWhere links reference condition =>
    [.keyword .EXISTS, .opening] ++ Link.selectTokens [.number 1] links ++ [.keyword .AND] ++
      (reference.tokens ++ conditionTokens condition) ++ [.closing]
  | .present links =>
    [.keyword .EXISTS, .opening] ++ Link.selectTokens [.number 1] links ++ [.closing]
  | .absent links =>
    [.keyword .NOT, .keyword .EXISTS, .opening] ++ Link.selectTokens [.number 1] links ++ [.closing]
  | .group connective items =>
    [.opening] ++ itemTokens (connectiveKeyword connective) items ++ [.closing]

def itemTokens (between : Keyword) : List Formula → List Token
  | [] => []
  | [item] => item.tokens
  | item :: next :: rest => item.tokens ++ [.keyword between] ++ itemTokens between (next :: rest)

end

end Formula

namespace Link

def IsPlain (link : Link) : Prop :=
  IsPlainName link.table ∧ IsPlainName link.remote ∧ IsPlainName link.home

/-- Every link is tied to an alias taken before it, under an alias of its own. -/
def Scoped : List Nat → List Link → Prop
  | _, [] => True
  | taken, link :: rest =>
    link.parent ∈ taken ∧ link.slot ∉ taken ∧ Scoped (link.slot :: taken) rest

structure WellFormed (links : List Link) : Prop where
  some_link : links ≠ []
  plain : ∀ link ∈ links, link.IsPlain
  inScope : Scoped [0] links

end Link

def Operand.WellFormed : Operand → Prop
  | .column reference => IsPlainName reference.column ∧ reference.slot = 0
  | .subquery reference links =>
    IsPlainName reference.column ∧ reference.slot ∈ links.map Link.slot ∧ Link.WellFormed links

/-- Names are plain, aliases are in scope, and nothing that is listed is empty. -/
inductive Formula.WellFormed : Formula → Prop
  | always : WellFormed .always
  | test {operand : Operand} {condition : Condition} (subject : operand.WellFormed)
      (some_value : condition ≠ .within []) : WellFormed (.test operand condition)
  | existsWhere {links : List Link} {reference : ColumnRef} {condition : Condition}
      (joined : Link.WellFormed links) (column : IsPlainName reference.column)
      (inside : reference.slot ∈ links.map Link.slot) (some_value : condition ≠ .within []) :
      WellFormed (.existsWhere links reference condition)
  | present {links : List Link} (joined : Link.WellFormed links) : WellFormed (.present links)
  | absent {links : List Link} (joined : Link.WellFormed links) : WellFormed (.absent links)
  | group {connective : Connective} {items : List Formula} (some_item : items ≠ [])
      (each : ∀ item ∈ items, WellFormed item) : WellFormed (.group connective items)

theorem fill_append {spelled others : List Token} {values later : List Value}
    {tokens more : List Token} (filled : fill spelled values = some tokens)
    (further : fill others later = some more) :
    fill (spelled ++ others) (values ++ later) = some (tokens ++ more) := by
  fun_induction fill spelled values generalizing tokens with
  | case1 =>
      cases filled
      exact further
  | case2 value values => cases filled
  | case3 rest => cases filled
  | case4 rest value values ih =>
      obtain ⟨below, inside, rfl⟩ := Option.map_eq_some_iff.mp filled
      rw [List.cons_append, List.cons_append, fill, ih inside]
      rfl
  | case5 token rest values noneLeft someLeft ih =>
      have other : token ≠ .parameter := by
        cases values with
        | nil => exact noneLeft rfl
        | cons value values => exact someLeft value values rfl
      obtain ⟨below, inside, rfl⟩ := Option.map_eq_some_iff.mp filled
      rw [List.cons_append, fill, ih inside]
      · rfl
      · exact fun _ => other
      · exact fun _ _ _ => other

/-- The text has these tokens once the values stand for the parameters. -/
def Spells (text : String) (values : List Value) (tokens : List Token) (ending : Ending) : Prop :=
  ∃ spelled, Lexes text spelled ending ∧ fill spelled values = some tokens

theorem Spells.append {first second : String} {values later : List Value}
    {tokens others : List Token} {middle ending : Ending}
    (spells : Spells first values tokens middle)
    (further : Spells second later others ending) (apart : middle = .complete ∨ Breaks second) :
    Spells (first ++ second) (values ++ later) (tokens ++ others) ending := by
  obtain ⟨spelled, lexes, filled⟩ := spells
  obtain ⟨more, lexed, filledMore⟩ := further
  exact ⟨spelled ++ more, lexes.append lexed apart, fill_append filled filledMore⟩

theorem Spells.of_complete {text : String} {values : List Value} {spelled tokens : List Token}
    (scanned : scan .nothing text.toList = some (spelled, .nothing))
    (filled : fill spelled values = some tokens) : Spells text values tokens .complete :=
  ⟨spelled, ⟨spelled, .nothing, [], scanned, rfl, List.append_nil _, fun _ => rfl⟩, filled⟩

theorem Spells.of_lex {text : String} {values : List Value} {spelled tokens : List Token}
    (lexed : lex text = some spelled) (filled : fill spelled values = some tokens) :
    Spells text values tokens .pending := by
  rw [lex, lexChars, Option.bind_eq_some_iff] at lexed
  obtain ⟨⟨done, last⟩, scanned, finished⟩ := lexed
  obtain ⟨more, ends, same⟩ := Option.map_eq_some_iff.mp finished
  exact ⟨spelled, ⟨done, last, more, scanned, ends, same, by simp⟩, filled⟩

theorem Spells.pending {text : String} {values : List Value} {tokens : List Token} {ending : Ending}
    (spells : Spells text values tokens ending) : Spells text values tokens .pending := by
  obtain ⟨spelled, ⟨done, last, more, scanned, finished, same, -⟩, filled⟩ := spells
  exact ⟨spelled, ⟨done, last, more, scanned, finished, same, by simp⟩, filled⟩

theorem spells_name {name : String} (plain : IsPlainName name) :
    Spells name [] [.name name] .pending :=
  ⟨[.name name], lexes_name plain, rfl⟩

theorem ColumnRef.spells (reference : ColumnRef) (plain : IsPlainName reference.column) :
    Spells reference.text [] reference.tokens .pending := by
  have label := spells_name (isPlainName_aliasName reference.slot)
  have dot : Spells "." [] [.dot] .complete := .of_complete rfl rfl
  exact (label.append dot (.inr ⟨_, _, rfl, rfl⟩)).append (spells_name plain) (.inl rfl)

namespace Link

theorem spells_source {link : Link} (plain : link.IsPlain) :
    Spells link.source [] link.sourceTokens .pending := by
  have space : Spells " " [] [] .complete := .of_complete rfl rfl
  exact ((spells_name plain.1).append space (.inr ⟨_, _, rfl, rfl⟩)).append
    (spells_name (isPlainName_aliasName link.slot)) (.inl rfl)

theorem spells_equality {link : Link} (plain : link.IsPlain) :
    Spells link.equality [] link.equalityTokens .pending := by
  have equal : Spells " = " [] [.comparison .equal] .complete := .of_complete rfl rfl
  have own := ColumnRef.spells ⟨link.slot, link.remote⟩ plain.2.1
  have outer := ColumnRef.spells ⟨link.parent, link.home⟩ plain.2.2
  exact (own.append equal (.inr ⟨_, _, rfl, rfl⟩)).append outer (.inl rfl)

theorem spells_joined {link : Link} (plain : link.IsPlain) :
    Spells link.joined [] link.joinedTokens .pending := by
  have join : Spells (joinWord link.kind) [] (joinTokens link.kind) .complete := by
    cases link.kind with
    | inner => exact .of_complete rfl rfl
    | left => exact .of_complete rfl rfl
  have on : Spells " ON " [] [.keyword .ON] .complete := .of_complete rfl rfl
  have source := join.append (spells_source plain) (.inl rfl)
  exact (source.append on (.inr ⟨_, _, rfl, rfl⟩)).append (spells_equality plain) (.inl rfl)

theorem breaks_joined (link : Link) : Breaks link.joined := by
  have word : Breaks (joinWord link.kind) := by
    cases link.kind with
    | inner => exact ⟨_, _, rfl, rfl⟩
    | left => exact ⟨_, _, rfl, rfl⟩
  exact ((word.append _).append _).append _

/-- Joined tables follow whatever stands before them. -/
theorem spells_append_joined {text : String} {tokens : List Token} {links : List Link}
    (spells : Spells text [] tokens .pending) (plain : ∀ link ∈ links, link.IsPlain) :
    Spells (text ++ String.join (links.map joined)) [] (tokens ++ links.flatMap joinedTokens)
      .pending := by
  induction links generalizing text tokens with
  | nil => simpa using spells
  | cons link rest ih =>
      have here := spells.append (spells_joined (plain link List.mem_cons_self))
        (.inr (breaks_joined link))
      have later := ih here fun other member => plain other (List.mem_cons_of_mem link member)
      rw [List.map_cons, String.join_cons, List.flatMap_cons, ← String.append_assoc,
        ← List.append_assoc]
      exact later

theorem spells_select {what : String} {tokens : List Token} {links : List Link}
    (spells : Spells what [] tokens .pending) (wellFormed : WellFormed links) :
    Spells (selectText what links) [] (selectTokens tokens links) .pending := by
  cases links with
  | nil => exact absurd rfl wellFormed.some_link
  | cons first rest =>
      have own := wellFormed.plain first List.mem_cons_self
      have select : Spells "SELECT " [] [.keyword .SELECT] .complete := .of_complete rfl rfl
      have source : Spells " FROM " [] [.keyword .FROM] .complete := .of_complete rfl rfl
      have where_ : Spells " WHERE " [] [.keyword .WHERE] .complete := .of_complete rfl rfl
      have tables := spells_append_joined (spells_source own)
        fun link member => wellFormed.plain link (List.mem_cons_of_mem first member)
      have head := (select.append spells (.inl rfl)).append source (.inr ⟨_, _, rfl, rfl⟩)
      exact ((head.append tables (.inl rfl)).append where_ (.inr ⟨_, _, rfl, rfl⟩)).append
        (spells_equality own) (.inl rfl)

end Link

theorem Operand.spells {operand : Operand} (wellFormed : operand.WellFormed) :
    Spells operand.text [] operand.tokens .pending := by
  cases operand with
  | column reference => exact reference.spells wellFormed.1
  | subquery reference links =>
      obtain ⟨column, -, joined⟩ := wellFormed
      have opening : Spells "(" [] [.opening] .complete := .of_complete rfl rfl
      have closing : Spells ")" [] [.closing] .complete := .of_complete rfl rfl
      have query := Link.spells_select (reference.spells column) joined
      exact ((opening.append query (.inl rfl)).append closing (.inr ⟨_, _, rfl, rfl⟩)).pending

/-- The pieces have these tokens. -/
def Piece.Spell (pieces : List Piece) (tokens : List Token) (ending : Ending) : Prop :=
  Spells (Fragment.ofPieces pieces).sql (Fragment.ofPieces pieces).binds tokens ending

theorem Piece.Spell.append {pieces others : List Piece} {tokens more : List Token}
    {middle ending : Ending} (spell : Piece.Spell pieces tokens middle)
    (later : Piece.Spell others more ending)
    (apart : middle = .complete ∨ Breaks (Fragment.ofPieces others).sql) :
    Piece.Spell (pieces ++ others) (tokens ++ more) ending := by
  have together := Spells.append spell later apart
  unfold Piece.Spell
  simp only [Fragment.ofPieces, List.map_append, List.filterMap_append, String.join_append]
    at together ⊢
  exact together

theorem Piece.Spell.pending {pieces : List Piece} {tokens : List Token} {ending : Ending}
    (spell : Piece.Spell pieces tokens ending) : Piece.Spell pieces tokens .pending :=
  Spells.pending spell

theorem Piece.spell_word {text : String} {tokens : List Token} {ending : Ending}
    (spells : Spells text [] tokens ending) : Piece.Spell [.word text] tokens ending := by
  have sql : String.join ([Piece.word text].map Piece.text) = text := by simp [Piece.text]
  rw [Piece.Spell, Fragment.ofPieces, sql]
  exact spells

theorem Piece.spell_operand (value : Value) :
    Piece.Spell [.operand value] [.value value] .complete := by
  have parameter : Spells "?" [value] [.value value] .complete := .of_complete rfl rfl
  simpa [Piece.Spell, Fragment.ofPieces, Piece.text, Piece.value?] using parameter

theorem spell_listPieces (values : List Value) :
    Piece.Spell (listPieces values) (listTokens values) .complete := by
  match values with
  | [] => exact .of_complete rfl rfl
  | [value] => exact Piece.spell_operand value
  | value :: next :: rest =>
      have comma : Spells ", " [] [.comma] .complete := .of_complete rfl rfl
      have first := (Piece.spell_operand value).append (Piece.spell_word comma) (.inl rfl)
      exact first.append (spell_listPieces (next :: rest)) (.inl rfl)

theorem spell_comparison (comparison : Comparison) :
    Spells (" " ++ comparisonWord comparison ++ " ") [] (comparisonTokens comparison) .complete ∧
      Breaks (" " ++ comparisonWord comparison ++ " ") := by
  constructor
  · cases comparison <;> exact .of_complete rfl rfl
  · exact Breaks.append (Breaks.append ⟨' ', [], rfl, rfl⟩ _) _

/-- A condition on a subject that the text has the tokens of. -/
theorem spell_conditionPieces {subject : String} {tokens : List Token}
    (spells : Spells subject [] tokens .pending) (condition : Condition) :
    Piece.Spell (conditionPieces subject condition) (tokens ++ conditionTokens condition)
      .pending := by
  have onward {text : String} {said : List Token} {ending : Ending}
      (further : Spells text [] said ending) (breaks : Breaks text) :
      Piece.Spell [.word (subject ++ text)] (tokens ++ said) ending :=
    Piece.spell_word (spells.append further (.inr breaks))
  cases condition with
  | compare comparison value =>
      obtain ⟨word, breaks⟩ := spell_comparison comparison
      have whole := ((onward word breaks).append (Piece.spell_operand value) (.inl rfl)).pending
      simpa only [conditionPieces, conditionTokens, String.append_assoc, List.append_assoc,
        List.cons_append, List.nil_append] using whole
  | within values =>
      have opening : Spells " IN (" [] [.keyword .IN, .opening] .complete := .of_complete rfl rfl
      have closing : Spells ")" [] [.closing] .complete := .of_complete rfl rfl
      have list := (onward opening ⟨_, _, rfl, rfl⟩).append (spell_listPieces values) (.inl rfl)
      have whole := (list.append (Piece.spell_word closing) (.inl rfl)).pending
      simpa only [conditionPieces, conditionTokens, List.append_assoc, List.cons_append,
        List.nil_append] using whole
  | contains needle =>
      have like : Spells " LIKE " [] [.keyword .LIKE] .complete := .of_complete rfl rfl
      have escape : Spells " ESCAPE '\\'" [] [.keyword .ESCAPE, .literal "\\"] .pending :=
        .of_lex rfl rfl
      have pattern := (onward like ⟨_, _, rfl, rfl⟩).append
        (Piece.spell_operand (.text (Pattern.containing needle))) (.inl rfl)
      have whole := pattern.append (Piece.spell_word escape) (.inl rfl)
      simpa only [conditionPieces, conditionTokens, List.append_assoc, List.cons_append,
        List.nil_append] using whole
  | set =>
      have set : Spells " IS NOT NULL" [] [.keyword .IS, .keyword .NOT, .keyword .NULL] .pending :=
        .of_lex rfl rfl
      exact onward set ⟨_, _, rfl, rfl⟩
  | notSet =>
      have notSet : Spells " IS NULL" [] [.keyword .IS, .keyword .NULL] .pending :=
        .of_lex rfl rfl
      exact onward notSet ⟨_, _, rfl, rfl⟩
  | between low high =>
      have between : Spells " BETWEEN " [] [.keyword .BETWEEN] .complete := .of_complete rfl rfl
      have and_ : Spells " AND " [] [.keyword .AND] .complete := .of_complete rfl rfl
      have bounds := (onward between ⟨_, _, rfl, rfl⟩).append (Piece.spell_operand low) (.inl rfl)
      have whole := ((bounds.append (Piece.spell_word and_) (.inl rfl)).append
        (Piece.spell_operand high) (.inl rfl)).pending
      simpa only [conditionPieces, conditionTokens, List.append_assoc, List.cons_append,
        List.nil_append] using whole

namespace Formula

/-- A query in the parentheses of EXISTS, behind words that are complete. -/
theorem spells_exists {words : String} {before : List Token}
    (spells : Spells words [] before .complete) {links : List Link}
    (joined : Link.WellFormed links) :
    Spells (words ++ Link.selectText "1" links) [] (before ++ Link.selectTokens [.number 1] links)
      .pending := by
  have one : Spells "1" [] [.number 1] .pending := .of_lex rfl rfl
  exact spells.append (Link.spells_select one joined) (.inl rfl)

theorem spell_itemPieces (connective : Connective) (items : List Formula)
    (each : ∀ item ∈ items, Piece.Spell item.pieces item.tokens .pending) :
    Piece.Spell (itemPieces (connectiveWord connective) items)
      (itemTokens (connectiveKeyword connective) items) .pending := by
  have word : Spells (connectiveWord connective) [] [.keyword (connectiveKeyword connective)]
      .complete := by
    cases connective <;> exact .of_complete rfl rfl
  have breaks : Breaks (Fragment.ofPieces [.word (connectiveWord connective)]).sql := by
    cases connective <;> exact ⟨_, _, rfl, rfl⟩
  match items with
  | [] => exact .of_lex rfl rfl
  | [item] => exact each item (List.mem_singleton_self item)
  | item :: next :: rest =>
      have first := (each item List.mem_cons_self).append (Piece.spell_word word) (.inr breaks)
      have later := spell_itemPieces connective (next :: rest)
        fun other member => each other (List.mem_cons_of_mem item member)
      simpa only [itemPieces, itemTokens, List.append_assoc, List.cons_append, List.nil_append]
        using first.append later (.inl rfl)

/-- The text of a well-formed formula has its tokens. -/
theorem spell_pieces {formula : Formula} (wellFormed : formula.WellFormed) :
    Piece.Spell formula.pieces formula.tokens .pending := by
  have opening : Spells "(" [] [.opening] .complete := .of_complete rfl rfl
  have closing : Spells ")" [] [.closing] .complete := .of_complete rfl rfl
  have exists_ : Spells "EXISTS (" [] [.keyword .EXISTS, .opening] .complete := .of_complete rfl rfl
  have closes : Breaks (Fragment.ofPieces [.word ")"]).sql := ⟨_, _, rfl, rfl⟩
  induction wellFormed with
  | always => exact .of_lex rfl rfl
  | test subject some_value => exact spell_conditionPieces (Operand.spells subject) _
  | @existsWhere links reference condition joined column inside some_value =>
      have and_ : Spells " AND " [] [.keyword .AND] .complete := .of_complete rfl rfl
      have query := (spells_exists exists_ joined).append and_ (.inr ⟨_, _, rfl, rfl⟩)
      have tested := spell_conditionPieces (reference.spells column) condition
      have inner := (Piece.spell_word query).append tested (.inl rfl)
      exact (inner.append (Piece.spell_word closing) (.inr closes)).pending
  | present joined =>
      have query := (spells_exists exists_ joined).append closing (.inr ⟨_, _, rfl, rfl⟩)
      exact Piece.spell_word query.pending
  | absent joined =>
      have absent :
          Spells "NOT EXISTS (" [] [.keyword .NOT, .keyword .EXISTS, .opening] .complete :=
        .of_complete rfl rfl
      have query := (spells_exists absent joined).append closing (.inr ⟨_, _, rfl, rfl⟩)
      exact Piece.spell_word query.pending
  | @group connective items some_item each ih =>
      have items := spell_itemPieces connective items ih
      have inner := (Piece.spell_word opening).append items (.inl rfl)
      exact (inner.append (Piece.spell_word closing) (.inr closes)).pending

/-- Reading the text of a formula, with its binds, starts from its tokens. -/
theorem tokens_of_fragment {formula : Formula} (wellFormed : formula.WellFormed) :
    ∃ spelled, lex formula.fragment.sql = some spelled ∧
      fill spelled formula.fragment.binds = some formula.tokens := by
  obtain ⟨spelled, lexes, filled⟩ := spell_pieces wellFormed
  exact ⟨spelled, lexes.lex_eq, filled⟩

end Formula

end PartnerSearch.Sql
