import PartnerSearch.Proofs.Json.Remainder

set_option autoImplicit false

/-!
Documents inside documents. One that is embedded is shorter than the document around it, so reading is
one and the same at every depth: `read_eq` is the recursion without a guard.
-/

namespace PartnerSearch.Json

open Text (Bytes)

variable {ε α : Type}

section Agreement

variable {first second : Bytes → Except SyntaxFault Json} {input : Bytes}

theorem run_readMoreItems_congr {syntaxFault : SyntaxFault → ε} {item other : Reader ε α}
    (agree : ∀ part : Bytes, part.length ≤ input.length → run item part = run other part) :
    run (readMoreItems syntaxFault item) input = run (readMoreItems syntaxFault other) input := by
  induction size : input.length using Nat.strongRecOn generalizing input with
  | ind size ih =>
    rw [run_readMoreItems, run_readMoreItems]
    split
    · rfl
    · rfl
    · rename_i after skipped
      have bound := (rest_suffix_of_skipBlanks skipped).length_le
      split
      · rfl
      · rfl
      · rw [agree after bound]
        apply Outcome.bind_congr
        intro found read
        have shorter := shorter_of_run read
        rw [ih found.2.length (by omega) (fun part small => agree part (by omega)) rfl]
    · rfl

theorem run_readItems_congr {syntaxFault : SyntaxFault → ε} {item other : Reader ε α}
    (agree : ∀ part : Bytes, part.length ≤ input.length → run item part = run other part) :
    run (readItems syntaxFault item) input = run (readItems syntaxFault other) input := by
  rw [run_readItems, run_readItems]
  split
  · rfl
  · rfl
  · rw [agree input (Nat.le_refl _)]
    apply Outcome.bind_congr
    intro found read
    have shorter := shorter_of_run read
    rw [run_readMoreItems_congr fun part small => agree part (by omega)]

theorem run_readMembers_congr {child other : Reader SyntaxFault Json} (name : String)
    (agree : ∀ part : Bytes, part.length ≤ input.length → run child part = run other part) :
    run (readMembers child name) input = run (readMembers other name) input := by
  induction size : input.length using Nat.strongRecOn generalizing input name with
  | ind size ih =>
    rw [run_readMembers, run_readMembers]
    apply Outcome.bind_congr
    intro colon marked
    have shorter := shorter_of_run marked
    rw [agree colon.2 (by omega)]
    apply Outcome.bind_congr
    intro value found
    have shorter' := shorter_of_run found
    apply Outcome.bind_congr
    intro next named
    have shorter'' := shorter_of_run named
    cases next.1 with
    | none => rfl
    | some following =>
        dsimp only
        rw [ih next.2.length (by omega) following (fun part small => agree part (by omega)) rfl]

theorem run_readEmbedded_congr
    (agree : ∀ text : Bytes, text.length < input.length → first text = second text) :
    run (readEmbedded first) input = run (readEmbedded second) input := by
  rw [run_readEmbedded, run_readEmbedded]
  apply Outcome.bind_congr
  intro colon marked
  have shorter := shorter_of_run marked
  apply Outcome.bind_congr
  intro text found
  have bound := (readEmbeddedText_rest found).2
  rw [agree (Text.bytes text.1) (by omega)]

theorem run_readObject_congr {child other : Reader SyntaxFault Json}
    (agree : ∀ part : Bytes, part.length ≤ input.length → run child part = run other part)
    (agreeInside : ∀ text : Bytes, text.length < input.length → first text = second text) :
    run (readObject first child) input = run (readObject second other) input := by
  rw [run_readObject, run_readObject]
  apply Outcome.bind_congr
  intro opening named
  have shorter := shorter_of_run named
  cases opening.1 with
  | none => rfl
  | some name =>
      dsimp only
      rw [run_readEmbedded_congr fun text small => agreeInside text (by omega),
        run_readMembers_congr name fun part small => agree part (by omega)]

/-- Only documents shorter than the input are read inside it. -/
theorem run_readValue_congr (levels : Nat)
    (agree : ∀ text : Bytes, text.length < input.length → first text = second text) :
    run (readValue first levels) input = run (readValue second levels) input := by
  induction levels generalizing input with
  | zero =>
      show run (readWith first none) input = run (readWith second none) input
      rw [run_readWith, run_readWith]
  | succ levels ih =>
      show run (readWith first (some (readValue first levels))) input =
        run (readWith second (some (readValue second levels))) input
      rw [run_readWith, run_readWith]
      split
      · rfl
      · rename_i rest skipped
        have bound := (rest_suffix_of_skipBlanks skipped).length_le
        have inner : ∀ part : Bytes, part.length ≤ rest.length →
            run (readValue first levels) part = run (readValue second levels) part :=
          fun part small => ih fun text smaller => agree text (by omega)
        dsimp only
        rw [run_readItems_congr inner]
      · rename_i rest skipped
        have bound := (rest_suffix_of_skipBlanks skipped).length_le
        exact run_readObject_congr
          (fun part small => ih fun text smaller => agree text (by omega))
          fun text smaller => agree text (by omega)
      · rfl

end Agreement

/-- A document is a value to the end of the text; the documents inside it are read in the same way,
and none of them is too long for that. -/
theorem read_eq (input : Bytes) : read input = (do
    let found ← run (readValue read nestingLimit) input
    endOfDocument found.1 found.2) := by
  have shorter : run (readValue
      (fun text => if _shorter : text.length < input.length then read text else .error .tooDeep)
      nestingLimit) input = run (readValue read nestingLimit) input := by
    apply run_readValue_congr
    intro text small
    rw [dif_pos small]
  rw [read, ← shorter]
  exact bind_run _ input fun found => endOfDocument found.1 found.2

theorem endOfDocument_eq_ok {α : Type} {value found : α} {rest : Bytes} :
    endOfDocument value rest = .ok found ↔ skipBlanks rest = [] ∧ value = found := by
  rw [endOfDocument]
  by_cases ended : skipBlanks rest = [] <;> simp [ended]

theorem read_eq_ok {input : Bytes} {value : Json} : read input = .ok value ↔
    ∃ rest, run (readValue read nestingLimit) input = .ok (value, rest) ∧ skipBlanks rest = [] := by
  rw [read_eq, Outcome.bind_eq_ok]
  constructor
  · intro found
    obtain ⟨⟨_, rest⟩, read, ending⟩ := found
    obtain ⟨ended, rfl⟩ := endOfDocument_eq_ok.mp ending
    exact ⟨rest, read, ended⟩
  · intro found
    obtain ⟨rest, read, ended⟩ := found
    exact ⟨(value, rest), read, endOfDocument_eq_ok.mpr ⟨ended, rfl⟩⟩

end PartnerSearch.Json
