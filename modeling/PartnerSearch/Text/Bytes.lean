set_option autoImplicit false

/-! Text as UTF-8 bytes, read back strictly or with replacement characters. -/

namespace PartnerSearch.Text

abbrev Bytes := List UInt8

def bytes (text : String) : Bytes := text.toUTF8.data.toList

def ofBytes? (input : Bytes) : Option String := String.fromUTF8? ⟨input.toArray⟩

/-- Which second bytes may follow a lead byte, and how many bytes the character has in all. -/
def leadByte? (lead : UInt8) : Option (Nat × Nat × Nat) :=
  let n := lead.toNat
  if 0xC2 ≤ n && n ≤ 0xDF then some (0x80, 0xBF, 2)
  else if n == 0xE0 then some (0xA0, 0xBF, 3)
  else if n == 0xED then some (0x80, 0x9F, 3)
  else if 0xE1 ≤ n && n ≤ 0xEF then some (0x80, 0xBF, 3)
  else if n == 0xF0 then some (0x90, 0xBF, 4)
  else if n == 0xF4 then some (0x80, 0x8F, 4)
  else if 0xF1 ≤ n && n ≤ 0xF3 then some (0x80, 0xBF, 4)
  else none

/-- How many of the first `count` bytes are continuation bytes, counted up to the first that is not. -/
def continuationCount : Nat → Bytes → Nat
  | 0, _ => 0
  | _ + 1, [] => 0
  | count + 1, b :: rest =>
    if 0x80 ≤ b.toNat && b.toNat ≤ 0xBF then continuationCount count rest + 1 else 0

/-- How many bytes after `lead` belong to its character, and whether the character is complete. -/
def characterTail (lead : UInt8) (rest : Bytes) : Nat × Bool :=
  match leadByte? lead, rest with
  | some (low, high, size), second :: others =>
    if low ≤ second.toNat && second.toNat ≤ high then
      let more := continuationCount (size - 2) others
      (more + 1, more + 2 == size)
    else (0, false)
  | _, _ => (0, lead.toNat < 0x80)

/-- Replaces every maximal ill-formed run by the bytes of U+FFFD. -/
def wellFormed (input : Bytes) : Bytes :=
  match input with
  | [] => []
  | lead :: rest =>
    let (count, complete) := characterTail lead rest
    let character := if complete then lead :: rest.take count else [0xEF, 0xBF, 0xBD]
    character ++ wellFormed (rest.drop count)
termination_by input.length
decreasing_by simp only [List.length_drop, List.length_cons]; omega

/-- Reads any bytes; ill-formed runs become replacement characters. -/
def ofBytesLossy (input : Bytes) : String :=
  (ofBytes? (wellFormed input)).getD ""

end PartnerSearch.Text
