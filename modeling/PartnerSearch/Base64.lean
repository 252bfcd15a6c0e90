import PartnerSearch.Text.Bytes

set_option autoImplicit false

/-! Base64 with the standard or the URL-safe alphabet; padding may be left out when reading. -/

namespace PartnerSearch.Base64

open Text (Bytes)

inductive Alphabet where
  | standard
  | urlSafe
  deriving DecidableEq, Repr

/-- The symbols of the values 62 and 63. -/
def Alphabet.lastSymbols : Alphabet → UInt8 × UInt8
  | .standard => ('+'.toUInt8, '/'.toUInt8)
  | .urlSafe => ('-'.toUInt8, '_'.toUInt8)

/-- The symbol of a value below 64. -/
def Alphabet.symbol (alphabet : Alphabet) (value : Nat) : UInt8 :=
  if value < 26 then UInt8.ofNat (0x41 + value)
  else if value < 52 then UInt8.ofNat (0x61 + (value - 26))
  else if value < 62 then UInt8.ofNat (0x30 + (value - 52))
  else if value = 62 then alphabet.lastSymbols.1
  else alphabet.lastSymbols.2

def Alphabet.value? (alphabet : Alphabet) (symbol : UInt8) : Option Nat :=
  let n := symbol.toNat
  if 0x41 ≤ n ∧ n ≤ 0x5A then some (n - 0x41)
  else if 0x61 ≤ n ∧ n ≤ 0x7A then some (n - 0x61 + 26)
  else if 0x30 ≤ n ∧ n ≤ 0x39 then some (n - 0x30 + 52)
  else if symbol = alphabet.lastSymbols.1 then some 62
  else if symbol = alphabet.lastSymbols.2 then some 63
  else none

theorem Alphabet.value?_symbol (alphabet : Alphabet) (value : Nat) (small : value < 64) :
    alphabet.value? (alphabet.symbol value) = some value := by
  revert value
  cases alphabet <;> decide

def padding : UInt8 := 0x3D

inductive Fault where
  | invalidSymbol (symbol : UInt8) (offset : Nat)
  | invalidLength (symbols : Nat)
  | invalidLastSymbol (symbol : UInt8) (offset : Nat)
  deriving DecidableEq, Repr

def Fault.message : Fault → String
  | .invalidSymbol symbol offset =>
    "Invalid symbol " ++ toString symbol.toNat ++ ", offset " ++ toString offset ++ "."
  | .invalidLength symbols => "Invalid input length: " ++ toString symbols
  | .invalidLastSymbol symbol offset =>
    "Invalid last symbol " ++ toString symbol.toNat ++ ", offset " ++ toString offset ++ "."

/-- Three bytes become four symbols; what is left at the end becomes two or three. -/
def encode (alphabet : Alphabet) : Bytes → Bytes
  | a :: b :: c :: rest =>
    let group := a.toNat * 65536 + b.toNat * 256 + c.toNat
    alphabet.symbol (group / 262144) :: alphabet.symbol (group / 4096 % 64) ::
      alphabet.symbol (group / 64 % 64) :: alphabet.symbol (group % 64) :: encode alphabet rest
  | [a, b] =>
    let group := a.toNat * 1024 + b.toNat * 4
    [alphabet.symbol (group / 4096), alphabet.symbol (group / 64 % 64), alphabet.symbol (group % 64)]
  | [a] => [alphabet.symbol (a.toNat / 4), alphabet.symbol (a.toNat % 4 * 16)]
  | [] => []

def Alphabet.read (alphabet : Alphabet) (offset : Nat) (symbol : UInt8) : Except Fault Nat :=
  match alphabet.value? symbol with
  | some value => .ok value
  | none => .error (.invalidSymbol symbol offset)

/-- The symbols of the last group with their values, `index` of them being read already. Padding
takes at most its last two places. -/
def readLastGroup (alphabet : Alphabet) (start : Nat) :
    (index : Nat) → Bytes → Except Fault (List (UInt8 × Nat))
  | _, [] => .ok []
  | index, symbol :: rest =>
    if symbol = padding then
      if index < 2 ∨ rest.any (· != padding) then .error (.invalidSymbol padding (start + index))
      else .ok []
    else do
      let value ← alphabet.read (start + index) symbol
      let others ← readLastGroup alphabet start (index + 1) rest
      return (symbol, value) :: others

/-- The bytes of the last group; bits that belong to no byte must be zero. -/
def lastGroupBytes (start : Nat) : List (UInt8 × Nat) → Except Fault Bytes
  | [] => .ok []
  | [_] => .error (.invalidLength (start + 1))
  | [(_, v), (symbol, w)] =>
    if w % 16 ≠ 0 then .error (.invalidLastSymbol symbol (start + 1))
    else .ok [UInt8.ofNat (v * 4 + w / 16)]
  | [(_, v), (_, w), (symbol, x)] =>
    if x % 4 ≠ 0 then .error (.invalidLastSymbol symbol (start + 2))
    else .ok [UInt8.ofNat (v * 4 + w / 16), UInt8.ofNat (w % 16 * 16 + x / 4)]
  | (_, v) :: (_, w) :: (_, x) :: (_, y) :: _ =>
    .ok [UInt8.ofNat (v * 4 + w / 16), UInt8.ofNat (w % 16 * 16 + x / 4),
      UInt8.ofNat (x % 4 * 64 + y)]

/-- Groups of four symbols from `start` on; every group but the last one is full. -/
def decodeFrom (alphabet : Alphabet) (start : Nat) : Bytes → Except Fault Bytes
  | a :: b :: c :: d :: next :: rest => do
    let v ← alphabet.read start a
    let w ← alphabet.read (start + 1) b
    let x ← alphabet.read (start + 2) c
    let y ← alphabet.read (start + 3) d
    let others ← decodeFrom alphabet (start + 4) (next :: rest)
    return UInt8.ofNat (v * 4 + w / 16) :: UInt8.ofNat (w % 16 * 16 + x / 4) ::
      UInt8.ofNat (x % 4 * 64 + y) :: others
  | last => do
    let symbols ← readLastGroup alphabet start 0 last
    lastGroupBytes start symbols

/-- A last byte that would stand alone in its group is looked at first. -/
def loneLast? (alphabet : Alphabet) (symbols : Bytes) : Option Fault :=
  match symbols.getLast? with
  | some last =>
    if symbols.length % 4 = 1 ∧ last ≠ padding ∧ alphabet.value? last = none then
      some (.invalidSymbol last (symbols.length - 1))
    else none
  | none => none

def decode (alphabet : Alphabet) (symbols : Bytes) : Except Fault Bytes :=
  match loneLast? alphabet symbols with
  | some fault => .error fault
  | none => decodeFrom alphabet 0 symbols

end PartnerSearch.Base64
