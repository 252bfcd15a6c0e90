import PartnerSearch.Text.Hex
import PartnerSearch.Text.Hidden

set_option autoImplicit false

/-! Quoted display text: one line, with everything that does not show written as an escape. -/

namespace PartnerSearch.Text

def quotedChar (c : Char) : List Char :=
  match c with
  | '\t' => ['\\', 't']
  | '\r' => ['\\', 'r']
  | '\n' => ['\\', 'n']
  | '\x00' => ['\\', '0']
  | '\\' => ['\\', '\\']
  | '"' => ['\\', '"']
  | c => if isHidden c then ['\\', 'u', '\x7b'] ++ hex c.toNat ++ ['\x7d'] else [c]

def quoted (text : String) : String :=
  String.ofList ('"' :: text.toList.flatMap quotedChar ++ ['"'])

end PartnerSearch.Text
