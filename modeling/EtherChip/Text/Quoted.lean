import EtherChip.Text.Hidden

/-!
# Quoted text in messages

A text quoted in a message stands between double quotes. Quotes and backslashes are escaped, five
control characters have short names, and every other hidden character is written as its code point
in braces, so that a reader of the message sees all of it.
-/
namespace EtherChip.Text

def escape (c : Char) : List Char :=
  match c with
  | '"' => ['\\', '"']
  | '\\' => ['\\', '\\']
  | '\n' => ['\\', 'n']
  | '\r' => ['\\', 'r']
  | '\t' => ['\\', 't']
  | '\x00' => ['\\', '0']
  | c => if isHidden c then ['\\', 'u', '\x7b'] ++ Nat.toDigits 16 c.toNat ++ ['\x7d'] else [c]

/-- A text between double quotes with its special characters escaped. -/
def quoted (s : String) : String := String.ofList ('"' :: s.toList.flatMap escape ++ ['"'])

end EtherChip.Text
