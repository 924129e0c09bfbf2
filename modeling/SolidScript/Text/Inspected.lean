import SolidScript.Text.Printable

/-!
# Strings as developers see them

The inspection form of a string stands in quotes and shows every character: the common controls
by a letter, other characters that cannot be seen by their code point.
-/

namespace SolidScript.Text.Inspected

/-- A code point in braces. -/
def codePoint (c : Char) : List Char :=
  "\\u\x7b".toList ++ Nat.toDigits 16 c.toNat ++ ['\x7d']

def encodeChar (c : Char) : List Char :=
  match c with
  | '\x00' => ['\\', '0']
  | '\t' => ['\\', 't']
  | '\r' => ['\\', 'r']
  | '\n' => ['\\', 'n']
  | '"' => ['\\', '"']
  | '\\' => ['\\', '\\']
  | c => if isPrintable c then [c] else codePoint c

def text (s : String) : String :=
  "\"" ++ String.ofList (s.toList.flatMap encodeChar) ++ "\""

end SolidScript.Text.Inspected
