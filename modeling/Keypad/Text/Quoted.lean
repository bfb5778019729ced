/-
Quoted text: between double quotes, with everything that a line of text could
not show unambiguously written as an escape.
-/
import Keypad.Text.Printable

namespace Keypad.Text

/-- A character inside quotes. Quotes, backslashes and the usual controls have
an escape of their own; any other character that cannot be shown is given by
its code point. -/
def quotedChar (c : Char) : List Char :=
  match c with
  | '\x00' => ['\\', '0']
  | '\t' => ['\\', 't']
  | '\n' => ['\\', 'n']
  | '\r' => ['\\', 'r']
  | '"' => ['\\', '"']
  | '\\' => ['\\', '\\']
  | _ =>
    if isPrintable c then [c]
    else ['\\', 'u', '\x7b'] ++ Nat.toDigits 16 c.toNat ++ ['\x7d']

def quoted (text : String) : String :=
  String.ofList ('"' :: text.toList.flatMap quotedChar ++ ['"'])

end Keypad.Text
