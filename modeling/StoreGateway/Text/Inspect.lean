import StoreGateway.Text.Hidden

/-!
# Text for inspection

A text is inspected between quotation marks, with every character visible: a hidden one is
written as its number.

* `inspectChar`: what one character becomes;
* `inspect`: a text between quotation marks.
-/

namespace StoreGateway.Text

/-- A character between quotation marks. -/
def inspectChar : Char → List Char
  | '"' => ['\\', '"']
  | '\\' => ['\\', '\\']
  | '\t' => ['\\', 't']
  | '\n' => ['\\', 'n']
  | '\r' => ['\\', 'r']
  | '\x00' => ['\\', '0']
  | c => if isHidden c then '\\' :: 'u' :: '{' :: Nat.toDigits 16 c.toNat ++ ['}'] else [c]

def inspect (s : String) : String :=
  String.ofList ('"' :: s.toList.flatMap inspectChar ++ ['"'])

end StoreGateway.Text
