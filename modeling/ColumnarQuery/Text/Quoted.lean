import ColumnarQuery.Text.GraphemeExtend
import ColumnarQuery.Text.Printable

/-!
# Quoted text

`Text.quote` writes a text between double quotes. Quotes, backslashes and the common controls are escaped by a
backslash, and a character that would not be seen on its own by its code point.
-/

namespace ColumnarQuery.Text

/-- The code point of a character in hexadecimal, between braces. -/
def codePointEscape (c : Char) : List Char :=
  "\\u\x7b".toList ++ Nat.toDigits 16 c.toNat ++ ['\x7d']

def escape (c : Char) : List Char :=
  match c with
  | '\x00' => ['\\', '0']
  | '\t' => ['\\', 't']
  | '\r' => ['\\', 'r']
  | '\n' => ['\\', 'n']
  | '\\' => ['\\', '\\']
  | '"' => ['\\', '"']
  | _ => if extendsGrapheme c || !isPrintable c then codePointEscape c else [c]

def quote (s : String) : String :=
  String.ofList ('"' :: s.toList.flatMap escape ++ ['"'])

end ColumnarQuery.Text
