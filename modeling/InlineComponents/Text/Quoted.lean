import InlineComponents.Text.Basic
import InlineComponents.Text.Printable

/-!
# Quoted texts in messages

A text in a message stands between double quotes. Quotes, backslashes and the common control
characters are written with a backslash; other characters without a look of their own are written
by their code point.
-/

namespace InlineComponents.Text

/-- A character by its code point, in lower-case hexadecimal digits. -/
def codePointEscape (c : Char) : Text :=
  "\\u\x7b".toList ++ Nat.toDigits 16 c.toNat ++ ['}']

/-- How one character stands in a quoted text. -/
def showChar (c : Char) : Text :=
  match c with
  | '\x00' => ['\\', '0']
  | '\t' => ['\\', 't']
  | '\r' => ['\\', 'r']
  | '\n' => ['\\', 'n']
  | '\\' => ['\\', '\\']
  | '"' => ['\\', '"']
  | c => if isGraphemeExtend c || !isPrintable c then codePointEscape c else [c]

/-- The text between double quotes. -/
def quoted (text : Text) : Text := '"' :: text.flatMap showChar ++ ['"']

end InlineComponents.Text
