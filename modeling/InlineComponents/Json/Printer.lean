import InlineComponents.Json.Basic
import InlineComponents.Json.Double
import InlineComponents.Text.Basic

/-!
# Writing JSON texts

Compact texts: no white space between tokens. In a quoted text the quote, the backslash and the
control characters below the space are escaped, with a letter where there is one and as `\u00xx`
otherwise; everything else stands for itself.
-/

namespace InlineComponents.Json

/-- A hexadecimal digit in lower case. -/
def hexLetter (value : Nat) : Char :=
  if value < 10 then Char.ofNat (48 + value) else Char.ofNat (87 + value)

/-- How one character stands in a quoted text. -/
def escapeChar (c : Char) : Text :=
  match c with
  | '"' => ['\\', '"']
  | '\\' => ['\\', '\\']
  | '\x08' => ['\\', 'b']
  | '\x0c' => ['\\', 'f']
  | '\n' => ['\\', 'n']
  | '\r' => ['\\', 'r']
  | '\t' => ['\\', 't']
  | c =>
    if c.toNat < 32 then ['\\', 'u', '0', '0', hexLetter (c.toNat / 16), hexLetter (c.toNat % 16)]
    else [c]

/-- The characters of a text with all that needs it escaped. -/
def escape (text : Text) : Text := text.flatMap escapeChar

/-- The text between quotes. -/
def quote (text : Text) : Text := '"' :: escape text ++ ['"']

/-- A number as text. -/
def Number.text : Number → String
  | .integer value => toString value
  | .double bits => Double.compactText bits

/-- A string between quotes. -/
def quoteString (value : String) : String := String.ofList (quote value.toList)

mutual

/-- The compact text of a value. -/
def compress : Json → String
  | .null => "null"
  | .bool true => "true"
  | .bool false => "false"
  | .number value => value.text
  | .string value => quoteString value
  | .array items => "[" ++ compressItems items ++ "]"
  | .object fields => "\x7b" ++ compressFields fields ++ "\x7d"

/-- The compact texts of items with commas between them. -/
def compressItems : List Json → String
  | [] => ""
  | [item] => compress item
  | item :: next :: rest => compress item ++ "," ++ compressItems (next :: rest)

/-- The compact texts of fields with commas between them. -/
def compressFields : List (String × Json) → String
  | [] => ""
  | [(key, value)] => quoteString key ++ ":" ++ compress value
  | (key, value) :: next :: rest =>
    quoteString key ++ ":" ++ compress value ++ "," ++ compressFields (next :: rest)

end

end InlineComponents.Json
