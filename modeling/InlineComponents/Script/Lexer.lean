import InlineComponents.Script.Token
import InlineComponents.Text.Hexadecimal
import InlineComponents.Text.Surrogate

/-!
# Reading tokens

Each reader takes the text after what it already knows of a token and gives the text after the
whole token. Numbers may carry separators between digits and end in `n`; no name may touch their
end. A line end closes no quoted text and no regular expression, unless a backslash stands before
it in the quoted text.
-/

namespace InlineComponents.Script

/-- The code point of an escape after `\u`, and the text after the escape. -/
def readCodePoint? : Text → Option (Nat × Text)
  | '{' :: rest =>
    match rest.takeWhile Text.isHex, rest.dropWhile Text.isHex with
    | [], _ => none
    | digits, '}' :: after =>
      let value := Text.hexNumber digits
      if value ≤ 0x10ffff then some (value, after) else none
    | _, _ => none
  | a :: b :: c :: d :: rest => (Text.hexUnit? a b c d).map fun value => (value, rest)
  | _ => none

/-- The code point of an escape in a quoted text after `\u`, and the text after it. Two escapes of
four digits each may be the halves of one character. -/
def readQuotedPoint? (text : Text) : Option (Nat × Text) :=
  match text with
  | a :: b :: c :: d :: '\\' :: 'u' :: e :: f :: g :: h :: rest =>
    match Text.hexUnit? a b c d, Text.hexUnit? e f g h with
    | some high, some low =>
      if Text.isHighSurrogate high && Text.isLowSurrogate low then
        some (Text.joinSurrogates high low, rest)
      else readCodePoint? text
    | _, _ => readCodePoint? text
  | _ => readCodePoint? text

/-- A name in reverse, whether an escape occurred in it, and the text after it. The first character
has to be one that starts a name. -/
def readNameFrom : (fuel : Nat) → (reversed : Text) → (escaped : Bool) → Text →
    Option (Text × Bool × Text)
  | 0, _, _, _ => none
  | fuel + 1, reversed, escaped, text =>
    match text with
    | '\\' :: 'u' :: rest =>
      match readCodePoint? rest with
      | none => none
      | some (point, after) =>
        let c := Char.ofNat point
        if (if reversed.isEmpty then startsName c else continuesName c) then
          readNameFrom fuel (c :: reversed) true after
        else none
    | '\\' :: _ => none
    | c :: rest =>
      if (if reversed.isEmpty then startsName c else continuesName c) then
        readNameFrom fuel (c :: reversed) escaped rest
      else some (reversed, escaped, c :: rest)
    | [] => some (reversed, escaped, [])

/-- The name at the front of a text, if there is one. -/
def readName? (text : Text) : Option (String × Bool × Text) :=
  match readNameFrom (text.length + 1) [] false text with
  | some (c :: reversed, escaped, rest) =>
    some (String.ofList (c :: reversed).reverse, escaped, rest)
  | _ => none

/-- Digits with single separators between them; a separator has to stand between two digits. -/
def readSeparated? (isDigit : Char → Bool) : (afterDigit : Bool) → Text → Option Text
  | _, [] => some []
  | afterDigit, c :: rest =>
    if isDigit c then readSeparated? isDigit true rest
    else if c = '_' then
      if afterDigit && rest.head?.any isDigit then readSeparated? isDigit false rest else none
    else some (c :: rest)

/-- The text after a number, which no name may touch. -/
def endNumber? (text : Text) : Option Text :=
  match text with
  | [] => some []
  | c :: _ => if startsName c || c = '\\' || c.isDigit then none else some text

/-- The exponent of a number, if there is one. -/
def readPower? (text : Text) : Option Text :=
  match text with
  | c :: rest =>
    if c = 'e' || c = 'E' then
      let digits := match rest with
        | '+' :: more => more
        | '-' :: more => more
        | more => more
      if digits.head?.any Char.isDigit then readSeparated? Char.isDigit false digits else none
    else some text
  | [] => some []

/-- The part of a decimal number after its point. -/
def readAfterPoint? (text : Text) : Option Text := do
  let text ← if text.head?.any Char.isDigit then readSeparated? Char.isDigit false text else
    if text.head? = some '_' then none else some text
  let text ← readPower? text
  endNumber? text

/-- A number in another base than ten, after its letter. -/
def readRadix? (isDigit : Char → Bool) (text : Text) : Option Text := do
  if !text.head?.any isDigit then none
  let rest ← readSeparated? isDigit false text
  match rest with
  | 'n' :: after => endNumber? after
  | _ => endNumber? rest

/-- Whether a digit is octal. -/
def isOctal (c : Char) : Bool := '0' ≤ c && c ≤ '7'

/-- The value of octal digits. -/
def octalNumber (digits : Text) : Nat :=
  digits.foldl (fun acc c => acc * 8 + (c.toNat - 48)) 0

/-- The code point written by at most three octal digits, below 256, and the text after them. -/
def readOctal (text : Text) : Nat × Text :=
  let width := if text.head?.any fun c => c ≤ '3' then 3 else 2
  let digits := (text.take width).takeWhile isOctal
  (octalNumber digits, text.drop digits.length)

/-- A number that starts with a zero and another digit: octal, or decimal if a larger digit
occurs. -/
def readLegacy? (text : Text) : Option Text :=
  let digits := text.takeWhile Char.isDigit
  let rest := text.dropWhile Char.isDigit
  if digits.all isOctal then endNumber? rest
  else match rest with
    | '.' :: after => readAfterPoint? after
    | 'e' :: _ => (readPower? rest).bind endNumber?
    | _ => endNumber? rest

/-- A decimal number from its first digit on. -/
def readDecimal? (text : Text) : Option Text := do
  let rest ← readSeparated? Char.isDigit false text
  match rest with
  | '.' :: after => readAfterPoint? after
  | 'n' :: after => endNumber? after
  | _ => (readPower? rest).bind endNumber?

/-- The text after a number that starts with a digit. -/
def readNumber? (text : Text) : Option Text :=
  match text with
  | '0' :: c :: rest =>
    if c = 'x' || c = 'X' then readRadix? Text.isHex rest
    else if c = 'o' || c = 'O' then readRadix? isOctal rest
    else if c = 'b' || c = 'B' then readRadix? (fun d => d = '0' || d = '1') rest
    else if c.isDigit then readLegacy? text
    else if c = '_' then none
    else readDecimal? text
  | _ => readDecimal? text

/-- The character that a letter stands for after a backslash. -/
def escapedLetter (c : Char) : Char :=
  match c with
  | 'b' => '\x08'
  | 'f' => '\x0c'
  | 'n' => '\n'
  | 'r' => '\r'
  | 't' => '\t'
  | 'v' => '\x0b'
  | c => c

/-- The code points of a quoted text up to the given quote, in reverse, and the text after the
quote. -/
def readStringFrom (quote : Char) : (fuel : Nat) → (reversed : List Nat) → Text →
    Option (List Nat × Text)
  | 0, _, _ => none
  | fuel + 1, reversed, text =>
    match text with
    | [] => none
    | '\\' :: 'x' :: a :: b :: rest =>
      if Text.isHex a && Text.isHex b then
        readStringFrom quote fuel (Text.hexNumber [a, b] :: reversed) rest
      else none
    | '\\' :: 'x' :: _ => none
    | '\\' :: 'u' :: rest =>
      match readQuotedPoint? rest with
      | some (point, after) => readStringFrom quote fuel (point :: reversed) after
      | none => none
    | '\\' :: '\r' :: '\n' :: rest => readStringFrom quote fuel reversed rest
    | '\\' :: c :: rest =>
      if isLineEnd c then readStringFrom quote fuel reversed rest
      else if isOctal c then
        let (point, after) := readOctal (c :: rest)
        readStringFrom quote fuel (point :: reversed) after
      else readStringFrom quote fuel ((escapedLetter c).toNat :: reversed) rest
    | c :: rest =>
      if c = quote then some (reversed, rest)
      else if c = '\n' || c = '\r' || c = '\\' then none
      else readStringFrom quote fuel (c.toNat :: reversed) rest

/-- A stretch of a template up to its end or the next substitution: whether it is the last, whether
its escapes are valid, and the text after it. -/
def readTemplateFrom : (fuel : Nat) → (valid : Bool) → Text → Option (Bool × Bool × Text)
  | 0, _, _ => none
  | fuel + 1, valid, text =>
    match text with
    | [] => none
    | '\x60' :: rest => some (true, valid, rest)
    | '$' :: '{' :: rest => some (false, valid, rest)
    | '\\' :: 'x' :: a :: b :: rest =>
      if Text.isHex a && Text.isHex b then readTemplateFrom fuel valid rest
      else readTemplateFrom fuel false (a :: b :: rest)
    | '\\' :: 'u' :: rest =>
      match readCodePoint? rest with
      | some (_, after) => readTemplateFrom fuel valid after
      | none => readTemplateFrom fuel false rest
    | '\\' :: '0' :: rest =>
      readTemplateFrom fuel (valid && !rest.head?.any Char.isDigit) rest
    | '\\' :: c :: rest => readTemplateFrom fuel (valid && !c.isDigit && c ≠ 'x') rest
    | _ :: rest => readTemplateFrom fuel valid rest

/-- A stretch of a template after its opening character. -/
def readTemplate (text : Text) : Token × Text :=
  match readTemplateFrom (text.length + 1) true text with
  | some (last, valid, rest) => (.template last valid, rest)
  | none => (.invalid, [])

/-- The body of a regular expression up to its closing slash, and the text after it. -/
def readPattern? : (escaped inClass : Bool) → Text → Option Text
  | _, _, [] => none
  | escaped, inClass, c :: rest =>
    if isLineEnd c then none
    else if escaped then readPattern? false inClass rest
    else if c = '\\' then readPattern? true inClass rest
    else if c = '[' then readPattern? false true rest
    else if c = ']' then readPattern? false false rest
    else if c = '/' && !inClass then some rest
    else readPattern? false inClass rest

/-- The text after the flags of a regular expression, each of which may stand once. -/
def readFlags? (seen : Text) : Text → Option Text
  | [] => some []
  | c :: rest =>
    if c.isAlphanum || c = '$' || c = '_' then
      if c ∈ "dgimsuvy".toList ∧ c ∉ seen then readFlags? (c :: seen) rest else none
    else some (c :: rest)

/-- The text after a regular expression, from its opening slash on. -/
def readRegex? : Text → Option Text
  | '/' :: rest => (readPattern? false false rest).bind (readFlags? [])
  | _ => none

/-- The longest operator or bracket at the front of a text. A question mark and a point in front of
a digit stay apart. -/
def readPunctuator (text : Text) : Token × Text :=
  match punctuators.findSome? fun p => (Text.dropWord? p.toList text).map fun rest => (p, rest) with
  | some (p, rest) =>
    if p = "?." && rest.head?.any Char.isDigit then (.punctuator "?", text.drop 1)
    else (.punctuator p, rest)
  | none => (.invalid, [])

/-- A number token, unless the number is malformed. -/
def numberToken (rest : Option Text) : Token × Text :=
  match rest with
  | some rest => (.number, rest)
  | none => (.invalid, [])

/-- The token at the front of a text that starts with no trivia, and the text after it. -/
def readToken (text : Text) : Token × Text :=
  match text with
  | [] => (.finish, [])
  | '\x60' :: rest => readTemplate rest
  | '#' :: rest =>
    match readName? rest with
    | some (name, _, after) => (.privateName name, after)
    | none => (.invalid, [])
  | '.' :: c :: rest =>
    if c.isDigit then numberToken (readAfterPoint? (c :: rest)) else readPunctuator text
  | c :: rest =>
    if c.isDigit then numberToken (readNumber? text)
    else if c = '"' || c = '\'' then
      match readStringFrom c (rest.length + 1) [] rest with
      | some (reversed, after) => (.string reversed.reverse, after)
      | none => (.invalid, [])
    else if c = '\\' || startsName c then
      match readName? text with
      | some (name, escaped, after) => (.word name escaped, after)
      | none => (.invalid, [])
    else readPunctuator text

end InlineComponents.Script
