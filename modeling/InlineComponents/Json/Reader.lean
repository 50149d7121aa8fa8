import InlineComponents.Json.Basic
import InlineComponents.Json.Double
import InlineComponents.Text.Hexadecimal
import InlineComponents.Text.Surrogate

/-!
# Reading JSON texts

A strict reader: no comments, no trailing commas, no raw control characters in texts, no lone
surrogates, no number that overflows a double, and at most 127 containers inside each other. Of
equal keys the last one counts.

Numbers without fraction and exponent are integers when they fit 64 bits, signed or unsigned; a
negative zero is a double. Digits beyond what 64 bits hold are not counted, only their places.
-/

namespace InlineComponents.Json

/-- The largest number of containers inside each other. -/
def depthLimit : Nat := 127

/-- White space between tokens. -/
def isGap (c : Char) : Bool := c = ' ' || c = '\n' || c = '\t' || c = '\r'

/-- The text from its next token on. -/
def skipGap (text : Text) : Text := text.dropWhile isGap

/-- The character that a letter after a backslash stands for. -/
def shortEscape? (c : Char) : Option Char :=
  match c with
  | '"' => some '"'
  | '\\' => some '\\'
  | '/' => some '/'
  | 'b' => some '\x08'
  | 'f' => some '\x0c'
  | 'n' => some '\n'
  | 'r' => some '\r'
  | 't' => some '\t'
  | _ => none

/-- The characters of a text up to its closing quote, and what follows the quote. -/
def readQuoted? : Text → Option (Text × Text)
  | [] => none
  | '"' :: rest => some ([], rest)
  | '\\' :: 'u' :: a :: b :: c :: d :: '\\' :: 'u' :: e :: f :: g :: h :: rest =>
    match Text.hexUnit? a b c d with
    | none => none
    | some unit =>
      if Text.isHighSurrogate unit then
        match Text.hexUnit? e f g h with
        | none => none
        | some low =>
          if Text.isLowSurrogate low then
            (readQuoted? rest).map fun (chars, after) =>
              (Char.ofNat (Text.joinSurrogates unit low) :: chars, after)
          else none
      else if Text.isLowSurrogate unit then none
      else (readQuoted? ('\\' :: 'u' :: e :: f :: g :: h :: rest)).map fun (chars, after) =>
        (Char.ofNat unit :: chars, after)
  | '\\' :: 'u' :: a :: b :: c :: d :: rest =>
    match Text.hexUnit? a b c d with
    | none => none
    | some unit =>
      if Text.isSurrogate unit then none
      else (readQuoted? rest).map fun (chars, after) => (Char.ofNat unit :: chars, after)
  | '\\' :: c :: rest =>
    match shortEscape? c with
    | none => none
    | some meant => (readQuoted? rest).map fun (chars, after) => (meant :: chars, after)
  | c :: rest =>
    if c.toNat < 32 || c = '\\' then none
    else (readQuoted? rest).map fun (chars, after) => (c :: chars, after)

/-- The largest number of 64 bits. -/
def largestWord : Nat := UInt64.size - 1

/-- A number that grows digit by digit while it fits 64 bits. It is saturated once a digit was left
out. -/
structure Accumulated where
  digits : Nat
  exponent : Int
  saturated : Bool
  deriving DecidableEq, Repr

/-- Count the digits before the point; what no longer fits raises the exponent. -/
def Accumulated.whole (start : Accumulated) : Text → Accumulated
  | [] => start
  | c :: rest =>
    let grown := start.digits * 10 + (c.toNat - 48)
    if start.saturated || grown > largestWord then
      whole { start with exponent := start.exponent + 1, saturated := true } rest
    else whole { start with digits := grown } rest

/-- Count the digits after the point; what no longer fits is dropped. -/
def Accumulated.fractional (start : Accumulated) : Text → Accumulated
  | [] => start
  | c :: rest =>
    let grown := start.digits * 10 + (c.toNat - 48)
    if start.saturated || grown > largestWord then fractional { start with saturated := true } rest
    else fractional { start with digits := grown, exponent := start.exponent - 1 } rest

/-- The digits of an exponent, kept small enough that a larger one cannot make a difference. -/
def exponentValue (digits : Text) : Int :=
  digits.foldl (fun acc c => min (acc * 10 + (c.toNat - 48 : Nat)) 1000000000) 0

/-- The digits at the front of a text, if there is one at least, and the rest. -/
def readDigits? (text : Text) : Option (Text × Text) :=
  match text.takeWhile Char.isDigit with
  | [] => none
  | digits => some (digits, text.dropWhile Char.isDigit)

/-- The digits before the point: a zero stands alone. -/
def readWhole? (text : Text) : Option (Text × Text) :=
  match readDigits? text with
  | some ('0' :: _ :: _, _) => none
  | other => other

/-- The fraction at the front of a text, empty if there is no point. -/
def readFraction? : Text → Option (Text × Text)
  | '.' :: rest => readDigits? rest
  | text => some ([], text)

/-- The digits of an exponent at the front of a text, read under the given sign. -/
def readPower? (negative : Bool) (text : Text) : Option (Option Int × Text) :=
  (readDigits? text).map fun (digits, after) =>
    (some (if negative then -exponentValue digits else exponentValue digits), after)

/-- The exponent at the front of a text, if there is one. -/
def readExponent? : Text → Option (Option Int × Text)
  | c :: rest =>
    if c = 'e' || c = 'E' then
      match rest with
      | '-' :: more => readPower? true more
      | '+' :: more => readPower? false more
      | more => readPower? false more
    else some (none, c :: rest)
  | [] => some (none, [])

/-- A double of the given sign. -/
def doubleOf (negative : Bool) (magnitude : Float) : Number :=
  .double (if negative then -magnitude else magnitude).toBits

/-- The number with the given parts. -/
def assembleNumber? (negative : Bool) (whole fraction : Text) (exponent : Option Int) :
    Option Number :=
  let counted := (Accumulated.mk 0 0 false).whole whole
  if fraction = [] && exponent = none then
    if counted.saturated then
      (Double.scaled? counted.digits counted.exponent).map (doubleOf negative)
    else if !negative then some (.integer counted.digits)
    else if counted.digits = 0 || counted.digits > UInt64.size / 2 then
      some (doubleOf true (Float.ofNat counted.digits))
    else some (.integer (-counted.digits))
  else
    let all := { counted with saturated := false }.fractional fraction
    (Double.scaled? all.digits (all.exponent + exponent.getD 0)).map (doubleOf negative)

/-- A number after its sign. -/
def readMagnitude? (negative : Bool) (text : Text) : Option (Number × Text) := do
  let (whole, text) ← readWhole? text
  let (fraction, text) ← readFraction? text
  let (exponent, text) ← readExponent? text
  let value ← assembleNumber? negative whole fraction exponent
  some (value, text)

/-- A number at the front of a text. -/
def readNumber? : Text → Option (Number × Text)
  | '-' :: rest => readMagnitude? true rest
  | text => readMagnitude? false text

/-- A value that is no container. -/
def readScalar? (text : Text) : Option (Json × Text) :=
  match text with
  | '"' :: rest =>
    (readQuoted? rest).map fun (chars, after) => (.string (String.ofList chars), after)
  | 'n' :: 'u' :: 'l' :: 'l' :: rest => some (.null, rest)
  | 't' :: 'r' :: 'u' :: 'e' :: rest => some (.bool true, rest)
  | 'f' :: 'a' :: 'l' :: 's' :: 'e' :: rest => some (.bool false, rest)
  | text => (readNumber? text).map fun (value, after) => (.number value, after)

/-- Items up to the closing bracket, each read by the given reader; one is due at the front. -/
def readItems? (read : Text → Option (Json × Text)) :
    (fuel : Nat) → Text → Option (List Json × Text)
  | 0, _ => none
  | fuel + 1, text =>
    match read (skipGap text) with
    | none => none
    | some (item, after) =>
      match skipGap after with
      | ']' :: rest => some ([item], rest)
      | ',' :: rest => (readItems? read fuel rest).map fun (items, more) => (item :: items, more)
      | _ => none

/-- Fields up to the closing brace, each value read by the given reader; one is due at the front. -/
def readFields? (read : Text → Option (Json × Text)) : (fuel : Nat) → Text → Option (Fields × Text)
  | 0, _ => none
  | fuel + 1, text =>
    match skipGap text with
    | '"' :: text =>
      match readQuoted? text with
      | none => none
      | some (key, text) =>
        match skipGap text with
        | ':' :: text =>
          match read (skipGap text) with
          | none => none
          | some (value, after) =>
            match skipGap after with
            | '}' :: rest => some ([(String.ofList key, value)], rest)
            | ',' :: rest =>
              (readFields? read fuel rest).map fun (fields, more) =>
                ((String.ofList key, value) :: fields, more)
            | _ => none
        | _ => none
    | _ => none

/-- A value at the front of a text, with at most the given number of containers inside it. -/
def readValue? : (depth : Nat) → Text → Option (Json × Text)
  | 0, text =>
    match text with
    | '[' :: _ => none
    | '{' :: _ => none
    | _ => readScalar? text
  | depth + 1, text =>
    match text with
    | '[' :: rest =>
      match skipGap rest with
      | ']' :: after => some (.array [], after)
      | _ => (readItems? (readValue? depth) text.length rest).map fun (items, after) =>
        (.array items, after)
    | '{' :: rest =>
      match skipGap rest with
      | '}' :: after => some (.object [], after)
      | _ => (readFields? (readValue? depth) text.length rest).map fun (fields, after) =>
        (ofFields fields, after)
    | _ => readScalar? text

/-- The value that a whole text writes. -/
def parse? (text : String) : Option Json :=
  match readValue? depthLimit (skipGap text.toList) with
  | some (value, rest) => if skipGap rest = [] then some value else none
  | none => none

end InlineComponents.Json
