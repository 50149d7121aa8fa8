import InlineComponents.Script.Lexer

/-!
# Reading a script token by token

A cursor stands at a token and knows the text from that token on, so that it can be read again as
a regular expression or as a stretch of a template. Parsers are partial functions on cursors.

A word of the language may be recognised with an escape in it, but then it cannot be moved past:
only names are written with escapes.
-/

namespace InlineComponents.Script

/-- A place in a script: the token there, whether a line ended before it, and the text from the
token on and after it. -/
structure Cursor where
  token : Token
  newline : Bool
  here : Text
  rest : Text
  deriving Repr

/-- The cursor at the first token of a text. -/
def Cursor.start (text : Text) : Cursor :=
  match skipTrivia .space false text with
  | none => ⟨.invalid, false, [], []⟩
  | some (newline, here) =>
    let (token, rest) := readToken here
    ⟨token, newline, here, rest⟩

/-- The cursor at the next token. -/
def Cursor.next (cursor : Cursor) : Cursor := .start cursor.rest

/-- A parser moves a cursor or fails. -/
abbrev Parser (α : Type) := StateT Cursor Option α

namespace Parser

/-- The token at the cursor. -/
def token : Parser Token := do return (← get).token

/-- Move to the next token. -/
def advance : Parser Unit := modify Cursor.next

/-- The cursor after the current token, without moving. -/
def following : Parser Cursor := do return (← get).next

/-- Fail unless the condition holds. -/
def require (condition : Bool) : Parser Unit := if condition then pure () else failure

/-- Move past what the parser reads, or stay where it fails; whether it succeeded. -/
def attempt (parser : Parser Unit) : Parser Bool := fun cursor =>
  match parser.run cursor with
  | some (_, after) => some (true, after)
  | none => some (false, cursor)

/-- Whether a line ended before the current token. -/
def onNewLine : Parser Bool := do return (← get).newline

/-- Whether the current token is this operator or bracket. -/
def isAt (text : String) : Parser Bool := do return (← token) == .punctuator text

/-- Whether the current token is this word. -/
def isAtWord (name : String) : Parser Bool := do return (← token).isWord name

/-- Move past a word of the language, which has no escapes. -/
def keyword : Parser Unit := do
  match ← token with
  | .word _ false => advance
  | _ => failure

/-- Move past an operator or bracket, if it is there. -/
def eat (text : String) : Parser Bool := do
  let found ← isAt text
  if found then advance
  return found

/-- Move past a word of the language, if it is there. -/
def eatWord (name : String) : Parser Bool := do
  let found ← isAtWord name
  if found then keyword
  return found

/-- Move past an operator or bracket that has to be there. -/
def expect (text : String) : Parser Unit := do require (← eat text)

/-- Move past a word of the language that has to be there. -/
def expectWord (name : String) : Parser Unit := do require (← eatWord name)

/-- The end of a statement: a semicolon, or a place where one is filled in. -/
def semicolon : Parser Unit := do
  if ← eat ";" then return
  let done := (← token) == .finish || (← isAt "\x7d") || (← onNewLine)
  require done

/-- Read the current token again as a regular expression and move past it. -/
def regularExpression : Parser Unit := do
  let cursor ← get
  match readRegex? cursor.here with
  | some rest => set (Cursor.start rest)
  | none => failure

/-- Read the closing brace of a substitution again as the next stretch of its template. -/
def resumeTemplate : Parser Unit := do
  let cursor ← get
  require (cursor.token == .punctuator "\x7d")
  let (token, rest) := readTemplate (cursor.here.drop 1)
  set { cursor with token, rest }

end Parser

/-- Whether a token can be, or start, the name of a property. -/
def Token.startsProperty : Token → Bool
  | .word _ _ => true
  | .string _ => true
  | .number => true
  | .privateName _ => true
  | .punctuator text => text == "["
  | _ => false

end InlineComponents.Script
