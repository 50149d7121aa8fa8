import InlineComponents.Text.IdentifierCharacter
import InlineComponents.Text.Basic

/-!
# Tokens of module scripts

The tokens of the ECMAScript language in its module form. Names and keywords are one kind of
token; whether a word is reserved is asked where it stands. A slash is read as an operator, and a
closing brace as a bracket: where the grammar expects a regular expression or the next stretch of
a template, the text is read again from that character.
-/

namespace InlineComponents.Script

/-- A token of a script. A word may be written with an escape. Surrogates among the code points of a
quoted text can only come from escapes. A stretch of a template is the last one or not, and its
escapes are valid or not. -/
inductive Token where
  | word (name : String) (escaped : Bool)
  | privateName (name : String)
  | number
  | string (points : List Nat)
  | template (last valid : Bool)
  | punctuator (text : String)
  | finish
  | invalid
  deriving DecidableEq, Repr, Inhabited

/-- White space within a line: besides the blanks of the language also the next-line character and
the zero-width space. -/
def isSpace (c : Char) : Bool :=
  c = ' ' || c = '\t' || c = '\x0b' || c = '\x0c' || c = '\u0085' || c = '\u00a0' || c = '\u1680' ||
    (0x2000 ≤ c.toNat && c.toNat ≤ 0x200b) || c = '\u202f' || c = '\u205f' || c = '\u3000' ||
    c = '\ufeff'

/-- A character that ends a line. -/
def isLineEnd (c : Char) : Bool := c = '\n' || c = '\r' || c = '\u2028' || c = '\u2029'

/-- A character that starts a name. -/
def startsName (c : Char) : Bool := c = '$' || c = '_' || Text.isIdentifierStart c

/-- A character that continues a name. -/
def continuesName (c : Char) : Bool :=
  c = '$' || c = '_' || c = '\u200c' || c = '\u200d' || Text.isIdentifierContinue c

/-- The words that are never names in a module. The word `await` is a name where it is no
operator. -/
def reservedWords : List String :=
  ["break", "case", "catch", "class", "const", "continue", "debugger", "default", "delete",
   "do", "else", "enum", "export", "extends", "false", "finally", "for", "function", "if", "import",
   "in", "instanceof", "new", "null", "return", "super", "switch", "this", "throw", "true", "try",
   "typeof", "var", "void", "while", "with", "yield"]

/-- The words besides the reserved ones that no list of exports names without a source. -/
def unexportedWords : List String :=
  ["await", "implements", "interface", "let", "package", "private", "protected", "public", "static"]

/-- The operators and brackets, longer ones before their beginnings. -/
def punctuators : List String :=
  [">>>=", "...", "===", "!==", "**=", "<<=", ">>=", ">>>", "&&=", "||=", "??=", "=>", "<=", ">=",
   "==", "!=", "**", "++", "--", "<<", ">>", "&&", "||", "??", "?.", "+=", "-=", "*=", "/=", "%=",
   "&=", "|=", "^=", "\x7b", "\x7d", "(", ")", "[", "]", ";", ",", "~", "?", ":", ".", "<", ">",
   "+", "-", "*", "/", "%", "&", "|", "^", "!", "=", "@"]

/-- The operators that assign. -/
def assignmentOperators : List String :=
  ["=", "+=", "-=", "*=", "/=", "%=", "**=", "<<=", ">>=", ">>>=", "&=", "|=", "^=", "&&=", "||=",
   "??="]

/-- The binary operators with how tightly they bind. -/
def binaryOperators : List (String × Nat) :=
  [("??", 1), ("||", 2), ("&&", 3), ("|", 4), ("^", 5), ("&", 6),
   ("==", 7), ("!=", 7), ("===", 7), ("!==", 7), ("<", 8), (">", 8), ("<=", 8), (">=", 8),
   ("<<", 9), (">>", 9), (">>>", 9), ("+", 10), ("-", 10), ("*", 11), ("/", 11), ("%", 11),
   ("**", 12)]

/-- How tightly conjunctions bind; disjunctions and coalescing bind more loosely. -/
def conjunctionPrecedence : Nat := 3

/-- How tightly the comparisons bind, to which `in` and `instanceof` belong. -/
def relationalPrecedence : Nat := 8

/-- How tightly powers bind; they group from the right. -/
def powerPrecedence : Nat := 12

/-- Whether a token is the given word, however it is written. -/
def Token.isWord (name : String) : Token → Bool
  | .word text _ => text == name
  | _ => false

/-- Whether a token is a binary operator other than a logical one, or assigns. -/
def Token.operates : Token → Bool
  | .punctuator text =>
    assignmentOperators.contains text ||
      (binaryOperators.lookup text).any fun strength => conjunctionPrecedence < strength
  | .word text _ => text == "in" || text == "instanceof"
  | _ => false

/-- Where trivia is being skipped. -/
inductive Trivia where
  | space
  | lineComment
  | blockComment
  deriving DecidableEq, Repr

/-- The text from the next token on, and whether a line ended before it. A comment that is never
closed has no next token. -/
def skipTrivia : Trivia → (newline : Bool) → Text → Option (Bool × Text)
  | .blockComment, _, [] => none
  | _, newline, [] => some (newline, [])
  | .blockComment, newline, '*' :: '/' :: rest => skipTrivia .space newline rest
  | .blockComment, newline, c :: rest => skipTrivia .blockComment (newline || isLineEnd c) rest
  | .lineComment, newline, c :: rest =>
    if isLineEnd c then skipTrivia .space true rest else skipTrivia .lineComment newline rest
  | .space, newline, '/' :: '/' :: rest => skipTrivia .lineComment newline rest
  | .space, newline, '/' :: '*' :: rest => skipTrivia .blockComment newline rest
  | .space, newline, c :: rest =>
    if isLineEnd c then skipTrivia .space true rest
    else if isSpace c then skipTrivia .space newline rest
    else some (newline, c :: rest)

end InlineComponents.Script
