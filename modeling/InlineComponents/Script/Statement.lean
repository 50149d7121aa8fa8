import InlineComponents.Script.Declaration

/-!
# Statements

A statement is recognised by its first word or bracket; anything else is a label or an expression.
The words `let`, `using` and `async` start a declaration only if what follows says so. A nested
statement, such as the body of a loop, is no declaration of a block.

Where the head of a `for` keeps `in` for itself, the statements of an arrow function within it keep
it so as well, up to the next bracket.
-/

namespace InlineComponents.Script

open Script.Parser

/-- An expression in parentheses. -/
def headExpression (run : Recogniser) (context : Context) : Parser Unit := do
  expect "("
  run.value .expression context
  expect ")"

/-- Statements between braces. -/
def block (run : Recogniser) (context : Context) : Parser Unit := do
  expect "\x7b"
  let _ ← run (.statements .block .value) context
  expect "\x7d"

/-- The statement that another one contains. -/
def nestedStatement (run : Recogniser) (context : Context) : Parser Unit := do
  let _ ← run (.statement .nested) context

/-- An expression as a statement. -/
def expressionStatement (run : Recogniser) (context : Context) : Parser Unit := do
  run.value .expression context
  semicolon

/-- The statement after `if`. -/
def conditionalStatement (run : Recogniser) (context : Context) : Parser Unit := do
  headExpression run context
  nestedStatement run context
  if ← eatWord "else" then nestedStatement run context

/-- The rest of a loop over values, from `of` or `in` on. -/
def valuesRest (run : Recogniser) (context : Context) : Parser Unit := do
  if ← eatWord "of" then run.value .assignment context
  else
    expectWord "in"
    run.value .expression context
  expect ")"
  nestedStatement run context

/-- The rest of a counting loop, after its first part. -/
def countingRest (run : Recogniser) (context : Context) : Parser Unit := do
  expect ";"
  if !(← isAt ";") then run.value .expression context.withIn
  expect ";"
  if !(← isAt ")") then run.value .expression context.withIn
  expect ")"
  nestedStatement run context

/-- Whether the cursor is at `of` or `in`. -/
def isAtValues : Parser Bool := do
  let found := (← isAtWord "of") || (← isAtWord "in")
  return found

/-- Whether `let` at the head of a loop declares something, given the token after it. -/
def declaresAfterLet (token : Token) : Bool :=
  match token with
  | .word text _ => text != "in"
  | .punctuator text => text == "[" || text == "\x7b"
  | _ => false

/-- Whether `using` with a name after it on the same line is at the cursor. -/
def isAtUsing (context : Context) : Parser Bool := do
  if ← isAtWord "using" then
    let after ← following
    return !after.newline && context.isName after.token
  else return false

/-- Whether `await using` with a name after it on the same line is at the cursor. -/
def isAtAwaitUsing (context : Context) : Parser Bool := do
  if ← isAtWord "await" then
    let after ← following
    return !after.newline && after.token.isWord "using" && !after.next.newline &&
      context.isName after.next.token
  else return false

/-- Whether `using` declares something at the head of a loop. The name `of` is one there only if
what follows it belongs to a declaration. -/
def isAtLoopUsing (context : Context) : Parser Bool := do
  if ← isAtUsing context then
    let after ← following
    let continues := match after.next.token with
      | .punctuator text => ["=", ";", ":"].contains text
      | _ => false
    return !after.token.isWord "of" || continues
  else return false

/-- The kind of the declaration at the head of a loop, moved past its words. -/
def loopDeclaration? (context : Context) : Parser (Option DeclarationKind) := do
  if ← eatWord "var" then return some .var
  if ← eatWord "const" then return some .constant
  let after ← following
  let isLet := (← isAtWord "let") && declaresAfterLet after.token
  if isLet then
    keyword
    return some .letBinding
  if ← isAtAwaitUsing context then
    keyword
    keyword
    return some .resource
  if ← isAtLoopUsing context then
    keyword
    return some .resource
  return none

/-- A loop whose head starts with a declaration, from the first declarator on. -/
def declaringLoop (run : Recogniser) (context : Context) (isAwait : Bool)
    (kind : DeclarationKind) : Parser Unit := do
  let declared ← run (.declarators kind .value) context.withoutIn
  if ← isAtValues then
    require ((← isAtWord "of") || !(isAwait || kind == .resource))
    valuesRest run context
  else
    require !isAwait
    if kind != .resource then settle declared
    countingRest run context

/-- A loop whose head starts with an expression. Over values it assigns to what the expression
stands for; `async` alone or an expression that starts with `let` cannot be in front of `of`. -/
def assigningLoop (run : Recogniser) (context : Context) (isAwait : Bool) : Parser Unit := do
  let startsWithLet ← isAtWord "let"
  let head ← run .expression context.withoutIn
  if ← isAtWord "of" then
    require (head.isTarget && !startsWithLet && (isAwait || !head.isAsyncName))
    valuesRest run context
  else if ← isAtWord "in" then
    require (head.isTarget && !isAwait)
    valuesRest run context
  else
    require !isAwait
    settle head
    countingRest run context

/-- A loop after `for`. -/
def loop (run : Recogniser) (context : Context) : Parser Unit := do
  let isAwait := (← isAtWord "await") && context.inAsync
  if isAwait then keyword
  expect "("
  if ← isAt ";" then
    require !isAwait
    countingRest run context
  else match ← loopDeclaration? context with
    | some kind => declaringLoop run context isAwait kind
    | none => assigningLoop run context isAwait

/-- A loop after `do`; no semicolon is needed after its condition. -/
def doLoop (run : Recogniser) (context : Context) : Parser Unit := do
  nestedStatement run context
  expectWord "while"
  headExpression run context
  let _ ← eat ";"

/-- A jump after its first word, with an optional label. -/
def jump (context : Context) : Parser Unit := do
  let labelled := context.isName (← token) && !(← onNewLine)
  if labelled then advance
  semicolon

/-- The rest of a `return`. -/
def returnRest (run : Recogniser) (context : Context) : Parser Unit := do
  let bare := (← onNewLine) || (← isAt ";") || (← isAt "\x7d") || (← token) == .finish
  if !bare then run.value .expression context.withIn
  semicolon

/-- The clauses of a `switch` up to its closing brace. -/
def clauses (run : Recogniser) (context : Context) : Parser Shape := do
  if ← eat "\x7d" then return .value
  if ← eatWord "case" then run.value .expression context
  else expectWord "default"
  expect ":"
  let _ ← run (.statements .clause .value) context
  run .clauses context

/-- The rest of a `try`: a handler, a finalizer, or both. -/
def tryRest (run : Recogniser) (context : Context) : Parser Unit := do
  block run context
  let handled ← eatWord "catch"
  if handled then
    if ← eat "(" then
      let _ ← run .bindingTarget context
      expect ")"
    block run context
  let finalized ← eatWord "finally"
  if finalized then block run context
  require (handled || finalized)

/-- Whether a token after a name goes on with a member or call. -/
def continuesChain (token : Token) : Bool :=
  match token with
  | .punctuator text => [".", "?.", "("].contains text
  | _ => false

/-- A statement that starts with `let`, which may also be a name: in front of an operator, where the
whole statement is one expression without commas, in front of a member or call, and in front of a
semicolon. A nested statement may not be a declaration, so there the name stands alone unless a
bracket follows. -/
def letStatement (run : Recogniser) (context : Context) (place : Place) : Parser Unit := do
  let after ← following
  if after.token.operates then
    run.value .assignment context
    semicolon
  else if continuesChain after.token then expressionStatement run context
  else
    let isAlone := place == .nested && after.token != .punctuator "["
    if isAlone || after.token == .punctuator ";" then
      advance
      semicolon
    else
      require (place != .nested)
      keyword
      let _ ← variableDeclaration run context .letBinding

/-- A function declaration; a nested one is no generator. -/
def functionStatement (run : Recogniser) (context : Context) (place : Place) : Parser Unit := do
  let after ← following
  require (place != .nested || after.token != .punctuator "*")
  let _ ← functionDefinition run context false true

/-- A statement that starts with a word of the language, if this one does. -/
def wordStatement? (run : Recogniser) (context : Context) (place : Place) (text : String) :
    Parser Bool := do
  match text with
  | "var" => keyword; let _ ← variableDeclaration run context .var; return true
  | "let" => letStatement run context place; return true
  | "const" =>
    require (place != .nested)
    keyword
    let _ ← variableDeclaration run context .constant
    return true
  | "if" => keyword; conditionalStatement run context; return true
  | "for" => keyword; loop run context; return true
  | "while" => keyword; headExpression run context; nestedStatement run context; return true
  | "do" => keyword; doLoop run context; return true
  | "continue" => keyword; jump context; return true
  | "break" => keyword; jump context; return true
  | "return" => require context.inFunction; keyword; returnRest run context; return true
  | "with" => keyword; headExpression run context; nestedStatement run context; return true
  | "switch" =>
    keyword
    headExpression run context
    expect "\x7b"
    let _ ← run .clauses context
    return true
  | "throw" => keyword; require !(← onNewLine); expressionStatement run context; return true
  | "try" => keyword; tryRest run context; return true
  | "debugger" => keyword; semicolon; return true
  | "function" => functionStatement run context place; return true
  | "class" =>
    require (place != .nested)
    let _ ← run .classDefinition context
    return true
  | _ => return false

/-- A declaration of resources after its words, which stands in a block. -/
def resourceStatement (run : Recogniser) (context : Context) (place : Place) : Parser Unit := do
  require (place == .block)
  let _ ← variableDeclaration run context .resource

/-- A declaration that starts with a word which may also be a name, if this one does. -/
def softStatement? (run : Recogniser) (context : Context) (place : Place) : Parser Bool := do
  let after ← following
  let imports := (← isAtWord "import") && after.token != .punctuator "(" &&
    after.token != .punctuator "."
  if imports then
    let _ ← importDeclaration run context
    return true
  if ← isAsyncFunction then
    require (place != .nested)
    keyword
    let _ ← functionDefinition run context true true
    return true
  if ← isAtAwaitUsing context then
    keyword
    keyword
    resourceStatement run context place
    return true
  if ← isAtUsing context then
    keyword
    resourceStatement run context place
    return true
  if context.isName (← token) && after.token == .punctuator ":" then
    advance
    advance
    nestedStatement run context
    return true
  return false

/-- Decorators and what they decorate: a class or an export. -/
def decoratedStatement (run : Recogniser) (context : Context) (place : Place) : Parser Shape := do
  require (place != .nested)
  let _ ← run .decorators context
  if ← isAtWord "export" then exportDeclaration run context true
  else
    let _ ← run .classDefinition context
    return .value

/-- A statement. Its shape has the names that it exports. -/
def statement (run : Recogniser) (context : Context) (place : Place) : Parser Shape := do
  match ← token with
  | .punctuator "\x7b" => block run context; return .value
  | .punctuator ";" => advance; return .value
  | .punctuator "@" => decoratedStatement run context place
  | .word "export" _ => exportDeclaration run context false
  | .word text _ =>
    if ← wordStatement? run context place text then return .value
    if ← softStatement? run context place then return .value
    expressionStatement run context
    return .value
  | _ => expressionStatement run context; return .value

/-- Whether a token ends the statements of a block or clause. -/
def endsStatements (token : Token) : Bool :=
  token == .finish || token == .punctuator "\x7d" || token == .word "case" false ||
    token == .word "default" false

/-- Statements up to the end of their block. The shape has the names that they export. -/
def statements (run : Recogniser) (context : Context) (place : Place) (sofar : Shape) :
    Parser Shape := do
  if endsStatements (← token) then return sofar
  let next ← run (.statement place) context
  run (.statements place { names := sofar.names ++ next.names }) context

end InlineComponents.Script
