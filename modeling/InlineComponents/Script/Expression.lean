import InlineComponents.Script.Literal

/-!
# Expressions

From the inside out: primary phrases, members and calls, unary operators, binary operators by
precedence, conditionals, and assignments with arrow functions and `yield`. An arrow function is
recognised when `=>` follows something that can be its parameters. An asynchronous one with
parentheses is tried first, since `await` is an operator in its parameters; if no arrow follows,
the same text is read as a call.
-/

namespace InlineComponents.Script

open Script.Parser

/-- A function whose word `async` stands on the same line as `function`. -/
def isAsyncFunction : Parser Bool := do
  if ← isAtWord "async" then
    let after ← following
    return !after.newline && after.token.isWord "function"
  else return false

/-- A phrase that starts with a word. -/
def primaryWord (run : Recogniser) (context : Context) (text : String) (escaped : Bool) :
    Parser Shape := do
  if !escaped && ["this", "null", "true", "false"].contains text then
    advance
    return .value
  if ← isAtWord "function" then
    let _ ← functionDefinition run context.withoutAwait false false
    return .value
  if ← isAsyncFunction then
    keyword
    let _ ← functionDefinition run context.withAwait true false
    return .value
  if ← isAtWord "class" then
    let _ ← run .classDefinition context
    return .value
  let _ ← context.name
  return .ofName text escaped

/-- A phrase without operators, members and calls. -/
def primary (run : Recogniser) (context : Context) : Parser Shape := do
  match ← token with
  | .word text escaped => primaryWord run context text escaped
  | .number => advance; return .value
  | .string _ => advance; return .value
  | .template _ _ => run (.templateRest false) context
  | .punctuator "(" => advance; run (.group 0 (asParameters true false)) context
  | .punctuator "[" => advance; run (.arrayItems (.ofPattern true true false)) context
  | .punctuator "\x7b" => advance; run (.objectItems (.ofPattern true true false)) context
  | .punctuator "/" => regularExpression; return .value
  | .punctuator "/=" => regularExpression; return .value
  | .punctuator "@" =>
    let _ ← run .decorators context
    let _ ← run .classDefinition context
    return .value
  | _ => failure

/-- The arguments of an import call after the opening parenthesis. -/
def importArguments (run : Recogniser) (context : Context) : Parser Unit := do
  run.value .assignment context.enclosed
  if ← eat "," then
    if !(← isAt ")") then
      run.value .assignment context.enclosed
      let _ ← eat ","
  expect ")"

/-- Whether the cursor is at a member or at a template that is tagged. -/
def isAtMember : Parser Bool := do
  match ← token with
  | .punctuator text => return text == "." || text == "["
  | .template _ _ => return true
  | _ => return false

/-- A phrase that starts with `import`: a call or a property of the module. What `new` constructs
is no such call, but may be a member of its result. -/
def importExpression (run : Recogniser) (context : Context) (callable : Bool) : Parser Shape := do
  expectWord "import"
  if ← eat "." then
    if ← eatWord "meta" then return .value
    let phase := (← isAtWord "source") || (← isAtWord "defer")
    require phase
    keyword
  expect "("
  importArguments run context
  let used ← isAtMember
  require (callable || used)
  return .value

/-- A phrase that starts with `super`, which stands only in front of a member or a call. -/
def superExpression : Parser Shape := do
  expectWord "super"
  let used := (← isAt ".") || (← isAt "[") || (← isAt "(")
  require used
  return .value

/-- The base of a chain of members and calls. -/
def chainBase (run : Recogniser) (context : Context) (callable : Bool) : Parser Shape := do
  if ← isAtWord "import" then importExpression run context callable
  else if ← isAtWord "super" then superExpression
  else primary run context

/-- A construction by `new`. -/
def construction (run : Recogniser) (context : Context) : Parser Shape := do
  expectWord "new"
  if ← eat "." then
    expectWord "target"
    return .value
  let callee ← do
    if ← isAtWord "new" then run .construction context else chainBase run context false
  let object ← run (.memberRest false false callee) context
  require !(← isAt "?.")
  settle object
  if ← eat "(" then
    let _ ← run .arguments context
  return .value

/-- An operand with its members and calls. -/
def leftHandSide (run : Recogniser) (context : Context) : Parser Shape := do
  let base ← do
    if ← isAtWord "new" then run .construction context else chainBase run context true
  run (.memberRest true false base) context

/-- The name of a member, moved past. -/
def memberName : Parser Unit := do
  match ← token with
  | .word _ _ => advance
  | .privateName _ => advance
  | _ => failure

/-- A member given by an expression, after the opening bracket. -/
def memberIndex (run : Recogniser) (context : Context) : Parser Unit := do
  run.value .expression context.withIn
  expect "]"

/-- The shape of a member in a chain. -/
def memberShape (chained : Bool) : Shape := if chained then .value else .member

/-- The link of an optional chain after `?.`. -/
def optionalLink (run : Recogniser) (context : Context) : Parser Unit := do
  if ← eat "(" then
    let _ ← run .arguments context
  else if ← isAt "[" then
    require !context.inDecorator
    advance
    memberIndex run context
  else memberName

/-- More members and calls of an object. -/
def memberRest (run : Recogniser) (context : Context) (callable chained : Bool) (object : Shape) :
    Parser Shape := do
  match ← token with
  | .punctuator "." =>
    settle object
    advance
    memberName
    run (.memberRest callable chained (memberShape chained)) context
  | .punctuator "?." =>
    if callable then
      settle object
      advance
      optionalLink run context
      run (.memberRest callable true .value) context
    else return object
  | .punctuator "[" =>
    if context.inDecorator then return object
    else
      settle object
      advance
      memberIndex run context
      run (.memberRest callable chained (memberShape chained)) context
  | .punctuator "(" =>
    if callable then
      settle object
      advance
      let _ ← run .arguments context
      run (.memberRest callable chained .value) context
    else return object
  | .template _ _ =>
    settle object
    require !chained
    let _ ← run (.templateRest true) context
    run (.memberRest callable chained .value) context
  | _ => return object

/-- Whether the current token is an operator in front of an operand. -/
def isAtUnaryOperator (context : Context) : Parser Bool := do
  match ← token with
  | .punctuator text => return ["+", "-", "~", "!"].contains text
  | .word text false =>
    return ["delete", "typeof", "void"].contains text || (text == "await" && context.inAsync)
  | _ => return false

/-- Whether the current token raises or lowers by one. -/
def isAtUpdate : Parser Bool := do
  let found := (← isAt "++") || (← isAt "--")
  return found

/-- An operand with its unary operators. An operand under one is no base of a power. -/
def unary (run : Recogniser) (context : Context) : Parser Shape := do
  if ← isAtUnaryOperator context then
    advance
    run.value .unary context
    require !(← isAt "**")
    return .value
  if ← isAtUpdate then
    advance
    let operand ← run .unary context
    require operand.isSimple
    return .value
  let operand ← run .leftHandSide context
  let updated := (← isAtUpdate) && !(← onNewLine)
  if updated then
    require operand.isSimple
    advance
    return .value
  return operand

/-- The precedence of the binary operator at the cursor, if there is one, and its text. -/
def binaryOperator? (context : Context) : Parser (Option (String × Nat)) := do
  match ← token with
  | .punctuator text => return (binaryOperators.lookup text).map (text, ·)
  | .word "instanceof" false => return some ("instanceof", relationalPrecedence)
  | .word "in" false => return if context.allowIn then some ("in", relationalPrecedence) else none
  | _ => return none

/-- More operators and operands after an operand. Neither side of a coalescing operator is a
conjunction or disjunction, unless a parenthesis starts it. -/
def binaryRest (run : Recogniser) (context : Context) (precedence : Nat) (grouped : Bool)
    (left : Shape) : Parser Shape := do
  match ← binaryOperator? context with
  | some (operator, strength) =>
    if strength ≤ precedence then return left
    settle left
    advance
    let below := if strength = powerPrecedence then strength - 1 else strength
    let right ← run (.binary below) context
    settle right
    require (operator != "??" || !(left.isLogical || right.isLogical))
    let isLogical := !grouped && (operator == "&&" || operator == "||")
    run (.binaryRest precedence grouped { isLogical }) context
  | none => return left

/-- Whether the current token is a private name. -/
def isAtPrivateName : Parser Bool := do
  match ← token with
  | .privateName _ => return true
  | _ => return false

/-- Operands joined by operators that bind more tightly than the given precedence. A private name
is an operand only to the left of `in`, and then the two form one operand with what follows. -/
def binary (run : Recogniser) (context : Context) (precedence : Nat) : Parser Shape := do
  if ← isAtPrivateName then
    require context.allowIn
    advance
    expectWord "in"
    require !(← isAtPrivateName)
    run.value (.binary relationalPrecedence) context
    run (.binaryRest precedence false .value) context
  else
    let grouped ← isAt "("
    let left ← run .unary context
    run (.binaryRest precedence grouped left) context

/-- A condition with its two outcomes, or just the condition. -/
def conditional (run : Recogniser) (context : Context) : Parser Shape := do
  let condition ← run (.binary 0) context
  if ← eat "?" then
    settle condition
    run.value .assignment context.withIn
    expect ":"
    run.value .assignment context
    return .value
  return condition

/-- The body of an arrow function, after the arrow. -/
def arrowBody (run : Recogniser) (context : Context) (isAsync : Bool) : Parser Shape := do
  let inner := context.ofArrow isAsync
  if ← isAt "\x7b" then functionBody run inner
  else run.value .assignment inner
  return .value

/-- Whether a token cannot start an operand, so that `yield` stands alone. -/
def endsYield (token : Token) : Bool :=
  match token with
  | .punctuator text => [")", "]", "\x7d", ",", ";", ":"].contains text
  | .word "in" _ => true
  | .finish => true
  | _ => false

/-- A `yield` with its operand. -/
def yieldExpression (run : Recogniser) (context : Context) : Parser Shape := do
  expectWord "yield"
  let alone := (← onNewLine) || endsYield (← token)
  if alone then return .value
  let _ ← eat "*"
  run.value .assignment context
  return .value

/-- What the word `async` and the tokens after it say about an asynchronous arrow function: there is
none, one name is its parameter, the parentheses may also hold the arguments of a call, or they hold
parameters and nothing else. -/
inductive AsyncHead where
  | absent
  | name
  | possible
  | certain
  deriving DecidableEq, Repr

/-- What parentheses after `async` hold, given their first two tokens. Empty parentheses are taken
for parameters also in front of a brace. -/
def AsyncHead.ofParentheses (first second : Token) : AsyncHead :=
  match first with
  | .punctuator ")" =>
    if second == .punctuator "=>" || second == .punctuator "\x7b" then .certain else .absent
  | .punctuator "..." => .certain
  | .punctuator "[" => .possible
  | .punctuator "\x7b" => .possible
  | .word _ _ =>
    match second with
    | .punctuator text => if [",", "=", ")"].contains text then .possible else .absent
    | _ => .absent
  | _ => .absent

/-- What the tokens at the cursor say about an asynchronous arrow function. -/
def asyncHead (context : Context) : Parser AsyncHead := do
  if !(← isAtWord "async") then return .absent
  let after ← following
  if after.newline then return .absent
  let inner := after.next
  if context.withAwait.isName after.token then
    return if inner.token == .punctuator "=>" && !inner.newline then .name else .absent
  if after.token == .punctuator "(" then return .ofParentheses inner.token inner.next.token
  return .absent

/-- An arrow on the line of the parameters before it. -/
def arrow : Parser Unit := do
  require !(← onNewLine)
  expect "=>"

/-- The head of an asynchronous arrow function with parentheses, with its arrow. -/
def asyncParameters (run : Recogniser) (context : Context) : Parser Unit := do
  expectWord "async"
  expect "("
  let _ ← run (.parameters false) context.withAwait
  arrow

/-- What may follow a condition: an arrow, an assignment operator, or nothing. -/
def afterCondition (run : Recogniser) (context : Context) (left : Shape) : Parser Shape := do
  let isArrow := (← isAt "=>") && !(← onNewLine)
  if isArrow then
    require (left.isBareName || left.isArrowHead)
    advance
    return ← arrowBody run context false
  match ← token with
  | .punctuator text =>
    if assignmentOperators.contains text then
      require left.isTarget
      advance
      run.value .assignment context
      let isDefault := text == "="
      return { isElement := isDefault, isParameter := isDefault && left.isBinding }
    return left
  | _ => return left

/-- One expression without commas at its top. -/
def assignment (run : Recogniser) (context : Context) : Parser Shape := do
  let yielding := (← isAtWord "yield") && context.inGenerator
  if yielding then return ← yieldExpression run context
  let isAsync ← do
    match ← asyncHead context with
    | .absent => pure false
    | .name =>
      keyword
      let _ ← context.withAwait.name
      arrow
      pure true
    | .possible => attempt (asyncParameters run context)
    | .certain =>
      asyncParameters run context
      pure true
  if isAsync then arrowBody run context true
  else afterCondition run context (← conditional run context)

/-- More expressions after a comma. -/
def sequenceRest (run : Recogniser) (context : Context) : Parser Shape := do
  run.value .assignment context
  if ← eat "," then run .sequenceRest context else return .value

/-- Expressions separated by commas. -/
def expression (run : Recogniser) (outer : Context) : Parser Shape := do
  let context := outer.outsideDecorator
  let first ← run .assignment context
  if ← eat "," then
    settle first
    run .sequenceRest context
  else return first

end InlineComponents.Script
