import InlineComponents.Script.Expression

/-!
# Classes

The elements of a class body are methods, accessors, fields and static blocks. Some words have a
meaning in front of an element only if a name follows them, and are the name otherwise; `async` may
also stand in front of a field. A few names are refused: a field named `constructor`, a special
method of that name, a static element named `prototype`, and the private name `#constructor`. No
class is named `implements`.
-/

namespace InlineComponents.Script

open Script.Parser

/-- The name of a class element, moved past: whether it is a private name, and its text if it is
written out. -/
def elementName (run : Recogniser) (context : Context) : Parser (Bool × Option String) := do
  match ← token with
  | .privateName text =>
    require (text != "constructor")
    advance
    return (true, some text)
  | _ =>
    let (_, text) ← propertyName run context
    return (false, text)

/-- A field after its name: an optional value and the end of the element. -/
def fieldRest (run : Recogniser) : Parser Unit := do
  if ← eat "=" then run.value .assignment .ofField
  semicolon

/-- Whether a method or field may have this name. -/
def isAllowedElement (isStatic isMethod isSpecial isPrivate : Bool) (name : Option String) : Bool :=
  isPrivate ||
    match name with
    | some "prototype" => !isStatic
    | some "constructor" => if isMethod then isStatic || !isSpecial else false
    | _ => true

/-- Whether an element with these words in front of its name is a method without a look at what
follows the name. -/
def MethodWords.needsMethod (words : MethodWords) : Bool :=
  words.isGenerator || words.kind ≠ .plain

/-- Whether an element is the constructor of its class. -/
def isConstructor (isStatic isMethod isPrivate : Bool) (name : Option String) : Bool :=
  isMethod && !isStatic && !isPrivate && name == some "constructor"

/-- An element after the word `static`, if it has one. A constructor has no decorators. -/
def classElement (run : Recogniser) (context : Context) (isDecorated isStatic : Bool) :
    Parser Unit := do
  let after ← following
  let accessor := (← isAtWord "accessor") && !after.newline && after.token.startsProperty
  if accessor then keyword
  let words ← if accessor then pure {} else methodWords
  let (isPrivate, text) ← elementName run context
  let isMethod := !accessor && (words.needsMethod || (← isAt "("))
  require (isAllowedElement isStatic isMethod words.isSpecial isPrivate text)
  require !(isDecorated && isConstructor isStatic isMethod isPrivate text)
  if isMethod then functionRest run words.isAsync words.isGenerator true words.kind
  else fieldRest run

/-- Whether a token after `static` makes it a word in front of an element. -/
def followsStatic (token : Token) : Bool :=
  token.startsProperty || token == .punctuator "*"

/-- The statements of a static block, from its opening brace on. -/
def staticBlock (run : Recogniser) (context : Context) : Parser Unit := do
  expect "\x7b"
  let _ ← run (.statements .block .value) context.ofStaticBlock
  expect "\x7d"

/-- One element of a class body. A static block has no decorators. -/
def classMember (run : Recogniser) (context : Context) : Parser Unit := do
  let isDecorated ← isAt "@"
  let _ ← run .decorators context
  let after ← following
  if ← isAtWord "static" then
    if after.token == .punctuator "\x7b" then
      require !isDecorated
      keyword
      staticBlock run context
    else if followsStatic after.token then
      keyword
      classElement run context isDecorated true
    else classElement run context isDecorated false
  else classElement run context isDecorated false

/-- The rest of a class body, with its closing brace. -/
def classMembers (run : Recogniser) (context : Context) : Parser Shape := do
  if ← eat "\x7d" then return .value
  if ← eat ";" then return ← run .classMembers context
  classMember run context
  run .classMembers context

/-- Whether a token is a name that a class may have. -/
def namesClass (context : Context) (token : Token) : Bool :=
  context.isName token &&
    match token with
    | .word name _ => name != "implements"
    | _ => false

/-- A class from its first word on; its name may be left out. -/
def classDefinition (run : Recogniser) (context : Context) : Parser Shape := do
  expectWord "class"
  let names ← do
    if namesClass context (← token) then pure [← context.name] else pure []
  if ← eatWord "extends" then run.value .leftHandSide context
  expect "\x7b"
  let _ ← run .classMembers context
  return declares names

/-- Decorators, as many as there are. -/
def decorators (run : Recogniser) (context : Context) : Parser Shape := do
  if ← eat "@" then
    run.value .leftHandSide { context with inDecorator := true }
    run .decorators context
  else return .value

end InlineComponents.Script
