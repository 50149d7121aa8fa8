import InlineComponents.Script.ClassBody

/-!
# Declarations, imports and exports

Declarations give the names they declare, so that an export of one knows what it exports. An import
or export is accepted wherever a statement may stand. The keys of attributes are all different, and
names that are given as quoted texts hold no half of a surrogate pair.
-/

namespace InlineComponents.Script

open Script.Parser

/-- Declarators separated by commas. A resource has a name and no pattern. A missing value of a
constant, a resource or a pattern leaves the shape unclaimed: the head of a loop may claim it. -/
def declarators (run : Recogniser) (context : Context) (kind : DeclarationKind) (sofar : Shape) :
    Parser Shape := do
  let isPattern := (← isAt "[") || (← isAt "\x7b")
  require !(isPattern && kind == .resource)
  let target ← run .bindingTarget context
  let hasValue ← eat "="
  if hasValue then run.value .assignment context
  let together : Shape := {
    names := sofar.names ++ target.names
    isUnclaimed := sofar.isUnclaimed ||
      (!hasValue && (isPattern || kind == .constant || kind == .resource)) }
  if ← eat "," then run (.declarators kind together) context else return together

/-- A whole declaration of variables after its first word. -/
def variableDeclaration (run : Recogniser) (context : Context) (kind : DeclarationKind) :
    Parser Shape := do
  let declared ← run (.declarators kind .value) context
  settle declared
  semicolon
  return declared

/-- The key of an attribute by its code points, moved past. -/
def attributeKey : Parser (List Nat) := do
  match ← token with
  | .word name _ =>
    advance
    return name.toList.map Char.toNat
  | .string points =>
    advance
    return points
  | _ => failure

/-- A quoted text, moved past. -/
def quotedText : Parser Unit := do
  match ← token with
  | .string _ => advance
  | _ => failure

/-- The attributes of an import up to the closing brace, none of which has one of the keys. -/
def attributes (run : Recogniser) (context : Context) (keys : List (List Nat)) : Parser Shape := do
  if ← eat "\x7d" then return .value
  let key ← attributeKey
  require !(keys.contains key)
  expect ":"
  quotedText
  if ← isAt "\x7d" then pure () else expect ","
  run (.attributes (key :: keys)) context

/-- The source of an import or export with optional attributes, and the end of the statement. -/
def sourceClause (run : Recogniser) (context : Context) : Parser Unit := do
  quotedText
  let asserts := (← isAtWord "assert") && !(← onNewLine)
  let attributed := (← isAtWord "with") || asserts
  if attributed then
    keyword
    expect "\x7b"
    let _ ← run (.attributes []) context
  semicolon

/-- A name in the list of an import or export, moved past: its token and its text. -/
def listedName : Parser (Token × String) := do
  let current ← token
  match current with
  | .word text _ =>
    advance
    return (current, text)
  | .string points =>
    require !(points.any Text.isSurrogate)
    advance
    return (current, textOfPoints points)
  | _ => failure

/-- The specifiers of an import up to the closing brace. -/
def importSpecifiers (run : Recogniser) (context : Context) : Parser Shape := do
  if ← eat "\x7d" then return .value
  let (imported, _) ← listedName
  if ← eatWord "as" then
    let _ ← context.name
  else require (context.isName imported)
  if ← isAt "\x7d" then pure () else expect ","
  run .importSpecifiers context

/-- The namespace or the list of an import. In the list `await` is a name. -/
def importList (run : Recogniser) (context : Context) : Parser Unit := do
  if ← eat "*" then
    expectWord "as"
    let _ ← context.name
  else
    expect "\x7b"
    let _ ← run .importSpecifiers context.withoutAwait

/-- Whether the word at the cursor is a phase of an import, in front of the rest of its clause. -/
def isAtPhase (context : Context) : Parser Bool := do
  let after ← following
  if ← isAtWord "defer" then return after.token == .punctuator "*"
  if ← isAtWord "source" then
    return context.isName after.token &&
      (!after.token.isWord "from" || after.next.token.isWord "from")
  return false

/-- An import declaration. -/
def importDeclaration (run : Recogniser) (context : Context) : Parser Shape := do
  expectWord "import"
  match ← token with
  | .string _ => sourceClause run context
  | _ =>
    if ← isAtPhase context then keyword
    if context.isName (← token) then
      let _ ← context.name
      if ← eat "," then importList run context
    else importList run context
    expectWord "from"
    sourceClause run context
  return .value

/-- Whether a token in a list of exports may stand for a name of this module. -/
def Token.isExportable : Token → Bool
  | .word name _ => !reservedWords.contains name && !unexportedWords.contains name
  | _ => false

/-- The specifiers of an export up to the closing brace. The shape stays unclaimed when one of
them can only be exported from another module. -/
def exportSpecifiers (run : Recogniser) (context : Context) (sofar : Shape) : Parser Shape := do
  if ← eat "\x7d" then return sofar
  let (provided, text) ← listedName
  let exported ← do
    if ← eatWord "as" then pure (← listedName).2 else pure text
  if ← isAt "\x7d" then pure () else expect ","
  run (.exportSpecifiers {
    names := sofar.names ++ [exported]
    isUnclaimed := sofar.isUnclaimed || !provided.isExportable }) context

/-- The rest of an export of everything, after its star. -/
def exportAll (run : Recogniser) (context : Context) : Parser Shape := do
  let names ← do
    if ← eatWord "as" then pure [(← listedName).2] else pure []
  expectWord "from"
  sourceClause run context
  return { names }

/-- Whether the cursor is at a literal. -/
def isAtLiteral : Parser Bool := do
  match ← token with
  | .string _ => return true
  | .number => return true
  | .word text _ => return ["null", "true", "false"].contains text
  | _ => return false

/-- The rest of a list of exports, after its opening brace. A `from` that no literal follows has no
meaning. -/
def exportList (run : Recogniser) (context : Context) : Parser Shape := do
  let listed ← run (.exportSpecifiers .value) context
  let isForeign := (← eatWord "from") && (← isAtLiteral)
  if isForeign then sourceClause run context
  else
    settle listed
    semicolon
  return { names := listed.names }

/-- The rest of a default export. What follows a decorator is a class without more of them. -/
def exportDefault (run : Recogniser) (context : Context) (isDecorated : Bool) : Parser Shape := do
  let isClass := (← isAtWord "class") || ((← isAt "@") && !isDecorated)
  if isClass then
    let _ ← run .decorators context
    let _ ← run .classDefinition context
  else
    require !isDecorated
    if ← isAtWord "function" then
      let _ ← functionDefinition run context false false
    else if ← isAsyncFunction then
      keyword
      let _ ← functionDefinition run context true false
    else
      run.value .assignment context.withIn
      semicolon
  return { names := ["default"] }

/-- The declaration of an export. -/
def exportedDeclaration (run : Recogniser) (context : Context) : Parser Shape := do
  if ← eatWord "var" then variableDeclaration run context .var
  else if ← eatWord "let" then variableDeclaration run context .letBinding
  else if ← eatWord "const" then variableDeclaration run context .constant
  else if ← isAtWord "function" then functionDefinition run context false true
  else if ← isAsyncFunction then
    keyword
    functionDefinition run context true true
  else
    let _ ← run .decorators context
    run .classDefinition context

/-- An export declaration, in front of which decorators may stand. They belong to a class, or to
nothing in front of a list. The shape has the exported names. -/
def exportDeclaration (run : Recogniser) (context : Context) (isDecorated : Bool) :
    Parser Shape := do
  expectWord "export"
  if ← eat "*" then exportAll run context
  else if ← eat "\x7b" then exportList run context
  else if ← eatWord "default" then exportDefault run context isDecorated
  else
    let declared ← do
      if isDecorated then run .classDefinition context else exportedDeclaration run context
    return { names := declared.names }

end InlineComponents.Script
