import InlineComponents.Script.Grammar

/-!
# Bindings and parameters

A binding is a name or a pattern of names in brackets or braces. A pattern may give defaults, and
its last part may take the rest; nothing follows the rest, not even a comma.
-/

namespace InlineComponents.Script

open Script.Parser

/-- The shape of something that declares names. -/
def declares (names : List String) : Shape := { names }

/-- A name or pattern that binds names. -/
def bindingTarget (run : Recogniser) (context : Context) : Parser Shape := do
  if ← eat "[" then run (.bindingArray []) context
  else if ← eat "\x7b" then run (.bindingObject []) context
  else return declares [← context.name]

/-- A name or pattern with an optional default. -/
def bindingElement (run : Recogniser) (context : Context) : Parser Shape := do
  let target ← run .bindingTarget context
  if ← eat "=" then run.value .assignment context.withIn
  return target

/-- The rest of an array pattern. -/
def bindingArray (run : Recogniser) (context : Context) (names : List String) : Parser Shape := do
  if ← eat "]" then return declares names
  if ← eat "," then return ← run (.bindingArray names) context
  if ← eat "..." then
    let rest ← run .bindingTarget context
    expect "]"
    return declares (names ++ rest.names)
  let element ← run .bindingElement context
  if ← isAt "]" then pure () else expect ","
  run (.bindingArray (names ++ element.names)) context

/-- The text of code points that are all characters. -/
def textOfPoints (points : List Nat) : String := String.ofList (points.map Char.ofNat)

/-- The name of a property, moved past: whether it could be a name on its own, and its text if it
is written out. -/
def propertyName (run : Recogniser) (context : Context) : Parser (Bool × Option String) := do
  let current ← token
  match current with
  | .word name _ => advance; return (context.isName current, some name)
  | .string points => advance; return (false, some (textOfPoints points))
  | .number => advance; return (false, none)
  | .punctuator "[" =>
    advance
    run.value .assignment context.withIn
    expect "]"
    return (false, none)
  | _ => failure

/-- One property of an object pattern. -/
def bindingProperty (run : Recogniser) (context : Context) : Parser Shape := do
  let (isName, text) ← propertyName run context
  if ← eat ":" then run .bindingElement context
  else
    require isName
    if ← eat "=" then run.value .assignment context.withIn
    return declares text.toList

/-- The rest of an object pattern. -/
def bindingObject (run : Recogniser) (context : Context) (names : List String) : Parser Shape := do
  if ← eat "\x7d" then return declares names
  if ← eat "..." then
    let rest ← context.name
    expect "\x7d"
    return declares (names ++ [rest])
  let property ← bindingProperty run context
  if ← isAt "\x7d" then pure () else expect ","
  run (.bindingObject (names ++ property.names)) context

/-- One parameter, with its decorators where it may have some. -/
def parameter (run : Recogniser) (context : Context) (decorable : Bool) : Parser Unit := do
  if decorable then
    let _ ← run .decorators context
  let _ ← run .bindingElement context

/-- The rest of a parameter list, with its closing parenthesis. -/
def parameters (run : Recogniser) (context : Context) (decorable : Bool) : Parser Shape := do
  if ← eat ")" then return .value
  if ← eat "..." then
    let _ ← run .bindingTarget context
    expect ")"
    return .value
  parameter run context decorable
  if ← isAt ")" then pure () else expect ","
  run (.parameters decorable) context

/-- The parameters of a method of the given kind. -/
def methodParameters (run : Recogniser) (context : Context) (decorable : Bool) :
    MethodKind → Parser Unit
  | .plain => do
    expect "("
    let _ ← run (.parameters decorable) context
  | .getter => do
    expect "("
    expect ")"
  | .setter => do
    expect "("
    parameter run context decorable
    let _ ← eat ","
    expect ")"

/-- Statements between braces in the context of a function body. -/
def functionBody (run : Recogniser) (context : Context) : Parser Unit := do
  expect "\x7b"
  let _ ← run (.statements .block .value) context
  expect "\x7d"

/-- The parameters and body of a function or method. Only the methods of classes have parameters
that may be decorated. -/
def functionRest (run : Recogniser) (isAsync isGenerator decorable : Bool) (kind : MethodKind) :
    Parser Unit := do
  let context := Context.ofFunction isAsync isGenerator
  methodParameters run context decorable kind
  functionBody run context

/-- A function from its first word on; its name may be left out when it is an expression. The name
is one of the given context. -/
def functionDefinition (run : Recogniser) (naming : Context) (isAsync needsName : Bool) :
    Parser Shape := do
  expectWord "function"
  let isGenerator ← eat "*"
  let names ← do
    if naming.isName (← token) then pure [← naming.name]
    else
      require !needsName
      pure []
  functionRest run isAsync isGenerator false .plain
  return declares names

end InlineComponents.Script
