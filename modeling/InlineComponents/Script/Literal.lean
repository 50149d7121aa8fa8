import InlineComponents.Script.Binding

/-!
# Literals, groups, templates and arguments

Array and object literals double as patterns, and parenthesised phrases as parameter lists. The
rest of such a phrase is read item by item, while the shape so far keeps track of what it can still
become.
-/

namespace InlineComponents.Script

open Script.Parser

/-- The rest of a call's arguments, with the closing parenthesis. -/
def arguments (run : Recogniser) (context : Context) : Parser Shape := do
  if ← eat ")" then return .value
  let _ ← eat "..."
  run.value .assignment context.enclosed
  if ← isAt ")" then pure () else expect ","
  run .arguments context

/-- The shape of several items that together may be a parameter list. -/
def asParameters (isParameter isUnclaimed : Bool) : Shape := { isParameter, isUnclaimed }

/-- The shape of several parenthesised items that only an arrow can follow. -/
def onlyArrowHead (isParameter : Bool) : Shape :=
  { isArrowHead := isParameter, isUnclaimed := true }

/-- The shape of one phrase in parentheses. -/
def Shape.inParentheses (shape : Shape) : Shape :=
  { isSimple := shape.isSimple, isTarget := shape.isSimple, isElement := shape.isSimple,
    isUnclaimed := shape.isUnclaimed, isArrowHead := shape.isParameter }

/-- The rest of a parenthesised phrase. -/
def group (run : Recogniser) (context : Context) (count : Nat) (sofar : Shape) : Parser Shape := do
  if ← eat ")" then return onlyArrowHead sofar.isParameter
  if ← eat "..." then
    let _ ← run .bindingTarget context
    expect ")"
    return onlyArrowHead sofar.isParameter
  let item ← run .assignment context.enclosed
  let together := asParameters (sofar.isParameter && item.isParameter)
    (sofar.isUnclaimed || item.isUnclaimed)
  if ← eat ")" then
    return if count = 0 then item.inParentheses
      else { isArrowHead := together.isParameter, isUnclaimed := together.isUnclaimed }
  expect ","
  run (.group (count + 1) together) context

/-- The rest of an array literal. -/
def arrayItems (run : Recogniser) (context : Context) (sofar : Shape) : Parser Shape := do
  if ← eat "]" then return sofar
  if ← eat "," then return ← run (.arrayItems sofar) context
  let spread ← eat "..."
  let item ← run .assignment context.withIn
  let isLast ← isAt "]"
  if !isLast then expect ","
  let isTarget := if spread then item.isTarget && isLast else item.isElement
  let isBinding := if spread then item.isBinding && isLast else item.isParameter
  run (.arrayItems (.ofPattern (sofar.isTarget && isTarget) (sofar.isBinding && isBinding)
    (sofar.isUnclaimed || item.isUnclaimed))) context

/-- The words in front of the name of a method: whether it is asynchronous, whether it is a
generator, and its kind. -/
structure MethodWords where
  isAsync : Bool := false
  isGenerator : Bool := false
  kind : MethodKind := .plain
  deriving DecidableEq, Repr

/-- Whether there is any such word. -/
def MethodWords.isSpecial (words : MethodWords) : Bool :=
  words.isAsync || words.isGenerator || words.kind ≠ .plain

/-- The words in front of the name of a method, moved past. A word that nothing follows which could
be a name is the name itself. -/
def methodWords : Parser MethodWords := do
  let after ← following
  if (← isAtWord "get") && after.token.startsProperty then
    keyword
    return { kind := .getter }
  if (← isAtWord "set") && after.token.startsProperty then
    keyword
    return { kind := .setter }
  let isAsync := (← isAtWord "async") && !after.newline &&
    (after.token.startsProperty || after.token == .punctuator "*")
  if isAsync then keyword
  let isGenerator ← eat "*"
  return { isAsync, isGenerator }

/-- One property of an object literal: what it can be within a pattern. -/
def objectProperty (run : Recogniser) (context : Context) : Parser Shape := do
  let words ← methodWords
  let (isName, _) ← propertyName run context
  if words.isSpecial || (← isAt "(") then
    functionRest run words.isAsync words.isGenerator false words.kind
    return .value
  if ← eat ":" then return ← run .assignment context.withIn
  require isName
  if ← eat "=" then
    run.value .assignment context.withIn
    return { isElement := true, isParameter := true, isUnclaimed := true }
  return { isElement := true, isParameter := true }

/-- The rest of an object literal. -/
def objectItems (run : Recogniser) (context : Context) (sofar : Shape) : Parser Shape := do
  if ← eat "\x7d" then return sofar
  if ← eat "..." then
    let item ← run .assignment context.withIn
    let isLast ← isAt "\x7d"
    if !isLast then expect ","
    let together := Shape.ofPattern (sofar.isTarget && item.isSimple && isLast)
      (sofar.isBinding && item.isBareName && isLast) (sofar.isUnclaimed || item.isUnclaimed)
    return ← run (.objectItems together) context
  let item ← objectProperty run context
  if ← isAt "\x7d" then pure () else expect ","
  run (.objectItems (.ofPattern (sofar.isTarget && item.isElement)
    (sofar.isBinding && item.isParameter) (sofar.isUnclaimed || item.isUnclaimed))) context

/-- The rest of a template from the current stretch on. Only a tag may see invalid escapes. -/
def templateRest (run : Recogniser) (context : Context) (tagged : Bool) : Parser Shape := do
  match ← token with
  | .template last valid =>
    require (tagged || valid)
    advance
    if last then return .value
    run.value .expression context.withIn
    resumeTemplate
    run (.templateRest tagged) context
  | _ => failure

end InlineComponents.Script
