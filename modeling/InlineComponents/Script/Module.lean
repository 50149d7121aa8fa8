import InlineComponents.Script.Statement

/-!
# Module scripts

Whether a text is a module by the grammar of the language. This is a question of grammar alone:
names may be declared twice, jumps may lack their target, and the insides of regular expressions
are not looked at. What is refused beyond the grammar is a name that is exported twice, where an
export within another statement does not count, and an attribute that is given twice.
-/

namespace InlineComponents.Script

/-- The production of each goal. -/
def production (run : Recogniser) (goal : Goal) (context : Context) : Parser Shape :=
  match goal with
  | .expression => expression run context
  | .assignment => assignment run context
  | .binary precedence => binary run context precedence
  | .binaryRest precedence grouped left => binaryRest run context precedence grouped left
  | .unary => unary run context
  | .leftHandSide => leftHandSide run context
  | .construction => construction run context
  | .memberRest callable chained object => memberRest run context callable chained object
  | .sequenceRest => sequenceRest run context
  | .arguments => arguments run context
  | .group count sofar => group run context count sofar
  | .arrayItems sofar => arrayItems run context sofar
  | .objectItems sofar => objectItems run context sofar
  | .templateRest tagged => templateRest run context tagged
  | .bindingTarget => bindingTarget run context
  | .bindingElement => bindingElement run context
  | .bindingArray names => bindingArray run context names
  | .bindingObject names => bindingObject run context names
  | .parameters decorable => parameters run context decorable
  | .classDefinition => classDefinition run context
  | .classMembers => classMembers run context
  | .decorators => decorators run context
  | .declarators kind sofar => declarators run context kind sofar
  | .statement place => statement run context place
  | .statements place sofar => statements run context place sofar
  | .clauses => clauses run context
  | .importSpecifiers => importSpecifiers run context
  | .exportSpecifiers sofar => exportSpecifiers run context sofar
  | .attributes keys => attributes run context keys

/-- Answers goals with the given fuel. -/
def recognise : (fuel : Nat) → Recogniser
  | 0 => fun _ _ => failure
  | fuel + 1 => fun goal context => production (recognise fuel) goal context

/-- Fuel for a text: each character is at most one token, and between two tokens only a fixed
number of goals is asked for. -/
def fuelFor (text : Text) : Nat := 16 * (text.length + 4)

/-- The text after a first line that names an interpreter. -/
def skipInterpreterLine (text : Text) : Text :=
  match text with
  | '#' :: '!' :: rest => rest.dropWhile fun c => !isLineEnd c
  | _ => text

/-- Whether no name comes twice. -/
def areDistinct : List String → Bool
  | [] => true
  | name :: rest => !rest.contains name && areDistinct rest

/-- Whether a text is a module. -/
def isModule (text : Text) : Bool :=
  let start : Cursor := .start (skipInterpreterLine text)
  match (recognise (fuelFor text) (.statements .block .value) {}).run start with
  | some (whole, cursor) => cursor.token == .finish && areDistinct whole.names
  | none => false

end InlineComponents.Script
