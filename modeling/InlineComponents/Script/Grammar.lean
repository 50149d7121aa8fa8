import InlineComponents.Script.Cursor

/-!
# Goals of the script grammar

A phrase is recognised by asking for a goal in a context. What comes back says how the phrase may
be used: an object literal, say, may turn out to be the target of an assignment or the parameter
list of an arrow function, which is known only when the next token is seen.

The productions take the function that answers goals as a parameter; it is tied together, with
fuel computed from the length of the script, in one place.
-/

namespace InlineComponents.Script

/-- What the surroundings of a phrase allow: `in`, `yield` and `await` as operators, and `return`.
In a decorator a bracket starts something new instead of a member, since the brackets belong to the
name of the decorated element. -/
structure Context where
  allowIn : Bool := true
  inGenerator : Bool := false
  inAsync : Bool := true
  inFunction : Bool := false
  inDecorator : Bool := false
  deriving DecidableEq, Repr

namespace Context

/-- The context with `in` as an operator. -/
def withIn (context : Context) : Context := { context with allowIn := true }

/-- The context with `in` left to the enclosing statement. -/
def withoutIn (context : Context) : Context := { context with allowIn := false }

/-- The context with `await` as an operator. -/
def withAwait (context : Context) : Context := { context with inAsync := true }

/-- The context with `await` as a name. -/
def withoutAwait (context : Context) : Context := { context with inAsync := false }

/-- The context of whole expressions, whose brackets are members even in a decorator. -/
def outsideDecorator (context : Context) : Context := { context with inDecorator := false }

/-- The context within the parentheses of a group or call. -/
def enclosed (context : Context) : Context := context.withIn.outsideDecorator

/-- The context of a function's parameters and body. -/
def ofFunction (isAsync isGenerator : Bool) : Context :=
  { inGenerator := isGenerator, inAsync := isAsync, inFunction := true }

/-- The context of the body of an arrow function, which leaves `in` to the same statement as its
surroundings do. -/
def ofArrow (context : Context) (isAsync : Bool) : Context :=
  { context with inGenerator := false, inAsync := isAsync, inFunction := true }

/-- The context of the value of a field. -/
def ofField : Context := { inAsync := false }

/-- The context of a static block, which also leaves `in` to the statement around it. -/
def ofStaticBlock (context : Context) : Context :=
  { allowIn := context.allowIn }

/-- Whether a token is a name here. -/
def isName (context : Context) : Token → Bool
  | .word name _ => !reservedWords.contains name && !(context.inAsync && name == "await")
  | _ => false

/-- A name, moved past. -/
def name (context : Context) : Parser String := do
  let token ← Parser.token
  match token with
  | .word name _ =>
    Parser.require (context.isName token)
    Parser.advance
    return name
  | _ => failure

end Context

/-- How a recognised phrase may be used. A simple one is a name or a member and may be updated in
place. A target may be assigned to, and an element may be so within a pattern, where a default may
follow. An unclaimed one is valid only when what follows reads it as a pattern or a parameter list.
A logical one is a conjunction or disjunction that does not start with a parenthesis. The names are
those that the phrase declares or exports. -/
structure Shape where
  isBareName : Bool := false
  isAsyncName : Bool := false
  isSimple : Bool := false
  isTarget : Bool := false
  isElement : Bool := false
  isBinding : Bool := false
  isParameter : Bool := false
  isUnclaimed : Bool := false
  isArrowHead : Bool := false
  isLogical : Bool := false
  names : List String := []
  deriving DecidableEq, Repr

/-- The shape of a value that is nothing but a value. -/
def Shape.value : Shape := {}

/-- The shape of a member of an object. -/
def Shape.member : Shape := { isSimple := true, isTarget := true, isElement := true }

/-- The shape of a name. -/
def Shape.ofName (name : String) (escaped : Bool) : Shape :=
  { isBareName := true, isAsyncName := name == "async" && !escaped, isSimple := true,
    isTarget := true, isElement := true, isBinding := true, isParameter := true, names := [name] }

/-- The shape of a literal that may be read as a pattern. -/
def Shape.ofPattern (isTarget isBinding isUnclaimed : Bool) : Shape :=
  { isTarget, isElement := isTarget, isBinding, isParameter := isBinding, isUnclaimed }

/-- The kinds of declarations of variables. A resource is released at the end of its block. -/
inductive DeclarationKind where
  | var
  | letBinding
  | constant
  | resource
  deriving DecidableEq, Repr

/-- The parts of methods that depend on the kind of method. -/
inductive MethodKind where
  | plain
  | getter
  | setter
  deriving DecidableEq, Repr

/-- Where a statement stands: in a block, in a clause of a `switch`, where no resource may be
declared, or within another statement, where no block is declared into. -/
inductive Place where
  | block
  | clause
  | nested
  deriving DecidableEq, Repr

/-- What a phrase is asked to be, or how a phrase that has begun goes on. An operator of a binary
phrase binds more tightly than its precedence, and the phrase is grouped if its first operand
started with a parenthesis. Behind an object, calls may be allowed, and the chain of members may be
optional. The attributes of an import come after those with the given keys. -/
inductive Goal where
  | expression
  | assignment
  | binary (precedence : Nat)
  | binaryRest (precedence : Nat) (grouped : Bool) (left : Shape)
  | unary
  | leftHandSide
  | construction
  | memberRest (callable chained : Bool) (object : Shape)
  | sequenceRest
  | arguments
  | group (count : Nat) (sofar : Shape)
  | arrayItems (sofar : Shape)
  | objectItems (sofar : Shape)
  | templateRest (tagged : Bool)
  | bindingTarget
  | bindingElement
  | bindingArray (names : List String)
  | bindingObject (names : List String)
  | parameters (decorable : Bool)
  | classDefinition
  | classMembers
  | decorators
  | declarators (kind : DeclarationKind) (sofar : Shape)
  | statement (place : Place)
  | statements (place : Place) (sofar : Shape)
  | clauses
  | importSpecifiers
  | exportSpecifiers (sofar : Shape)
  | attributes (keys : List (List Nat))
  deriving Repr

/-- Answers goals. -/
abbrev Recogniser := Goal → Context → Parser Shape

/-- A phrase that is used as a value must not wait for something else to claim it. -/
def settle (shape : Shape) : Parser Unit := Parser.require (!shape.isUnclaimed)

/-- A phrase used as a value. -/
def Recogniser.value (run : Recogniser) (goal : Goal) (context : Context) : Parser Unit := do
  settle (← run goal context)

end InlineComponents.Script
