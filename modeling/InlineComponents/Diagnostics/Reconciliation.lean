import InlineComponents.Diagnostics.Basic
import InlineComponents.Text.Basic

/-!
# Warnings that inline components make void

A parent is compiled without its inline components, so each use of one is reported as an
undeclared name. Such a warning is dropped when the name is one of the components; every other
warning stays as it is.
-/

namespace InlineComponents.Diagnostic

/-- The text up to the next single quote, which has to come after at least one character, and what
follows it. -/
def readName? (text : Text) : Option (Text × Text) :=
  match text.takeWhile (· ≠ '\''), text.dropWhile (· ≠ '\'') with
  | [], _ => none
  | _, [] => none
  | name, _ :: rest => some (name, rest)

/-- The name in a message of the form `'Name' is not defined`, with anything after it. -/
def nameInMessage? : Text → Option Text
  | '\'' :: rest =>
    match readName? rest with
    | some (name, after) =>
      if Text.startsWith " is not defined".toList after then some name else none
    | none => none
  | _ => none

/-- The name that a warning reports as undeclared. -/
def undeclaredName? (warning : Diagnostic) : Option String :=
  if warning.code = missingDeclaration then
    (nameInMessage? warning.message.toList).map String.ofList
  else none

/-- Whether a warning reports one of the names as undeclared. -/
def isAbout (names : List String) (warning : Diagnostic) : Bool :=
  warning.undeclaredName?.any (names.contains ·)

/-- The warnings that do not report one of the names as undeclared. -/
def reconcile (names : List String) (warnings : List Diagnostic) : List Diagnostic :=
  warnings.filter fun warning => !warning.isAbout names

end InlineComponents.Diagnostic
