/-!
# Diagnostics of a component compiler

A warning carries a code and a message, and may say where it arose. The code of a warning is its
kind; three kinds have a meaning to this library.
-/

namespace InlineComponents

/-- A place in a source. The character is its offset from the start. -/
structure Position where
  line : UInt32
  column : UInt32
  character : UInt32 := 0
  deriving DecidableEq, Repr

/-- A warning of the compiler, with the file and the place it is about and an excerpt of the
source. -/
structure Diagnostic where
  code : String
  message : String
  filename : Option String := none
  start : Option Position := none
  stop : Option Position := none
  frame : Option String := none
  deriving DecidableEq, Repr

namespace Diagnostic

/-- The kind of a warning about an undeclared name. -/
def missingDeclaration : String := "missing-declaration"

/-- The kind of a warning about a style that matches nothing. -/
def unusedSelector : String := "css-unused-selector"

/-- The kind of a warning about an inline component that failed to compile. -/
def compileFailed : String := "subcomponent-compile-failed"

/-- The warning with a file name where it has none. -/
def withDefaultFilename (filename : String) (warning : Diagnostic) : Diagnostic :=
  { warning with filename := some (warning.filename.getD filename) }

end Diagnostic

end InlineComponents
