import InlineComponents.Diagnostics.Basic
import InlineComponents.Diagnostics.Log

/-!
# Delivery of warnings

Warnings go through a handler, which answers each with the warnings that reach the host: none,
the same one, or others. Warnings about unused styles are withheld from the handler when styles
are not emitted.
-/

namespace InlineComponents

/-- What reaches the host for a warning. -/
abbrev WarningHandler := Diagnostic → List Diagnostic

namespace WarningHandler

/-- The handler that hands every warning on. -/
def forwardAll : WarningHandler := fun warning => [warning]

/-- A handler given by the kinds of warnings: some are dropped, some are forwarded once more, and
some are forwarded under another kind. -/
structure Rules where
  swallow : List String := []
  twice : List String := []
  relabel : List (String × String) := []
  deriving DecidableEq, Repr

/-- The handler that follows the rules. -/
def ofRules (rules : Rules) : WarningHandler := fun warning =>
  if rules.swallow.contains warning.code then []
  else
    (if rules.twice.contains warning.code then [warning] else []) ++
      [{ warning with code := (rules.relabel.lookup warning.code).getD warning.code }]

end WarningHandler

namespace Diagnostic

/-- Whether a warning is withheld because styles are not emitted. -/
def isWithheld (stylesDisabled : Bool) (warning : Diagnostic) : Bool :=
  stylesDisabled && warning.code == unusedSelector

/-- The warnings that reach the host. -/
def deliver (handler : WarningHandler) (stylesDisabled : Bool) (warnings : List Diagnostic) :
    List Diagnostic :=
  (warnings.filter fun warning => !warning.isWithheld stylesDisabled).flatMap handler

/-- The log line of a warning that reached the host. -/
def logLine (warning : Diagnostic) : LogLine :=
  ⟨.warn, (match warning.filename with
    | some file => file ++ ": "
    | none => "") ++ "(" ++ warning.code ++ ") " ++ warning.message⟩

/-- Delivery goes through the warnings one by one. -/
theorem deliver_append (handler : WarningHandler) (stylesDisabled : Bool)
    (first second : List Diagnostic) :
    deliver handler stylesDisabled (first ++ second) =
      deliver handler stylesDisabled first ++ deliver handler stylesDisabled second := by
  simp [deliver]

end Diagnostic

end InlineComponents
