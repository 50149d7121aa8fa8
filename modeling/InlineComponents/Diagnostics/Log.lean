/-!
# Log lines

What is worth telling the person who runs a build: warnings, and notes for debugging.
-/

namespace InlineComponents

/-- How much a log line matters. -/
inductive LogLevel where
  | warn
  | debug
  deriving DecidableEq, Repr

/-- A line of the log. -/
structure LogLine where
  level : LogLevel
  text : String
  deriving DecidableEq, Repr

/-- The level as it is written in a log. -/
def LogLevel.label : LogLevel → String
  | warn => "WARN"
  | debug => "DEBUG"

/-- The line as it is written in a log. -/
def LogLine.render (line : LogLine) : String := line.level.label ++ " " ++ line.text

/-- What this library puts before messages of its own. -/
def messageTag : String := "[compose-native]"

end InlineComponents
