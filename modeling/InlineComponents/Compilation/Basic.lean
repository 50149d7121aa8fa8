import InlineComponents.Diagnostics.Basic
import InlineComponents.FilePath
import InlineComponents.Json.Basic
import InlineComponents.Text.Blank

/-!
# What a component compiler takes and gives

The compiler itself is a parameter: a function from source and options to a module or an error,
and a preprocessing step before it. Options are loosely typed and passed on as they are, apart
from the file name and the input map.
-/

namespace InlineComponents

/-- A failed compilation or preprocessing. -/
structure CompileError where
  message : String
  code : Option String := none
  filename : Option String := none
  start : Option Position := none
  deriving DecidableEq, Repr

/-- The options of one compilation. Those without a field of their own stand in `extra`, in
ascending order of their keys. -/
structure CompileOptions where
  filename : FilePath
  sourcemap : Option Json := none
  extra : Json.Fields := []
  deriving BEq, Repr

namespace CompileOptions

/-- The value of another option than the file name and the input map. -/
def get? (options : CompileOptions) (key : String) : Option Json :=
  Json.findField? key options.extra

/-- Whether the compiler is asked to keep the styles in the module. -/
def inlinesCss (options : CompileOptions) : Bool := Json.isTruthy (options.get? "css")

/-- The options for another file, without an input map. -/
def forFile (options : CompileOptions) (filename : FilePath) : CompileOptions :=
  { options with filename, sourcemap := none }

end CompileOptions

/-- The styles of a component. -/
structure Css where
  code : String
  map : Option Json := none
  deriving BEq, Repr

/-- Whether the style sheet is blank. -/
def Css.isEmpty (css : Css) : Bool := Text.isBlankText css.code.toList

/-- The output of one compilation, with the styles kept apart from the code. -/
structure CompiledModule where
  code : String
  map : Option Json := none
  css : Option Css := none
  warnings : List Diagnostic := []
  deriving BEq, Repr

/-- The style sheet of a module, unless it is blank. -/
def CompiledModule.cssCode? (module : CompiledModule) : Option String :=
  (module.css.filter fun css => !css.isEmpty).map Css.code

/-- The output of preprocessing, with the files it was made from besides. -/
structure Preprocessed where
  code : String
  map : Option Json := none
  dependencies : List FilePath := []
  deriving BEq, Repr

/-- A component compiler. By default preprocessing leaves the source as it is. -/
structure ComponentCompiler where
  compile : String → CompileOptions → Except CompileError CompiledModule
  preprocess : String → Json → FilePath → Except CompileError Preprocessed :=
    fun source _ _ => .ok { code := source }

end InlineComponents
