import InlineComponents.Compilation.Unit
import InlineComponents.Diagnostics.Reconciliation
import InlineComponents.Plugin.Basic
import InlineComponents.Styles.Merging

/-!
# Transforming a component source

A source is preprocessed, freed of its inline components, compiled together with them and linked.
The styles of all that was linked become one asset, which is kept and which the module imports, and
the warnings are delivered. Nothing here looks at what was transformed before.
-/

namespace InlineComponents

/-- A transformed module, with the files to watch as told by preprocessing and the warnings that
reached the host. -/
structure TransformOutput where
  code : String
  map : Option Json
  dependencies : List FilePath
  warnings : List Diagnostic
  deriving BEq, Repr

/-- A transformed module with the styles that were moved out of it. -/
structure Transformation where
  output : TransformOutput
  asset : Option StyleAsset
  deriving BEq, Repr

namespace ComponentCompilation

/-- The warnings about a component, in a unit with components of these names. References between
the components resolve once they are linked. A component that failed is warned about once. -/
def warnings (names : List String) (compilation : ComponentCompilation) : List Diagnostic :=
  let file := compilation.component.syntheticFilename.toString
  match compilation.outcome with
  | .ok module => (Diagnostic.reconcile names module.warnings).map (·.withDefaultFilename file)
  | .error error => [{
      code := Diagnostic.compileFailed
      message := "sub-component \"" ++ compilation.component.name ++ "\" failed to compile: " ++
        error.message
      filename := some file }]

end ComponentCompilation

namespace UnitCompilation

/-- The names of the components, whether they compiled or not. -/
def names (unit : UnitCompilation) : List String := unit.components.map (·.component.name)

/-- The warnings about a unit: those of the parent, then those of each component. -/
def warnings (unit : UnitCompilation) : List Diagnostic :=
  Diagnostic.reconcile unit.names unit.parent.warnings ++
    unit.components.flatMap (·.warnings unit.names)

/-- The styles of all that is linked. -/
def styles (unit : UnitCompilation) : Option Css :=
  Css.merge unit.parent.css (unit.children.filterMap (·.module.css))

end UnitCompilation

/-- The log lines about an extraction: none if nothing was taken out. -/
def Extraction.logLines (file : String) (extraction : Extraction) : List LogLine :=
  if extraction.isEmpty then []
  else [⟨.debug, file ++ ": extracted " ++ toString extraction.components.length ++
    " sub-component(s): " ++ ", ".intercalate extraction.names⟩]

namespace Plugin

/-- The source to compile: preprocessed, if that is configured. -/
def prepare (plugin : Plugin) (code id : String) : Run BuildError Preprocessed :=
  match plugin.options.preprocess with
  | none => return { code }
  | some config => do
    .record (.preprocessed code config (.ofString id))
    .ofExcept <|
      (plugin.compiler.preprocess code config (.ofString id)).mapError (BuildError.preprocess id)

/-- The source without its inline components. -/
def extract (file source : String) : Run BuildError Extraction := do
  let extraction ← .ofExcept <|
    (Extraction.extract source (.ofString file)).mapError (BuildError.extraction file)
  .logAll (extraction.logLines file)
  return extraction

/-- The module of a unit, with its children linked into it. -/
def link (plugin : Plugin) (id : String) (unit : UnitCompilation) :
    Run BuildError CompiledModule := do
  let module ← .ofExcept <|
    (unit.parent.splice plugin.acceptsScript plugin.contract unit.children).mapError
      (BuildError.contract id)
  .logAll (unit.parent.spliceLog module unit.children)
  return module

/-- The asset of a unit, if its styles are moved out of the module. -/
def asset? (plugin : Plugin) (id : String) (unit : UnitCompilation) : Option StyleAsset :=
  if plugin.options.emitCss then unit.styles.map (.ofModule id) else none

/-- The warnings about a unit that reach the host. -/
def deliver (plugin : Plugin) (unit : UnitCompilation) : List Diagnostic :=
  Diagnostic.deliver plugin.handler (!plugin.options.emitCss) unit.warnings

/-- Transform a module that the plugin takes. -/
def transformHandled (plugin : Plugin) (code id : String) : Run BuildError Transformation := do
  let prepared ← plugin.prepare code id
  let extraction ← extract id prepared.code
  let options := { plugin.options.compileOptions (.ofString id) with sourcemap := prepared.map }
  let unit ← UnitCompilation.compile plugin.compiler extraction options
  let module ← plugin.link id unit
  let asset := plugin.asset? id unit
  .logAll (asset.toList.map (·.logLine id))
  .recordAll (asset.toList.map .kept)
  let warnings := plugin.deliver unit
  .logAll (warnings.map Diagnostic.logLine)
  return {
    output := {
      code := (asset.elim module module.importing).code
      map := module.map
      dependencies := prepared.dependencies
      warnings }
    asset }

/-- Transform a module, if the plugin takes it. -/
def transform (plugin : Plugin) (code id : String) : Run BuildError (Option Transformation) :=
  if plugin.handles id then do
    let transformation ← plugin.transformHandled code id
    return some transformation
  else return none

end Plugin

end InlineComponents
