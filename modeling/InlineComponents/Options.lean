import InlineComponents.Glob
import InlineComponents.Compilation.Basic
import InlineComponents.Diagnostics.Log
import InlineComponents.Wire.Record

/-!
# Options of the plugin

Options come as an object. Keys that are not known are warned about, apart from those that only a
scripting host understands. While styles are emitted as assets, the compiler is told not to keep
them in the module, with a warning if it was asked to.
-/

namespace InlineComponents

/-- The options of a plugin. Without a configuration there is no preprocessing. The globs are those
of the ids to take and to leave, the extensions have their dots, and the warnings say what was found
wrong with the options. -/
structure PluginOptions where
  compilerOptions : Json.Fields := []
  emitCss : Bool := true
  preprocess : Option Json := none
  included : List String := []
  excluded : List String := []
  extensions : List String := [".svelte"]
  warnings : List String := []
  deriving BEq, Repr

namespace PluginOptions

/-- The declaration of options. -/
def record : RecordType := ⟨"RawOptions",
  [.optional "compilerOptions" (Json.readOption Json.readMap), .optional "emitCss" Json.readBool,
   .optional "preprocess" (Json.readOption Json.readAny),
   .optional "include" (Json.readOption Json.readOneOrMany),
   .optional "exclude" (Json.readOption Json.readOneOrMany),
   .optional "extensions" (Json.readList Json.readString)]⟩

/-- Known keys that mean something to a scripting host only. -/
def hostOnlyKeys : List String := ["onwarn"]

/-- The warning about an unknown key. -/
def unknownKeyWarning (key : String) : String :=
  messageTag ++ " Unknown \"" ++ key ++
    "\" option. Please use \"compilerOptions\" for any compiler configuration."

/-- The warning about an option of the compiler that is overridden. -/
def forcedCssWarning : String :=
  messageTag ++ " Forcing \"compilerOptions.css\": false because \"emitCss\" was truthy."

/-- The warnings about the unknown keys of an object, in the order of the keys. -/
def keyWarnings (fields : Json.Fields) : List String :=
  ((record.undeclared fields).map (·.1)).filter (fun key => !hostOnlyKeys.contains key)
    |>.map unknownKeyWarning

/-- The warnings about an override of the given compiler options. -/
def cssWarnings (emitCss : Bool) (compilerOptions : Json.Fields) : List String :=
  if emitCss && Json.isTruthy (Json.findField? "css" compilerOptions) then [forcedCssWarning]
  else []

/-- The compiler options with the styles turned off while they are emitted. -/
def overrideCss (emitCss : Bool) (compilerOptions : Json.Fields) : Json.Fields :=
  if emitCss then Json.setField "css" (.bool false) compilerOptions else compilerOptions

/-- Read options. -/
def read (value : Json) : Reading PluginOptions := do
  let fields ← record.readObject value
  let compilerOptions := (← Json.optional fields "compilerOptions" Json.readMap).getD []
  let emitCss ← Json.defaulted fields "emitCss" Json.readBool true
  let preprocess ← Json.optional fields "preprocess" Json.readAny
  let included ← Json.optional fields "include" Json.readOneOrMany
  let excluded ← Json.optional fields "exclude" Json.readOneOrMany
  let extensions ← Json.defaulted fields "extensions" (Json.readList Json.readString) [".svelte"]
  return {
    compilerOptions := overrideCss emitCss compilerOptions
    emitCss, preprocess, extensions
    included := included.getD []
    excluded := excluded.getD []
    warnings := keyWarnings fields ++ cssWarnings emitCss compilerOptions }

/-- The filter of module ids. -/
def filter (options : PluginOptions) : PathFilter := ⟨options.included, options.excluded⟩

/-- Whether the extension of a path is one of a component. -/
def handlesExtension (options : PluginOptions) (path : FilePath) : Bool :=
  match path.extension? with
  | none => false
  | some extension => options.extensions.contains (String.ofList ('.' :: extension))

/-- The options for compiling one file: always as a module, and without styles in it while they
are emitted. -/
def compileOptions (options : PluginOptions) (filename : FilePath) : CompileOptions :=
  { filename
    extra := overrideCss options.emitCss
      (Json.setField "format" (.string "esm") options.compilerOptions) }

end PluginOptions

end InlineComponents
