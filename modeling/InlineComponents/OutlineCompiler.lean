import InlineComponents.Compilation.Basic
import InlineComponents.OutlineCompiler.Generation
import InlineComponents.Text.UpperCase

/-!
# A compiler of outlines

A small component compiler with the conventions of a full one. It names a component after its file,
warns of components that the script does not import, and keeps the styles apart from the module. A
source that holds an error block does not compile.

It can be made to give every component the same name, which breaks the convention of names.
-/

namespace InlineComponents

/-- The name of the component of a file: the stem of the file name with its first letter in upper
case. -/
def componentName (filename : FilePath) : Text :=
  match filename.stem? with
  | some (c :: rest) => Text.upperCase c ++ rest
  | _ => "Component".toList

namespace OutlineCompiler

/-- The text that keeps a source from compiling. -/
def errorBlock : Text := "\x7b#error\x7d".toList

/-- The warnings about components that the script does not import. -/
def undeclaredWarnings (filename : String) (markup : Markup) : List Diagnostic :=
  (markup.components.filter fun name => !markup.imports.any (·.name = name)).map fun name =>
    { code := Diagnostic.missingDeclaration
      message := "'" ++ String.ofList name ++ "' is not defined"
      filename := some filename }

/-- The warning about styles with a selector that is not used. -/
def selectorWarnings (filename : String) (markup : Markup) : List Diagnostic :=
  if markup.styles.any (Text.occursIn ".unused".toList) then
    [{ code := Diagnostic.unusedSelector
       message := "Unused CSS selector \".unused\""
       filename := some filename }]
  else []

/-- The input map of every module. -/
def sourceMap : Json := .ofFields [("version", .ofNat 3), ("mappings", .string "")]

/-- Compile a source, under the given symbol or else under the name of the file. -/
def compile (symbol : Option String) (source : String) (options : CompileOptions) :
    Except CompileError CompiledModule :=
  let filename := options.filename.toString
  if Text.occursIn errorBlock source.toList then
    .error { message := "Unexpected block " ++ String.ofList errorBlock, filename := some filename }
  else
    let markup := Markup.ofSource source.toList
    let name := (symbol.map String.toList).getD (componentName options.filename)
    .ok {
      code := String.ofList (markup.generate name)
      map := some sourceMap
      css := markup.styles.map fun code => { code := String.ofList code }
      warnings := undeclaredWarnings filename markup ++ selectorWarnings filename markup }

/-- The replacement that preprocessing is configured for: the two texts of a list of two. -/
def replacement? (config : Json) : Option (String × String) :=
  match config.get? "replace" with
  | some (.array [.string word, .string replacement]) => some (word, replacement)
  | _ => none

/-- The files that preprocessing is configured to depend on. -/
def dependencies (config : Json) : List FilePath :=
  ((((config.get? "dependencies").bind Json.asArray?).getD []).filterMap Json.asString?).map
    FilePath.ofString

/-- The map of every preprocessed source. -/
def preprocessedMap : Json :=
  .ofFields [("version", .ofNat 3), ("sources", .array [.string "preprocessed"])]

/-- Preprocess a source as configured: fail, or replace one text by another. -/
def preprocess (source : String) (config : Json) : Except CompileError Preprocessed :=
  match config.get? "fail" with
  | some (.bool true) => .error { message := "preprocessor exploded" }
  | _ => .ok {
      code := match replacement? config with
        | some (word, replacement) =>
          String.ofList (Text.replaceAll word.toList replacement.toList source.toList)
        | none => source
      map := some preprocessedMap
      dependencies := dependencies config }

/-- The compiler of outlines, with or without a symbol for every component. -/
def withSymbol (symbol : Option String) : ComponentCompiler where
  compile := compile symbol
  preprocess source config _ := preprocess source config

end OutlineCompiler

end InlineComponents
