import InlineComponents.Compilation.Basic
import InlineComponents.Extraction
import InlineComponents.Wire.Record

/-!
# Wire forms

How the values that a compiler takes and gives are written as JSON values and read back. Optional
fields of diagnostics, styles and modules are left out when there is nothing to write; those of
errors and preprocessing results are written as `null`.
-/

namespace InlineComponents

namespace Position

/-- The declaration of positions. -/
def record : RecordType := ⟨"Position",
  [.required "line" Json.readWord, .required "column" Json.readWord,
   .optional "character" Json.readWord]⟩

/-- Read a position. -/
def read (value : Json) : Reading Position := do
  let fields ← record.read value
  let line ← Json.required fields "line" Json.readWord
  let column ← Json.required fields "column" Json.readWord
  let character ← Json.defaulted fields "character" Json.readWord 0
  return { line, column, character }

/-- Write a position. -/
def write (position : Position) : Json :=
  .ofFields [("line", .ofNat position.line.toNat), ("column", .ofNat position.column.toNat),
    ("character", .ofNat position.character.toNat)]

end Position

namespace Diagnostic

/-- The declaration of diagnostics. -/
def record : RecordType := ⟨"Diagnostic",
  [.required "code" Json.readString, .required "message" Json.readString,
   .optional "filename" (Json.readOption Json.readString),
   .optional "start" (Json.readOption Position.read),
   .optional "end" (Json.readOption Position.read),
   .optional "frame" (Json.readOption Json.readString)]⟩

/-- Read a diagnostic. -/
def read (value : Json) : Reading Diagnostic := do
  let fields ← record.read value
  let code ← Json.required fields "code" Json.readString
  let message ← Json.required fields "message" Json.readString
  let filename ← Json.optional fields "filename" Json.readString
  let start ← Json.optional fields "start" Position.read
  let stop ← Json.optional fields "end" Position.read
  let frame ← Json.optional fields "frame" Json.readString
  return { code, message, filename, start, stop, frame }

/-- Write a diagnostic. -/
def write (warning : Diagnostic) : Json :=
  .ofFields ([("code", .string warning.code), ("message", .string warning.message)] ++
    Json.fieldIfSome "filename" (warning.filename.map .string) ++
    Json.fieldIfSome "start" (warning.start.map Position.write) ++
    Json.fieldIfSome "end" (warning.stop.map Position.write) ++
    Json.fieldIfSome "frame" (warning.frame.map .string))

end Diagnostic

namespace CompileError

/-- The declaration of compile errors. -/
def record : RecordType := ⟨"CompileError",
  [.required "message" Json.readString, .optional "code" (Json.readOption Json.readString),
   .optional "filename" (Json.readOption Json.readString),
   .optional "start" (Json.readOption Position.read)]⟩

/-- Read a compile error. -/
def read (value : Json) : Reading CompileError := do
  let fields ← record.read value
  let message ← Json.required fields "message" Json.readString
  let code ← Json.optional fields "code" Json.readString
  let filename ← Json.optional fields "filename" Json.readString
  let start ← Json.optional fields "start" Position.read
  return { message, code, filename, start }

/-- Write a compile error. -/
def write (error : CompileError) : Json :=
  .ofFields [("message", .string error.message), ("code", Json.orNull .string error.code),
    ("filename", Json.orNull .string error.filename),
    ("start", Json.orNull Position.write error.start)]

end CompileError

namespace CompileOptions

/-- The declaration of compile options, apart from the options that are passed on. -/
def record : RecordType := ⟨"CompileOptions",
  [.required "filename" Json.readPath, .optional "sourcemap" (Json.readOption Json.readAny)]⟩

/-- Read compile options. -/
def read (value : Json) : Reading CompileOptions := do
  let fields ← record.readObject value
  let filename ← Json.required fields "filename" Json.readPath
  let sourcemap ← Json.optional fields "sourcemap" Json.readAny
  return { filename, sourcemap, extra := record.undeclared fields }

/-- Write compile options. An option that is passed on is written last, whatever its key. -/
def write (options : CompileOptions) : Json :=
  .ofFields (("filename", .string options.filename.toString) ::
    Json.fieldIfSome "sourcemap" options.sourcemap ++ options.extra)

end CompileOptions

namespace Css

/-- The declaration of styles. -/
def record : RecordType := ⟨"Css",
  [.required "code" Json.readString, .optional "map" (Json.readOption Json.readAny)]⟩

/-- Read styles. -/
def read (value : Json) : Reading Css := do
  let fields ← record.read value
  let code ← Json.required fields "code" Json.readString
  let map ← Json.optional fields "map" Json.readAny
  return { code, map }

/-- Write styles. -/
def write (css : Css) : Json :=
  .ofFields (("code", .string css.code) :: Json.fieldIfSome "map" css.map)

end Css

namespace CompiledModule

/-- The declaration of compiled modules. -/
def record : RecordType := ⟨"CompiledModule",
  [.required "code" Json.readString, .optional "map" (Json.readOption Json.readAny),
   .optional "css" (Json.readOption Css.read),
   .optional "warnings" (Json.readList Diagnostic.read)]⟩

/-- Read a compiled module. -/
def read (value : Json) : Reading CompiledModule := do
  let fields ← record.read value
  let code ← Json.required fields "code" Json.readString
  let map ← Json.optional fields "map" Json.readAny
  let css ← Json.optional fields "css" Css.read
  let warnings ← Json.defaulted fields "warnings" (Json.readList Diagnostic.read) []
  return { code, map, css, warnings }

/-- Write a compiled module. -/
def write (module : CompiledModule) : Json :=
  .ofFields ([("code", .string module.code)] ++ Json.fieldIfSome "map" module.map ++
    Json.fieldIfSome "css" (module.css.map Css.write) ++
    [("warnings", .array (module.warnings.map Diagnostic.write))])

end CompiledModule

namespace Preprocessed

/-- The declaration of preprocessing results. -/
def record : RecordType := ⟨"Preprocessed",
  [.required "code" Json.readString, .optional "map" (Json.readOption Json.readAny),
   .optional "dependencies" (Json.readList Json.readPath)]⟩

/-- Read a preprocessing result. -/
def read (value : Json) : Reading Preprocessed := do
  let fields ← record.read value
  let code ← Json.required fields "code" Json.readString
  let map ← Json.optional fields "map" Json.readAny
  let dependencies ← Json.defaulted fields "dependencies" (Json.readList Json.readPath) []
  return { code, map, dependencies }

/-- Write a preprocessing result. -/
def write (result : Preprocessed) : Json :=
  .ofFields [("code", .string result.code), ("map", result.map.getD .null),
    ("dependencies", .array (result.dependencies.map fun path => .string path.toString))]

end Preprocessed

/-- Write an inline component with its byte range. -/
def InlineComponent.write (component : InlineComponent) : Json :=
  .ofFields [("name", .string component.name), ("body", .string component.body),
    ("syntheticFilename", .string component.syntheticFilename.toString),
    ("span", .ofFields [("start", .ofNat component.start), ("end", .ofNat component.stop)])]

end InlineComponents
