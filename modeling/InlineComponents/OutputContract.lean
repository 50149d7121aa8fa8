import InlineComponents.Imports.Phrase
import InlineComponents.Text.Identifier

/-!
# What linking expects of a generated module

Compiled modules are linked as text. A module must import from the runtime module exactly once,
with a named import, and its default export must be a plain identifier, the component. Both
statements are located as splits of the module's code.
-/

namespace InlineComponents

/-- How a generated module fails to be what linking expects. A module is misordered if its
runtime import does not end before its default export. -/
inductive ContractViolation where
  | missingRuntimeImport (runtime : String)
  | multipleRuntimeImports (runtime : String) (count : Nat)
  | missingDefaultExport
  | invalidExportBinding (expression : String)
  | misorderedModule
  | missingGeneratedSymbol (symbol : String)
  | duplicateImportBinding (name : String)
  | inChild (name : String) (violation : ContractViolation)
  | unparsableOutput
  deriving DecidableEq, Repr

/-- The wording of a violation. -/
def ContractViolation.message : ContractViolation → String
  | missingRuntimeImport runtime => "no import from \"" ++ runtime ++ "\" found"
  | multipleRuntimeImports runtime count =>
    "expected a single import from \"" ++ runtime ++ "\", found " ++ toString count
  | missingDefaultExport => "no default export found"
  | invalidExportBinding expression =>
    "default export `" ++ expression ++ "` is not a plain identifier"
  | misorderedModule => "the import from the runtime module comes after the default export"
  | missingGeneratedSymbol symbol => "expected the generated symbol `" ++ symbol ++ "`"
  | duplicateImportBinding name => "`" ++ name ++ "` is already imported from another module"
  | inChild name violation => "sub-component \"" ++ name ++ "\": " ++ violation.message
  | unparsableOutput => "spliced module is not valid JavaScript"

/-- The runtime import of a module at its place, and the local names it binds, each once. -/
structure RuntimeImport where
  place : Text.Located ImportStatement.NamedImport
  identifiers : List Text
  deriving DecidableEq, Repr

/-- Whether the runtime import binds a local name. -/
def RuntimeImport.binds (statement : RuntimeImport) (name : Text) : Bool :=
  statement.identifiers.contains name

/-- The default export of a module at its place, with its expression, and the exported
identifier. -/
structure DefaultExport where
  place : Text.Located Text
  binding : Text
  deriving DecidableEq, Repr

namespace DefaultExport

/-- A character that can stand in the exported expression. -/
def isExpressionCharacter (c : Char) : Bool := c ≠ ';' && c ≠ '\n'

/-- The last character that is not a line feed, and the text after it. -/
def lastInLine? : Text → Option (Char × Text)
  | [] => none
  | c :: rest =>
    match lastInLine? rest with
    | some found => some found
    | none => if c ≠ '\n' then some (c, rest) else none

/-- The expression after the first words and the text after it. It starts after the blanks; when
nothing else precedes a semicolon or the end, the last blank but the first that is no line feed is
taken for the expression. -/
def readExpression? (text : Text) : Option (Text × Text) :=
  match text.takeWhile Text.isBlank, text.dropWhile Text.isBlank with
  | [], _ => none
  | _ :: blanks, rest =>
    match rest.takeWhile isExpressionCharacter with
    | [] => (lastInLine? blanks).map fun (c, after) => ([c], after ++ rest)
    | expression => some (expression, rest.dropWhile isExpressionCharacter)

/-- The default export at the start of a line: its expression and the text after an optional
semicolon. -/
def read? (text : Text) : Option (Text × Text) := do
  let rest ← Text.dropWord? "export".toList (ImportStatement.skipSpaces text)
  let rest ← Text.skipSomeBlanks? rest
  let rest ← Text.dropWord? "default".toList rest
  let (expression, after) ← readExpression? rest
  some (expression, ImportStatement.dropOptional ';' after)

/-- Default exports as phrases. -/
def reader : Text.PhraseReader Text := fun lineStart text =>
  if lineStart then read? text else none

end DefaultExport

/-- What is expected of generated modules: the module that they take their runtime support from. -/
structure OutputContract where
  runtimeModule : String := "svelte/internal"
  deriving DecidableEq, Repr

namespace OutputContract

/-- The named imports from the runtime module. -/
def runtimeImports (contract : OutputContract) (code : Text) :
    List (Text.Located ImportStatement.NamedImport) :=
  (Text.locations (Text.scanAll ImportStatement.namedImport code)).filter fun place =>
    place.value.source = contract.runtimeModule.toList

/-- The only named import from the runtime module. -/
def runtimeImport (contract : OutputContract) (code : Text) :
    Except ContractViolation RuntimeImport :=
  match contract.runtimeImports code with
  | [] => .error (.missingRuntimeImport contract.runtimeModule)
  | [place] => .ok ⟨place, ImportStatement.localNames place.value.names⟩
  | places => .error (.multipleRuntimeImports contract.runtimeModule places.length)

/-- The last default export and its binding. -/
def defaultExport (code : Text) : Except ContractViolation DefaultExport :=
  match (Text.locations (Text.scanAll DefaultExport.reader code)).getLast? with
  | none => .error .missingDefaultExport
  | some place =>
    let binding := Text.trim place.value
    if Text.isPlainIdentifier binding then .ok ⟨place, binding⟩
    else .error (.invalidExportBinding (String.ofList binding))

/-- The symbol that the module of an inline component declares. -/
def generatedSymbol (parentBinding name : Text) : Text := parentBinding ++ "__".toList ++ name

/-- A runtime import is a piece of the code it was found in. -/
theorem runtimeImport_split {contract : OutputContract} {code : Text} {found : RuntimeImport}
    (h : contract.runtimeImport code = .ok found) :
    found.place.before ++ found.place.text ++ found.place.after = code := by
  unfold runtimeImport at h
  split at h
  · simp at h
  · rename_i place hp
    obtain rfl := Except.ok.inj h
    have hm : place ∈ contract.runtimeImports code := by simp [hp]
    have := Text.locations_split (List.mem_filter.mp hm).1
    rwa [Text.scanAll, Text.sources_scan ImportStatement.namedImport_keepsSuffix] at this
  · simp at h

end OutputContract

end InlineComponents
