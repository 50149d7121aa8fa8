import InlineComponents.Linking.Scope

/-!
# Wrapping a compiled inline component

The module of a child is cut between its runtime import and its default export. The static imports
in between move to the front of the linked module; what is left becomes the body of an initializer
that returns the child's symbol, with those runtime names imported in front of it that the linked
module still lacks.
-/

namespace InlineComponents

/-- A compiled inline component. -/
structure ChildCode where
  name : Text
  code : Text
  deriving DecidableEq, Repr

/-- A child's module cut for linking: its runtime import with the local names, and the text between
it and the default export. -/
structure ChildCut where
  runtimeText : Text
  identifiers : List Text
  between : Text
  deriving DecidableEq, Repr

/-- The part of a linking run that children add to: the names bound so far, and the statements moved
to the front, in order. -/
structure LinkState where
  scope : ImportScope
  hoisted : List Text
  deriving DecidableEq, Repr

namespace ChildCut

/-- Whether a character belongs to a line break. -/
def isLineBreak (c : Char) : Bool := c = '\n' || c = '\r'

/-- The text without line breaks at either end. -/
def trimLineBreaks (text : Text) : Text :=
  Text.dropEndWhile isLineBreak (text.dropWhile isLineBreak)

/-- The static imports between the two statements, trimmed. -/
def statements (cut : ChildCut) : List Text :=
  (ImportStatement.staticImportTexts cut.between).map Text.trim

/-- The text between the two statements without its static imports. -/
def body (cut : ChildCut) : Text := ImportStatement.withoutStaticImports cut.between

/-- The runtime import as a statement. A text that cannot be read stands for the import of its
local names under their own names. -/
def runtimeStatement (contract : OutputContract) (cut : ChildCut) : ImportStatement :=
  (ImportStatement.parse? cut.runtimeText).getD
    ⟨contract.runtimeModule.toList, cut.identifiers.map fun name => ⟨name, name⟩⟩

/-- Cut a child's module. The child has to export and to declare the symbol that its place in the
parent asks for. -/
def ofCode (contract : OutputContract) (symbol code : Text) :
    Except ContractViolation ChildCut := do
  let runtime ← contract.runtimeImport code
  let exported ← OutputContract.defaultExport code
  match Text.dropWord? (runtime.place.before ++ runtime.place.text) exported.place.before with
  | none => .error .misorderedModule
  | some between =>
    let cut : ChildCut := ⟨runtime.place.text, runtime.identifiers, between⟩
    if exported.binding = symbol ∧ Text.containsWord cut.body symbol = true then .ok cut
    else .error (.missingGeneratedSymbol (String.ofList symbol))

end ChildCut

namespace LinkState

/-- Move one static import to the front: its new bindings if it has bindings, and otherwise the
statement itself, unless the parent or the front holds it already. -/
def hoist (parentCode : Text) (state : LinkState) (statement : Text) :
    Except ContractViolation LinkState :=
  let verbatim : LinkState :=
    if Text.occursIn statement parentCode || state.hoisted.contains statement then state
    else { state with hoisted := state.hoisted ++ [statement] }
  match ImportStatement.parse? statement with
  | none => .ok verbatim
  | some parsed =>
    if parsed.bindings.isEmpty then .ok verbatim
    else do
      let (fresh, scope) ← state.scope.bindNew parsed.source parsed.bindings
      if fresh.isEmpty then .ok { state with scope }
      else
        let written := ImportStatement.render ⟨parsed.source, fresh⟩
        .ok ⟨scope, state.hoisted ++ [written]⟩

/-- Move several static imports to the front, one after the other. -/
def hoistAll (parentCode : Text) (state : LinkState) :
    List Text → Except ContractViolation LinkState
  | [] => .ok state
  | statement :: rest => do
    let next ← state.hoist parentCode statement
    next.hoistAll parentCode rest

end LinkState

/-- The block that a child becomes: a comment, the runtime names that are still missing, and the
initializer. -/
def childBlock (binding name body symbol : Text) (runtimeSource : Text)
    (missing : List ImportBinding) : Text :=
  "// ".toList ++ binding ++ '.' :: name ++ '\n' ::
    (match missing with
      | [] => []
      | bindings => ImportStatement.render ⟨runtimeSource, bindings⟩ ++ ['\n']) ++
    binding ++ '.' :: name ++ " = (() => \x7b\n".toList ++ ChildCut.trimLineBreaks body ++
    "\n\treturn ".toList ++ symbol ++ ";\n\x7d)();".toList

/-- Wrap one child, given the parent's binding and code. -/
def wrapChild (contract : OutputContract) (binding parentCode : Text) (state : LinkState)
    (child : ChildCode) : Except ContractViolation (Text × LinkState) := do
  let symbol := OutputContract.generatedSymbol binding child.name
  let cut ← ChildCut.ofCode contract symbol child.code
  let hoisted ← state.hoistAll parentCode cut.statements
  let runtime := cut.runtimeStatement contract
  let (missing, scope) ← hoisted.scope.bindNew runtime.source runtime.bindings
  .ok (childBlock binding child.name cut.body symbol runtime.source missing, { hoisted with scope })

/-- Wrap the children in order. A violation is reported together with the child it was found in. -/
def wrapChildren (contract : OutputContract) (binding parentCode : Text) (state : LinkState) :
    List ChildCode → Except ContractViolation (List Text × LinkState)
  | [] => .ok ([], state)
  | child :: rest =>
    match wrapChild contract binding parentCode state child with
    | .error violation => .error (.inChild (String.ofList child.name) violation)
    | .ok (block, next) =>
      (wrapChildren contract binding parentCode next rest).map fun (blocks, final) =>
        (block :: blocks, final)

/-- As many blocks as children. -/
theorem wrapChildren_length {contract : OutputContract} {binding parentCode : Text}
    {state final : LinkState} {children : List ChildCode} {blocks : List Text}
    (h : wrapChildren contract binding parentCode state children = .ok (blocks, final)) :
    blocks.length = children.length := by
  induction children generalizing state blocks final with
  | nil => simp_all [wrapChildren]
  | cons child rest ih =>
    simp only [wrapChildren] at h
    split at h
    · simp at h
    · rename_i block next hw
      cases hr : wrapChildren contract binding parentCode next rest with
      | error e => simp [hr, Except.map] at h
      | ok result =>
        obtain ⟨inner, last⟩ := result
        simp only [hr, Except.map, Except.ok.injEq, Prod.mk.injEq] at h
        obtain ⟨rfl, rfl⟩ := h
        simp [ih hr]

end InlineComponents
