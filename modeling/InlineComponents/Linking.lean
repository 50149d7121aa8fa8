import InlineComponents.Compilation.Basic
import InlineComponents.Diagnostics.Log
import InlineComponents.Linking.Child
import InlineComponents.Linking.Instantiation

/-!
# Linking inline components into their parent

The children are put in front of the parent's default export, as one region between two comments:
first the imports moved out of the children, then a block for each child. Afterwards every
instantiation of a child is qualified, in the parent and in the children alike, and the result has
to pass a syntax check, which is a parameter.

Only the code of the parent changes; its map, styles and warnings are kept.
-/

namespace InlineComponents

/-- A compiled inline component that is ready to be linked. -/
structure ChildModule where
  name : String
  module : CompiledModule
  deriving BEq, Repr

/-- A parent's code with a region put into it, and the identifier that the parent exports. -/
structure LinkedCode where
  binding : Text
  head : Text
  injected : Text
  tail : Text
  deriving DecidableEq, Repr

namespace LinkedCode

/-- The comment in front of the region. -/
def openingComment : Text := "/* compose: sub-components begin */".toList

/-- The comment after the region. -/
def closingComment : Text := "/* compose: sub-components end */".toList

/-- The region with the given statements and blocks. -/
def region (hoisted blocks : List Text) : Text :=
  openingComment ++ '\n' :: hoisted.flatMap (· ++ ['\n']) ++ Text.joinWith "\n\n".toList blocks ++
    '\n' :: closingComment ++ "\n\n".toList

/-- The code with the region in place. -/
def merged (linked : LinkedCode) : Text := linked.head ++ linked.injected ++ linked.tail

/-- The names that the imports of a parent bind: those of its runtime import first. -/
def parentScope (runtime : RuntimeImport) (code : Text) : ImportScope :=
  .ofTexts (runtime.place.text :: ImportStatement.staticImportTexts code)

/-- Put the children into the parent's code. -/
def link (contract : OutputContract) (code : Text) (children : List ChildCode) :
    Except ContractViolation LinkedCode := do
  let runtime ← contract.runtimeImport code
  let exported ← OutputContract.defaultExport code
  match Text.dropWord? (runtime.place.before ++ runtime.place.text) exported.place.before with
  | none => .error .misorderedModule
  | some _ =>
    let (blocks, final) ←
      wrapChildren contract exported.binding code ⟨parentScope runtime code, []⟩ children
    .ok {
      binding := exported.binding
      head := exported.place.before
      injected := region final.hoisted blocks
      tail := exported.place.text ++ exported.place.after }

end LinkedCode

namespace CompiledModule

/-- Link children that are known to be there into a parent. -/
def linkChildren (accepts : Text → Bool) (contract : OutputContract) (parent : CompiledModule)
    (children : List ChildModule) : Except ContractViolation CompiledModule := do
  let linked ← LinkedCode.link contract parent.code.toList
    (children.map fun child => ⟨child.name.toList, child.module.code.toList⟩)
  let code := Instantiation.qualifyAll linked.binding (children.map (·.name.toList)) linked.merged
  if accepts code then .ok { parent with code := String.ofList code }
  else .error .unparsableOutput

/-- Link children into a parent. Without children the parent is the result, whatever it is. -/
def splice (accepts : Text → Bool) (contract : OutputContract) (parent : CompiledModule)
    (children : List ChildModule) : Except ContractViolation CompiledModule :=
  if children.isEmpty then .ok parent else linkChildren accepts contract parent children

/-- The log lines of a successful linking: none without children. -/
def spliceLog (parent result : CompiledModule) (children : List ChildModule) : List LogLine :=
  if children.isEmpty then []
  else match OutputContract.defaultExport parent.code.toList with
    | .error _ => []
    | .ok exported => [⟨.debug, "spliced " ++ toString children.length ++
        " sub-component(s) into " ++ String.ofList exported.binding ++ " (" ++
        toString (Text.byteLength parent.code.toList) ++ " -> " ++
        toString (Text.byteLength result.code.toList) ++ " bytes)"⟩]

/-- Linking nothing leaves the parent as it is. -/
@[simp] theorem splice_nil (accepts : Text → Bool) (contract : OutputContract)
    (parent : CompiledModule) : splice accepts contract parent [] = .ok parent := rfl

end CompiledModule

end InlineComponents
