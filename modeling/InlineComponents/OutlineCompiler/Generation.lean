import InlineComponents.OutlineCompiler.Markup

/-!
# The module that an outline generates

The module imports what it needs of the runtime, then what the script imports, and declares one
function and one class. Each component in use is instantiated, each element created. The default
export is the class.
-/

namespace InlineComponents.OutlineCompiler

namespace Markup

/-- The runtime names that the module needs. -/
def runtimeNames (markup : Markup) : List Text :=
  (["SvelteComponent", "init", "safe_not_equal"] ++
    (if markup.elements.isEmpty then [] else ["element", "insert"]) ++
    (if markup.components.isEmpty then [] else ["create_component", "mount_component"]) ++
    if markup.handlesClicks then ["listen"] else []).map String.toList

/-- A number in decimal notation. -/
def number (n : Nat) : Text := (toString n).toList

/-- The texts that a list gives with the position of each item, one after the other. -/
def forEach (items : List Text) (write : Nat → Text → Text) : Text :=
  (items.mapIdx write).flatten

/-- The import of runtime names. -/
def runtimeImport (markup : Markup) : Text :=
  "import \x7b\n\t".toList ++ Text.joinWith ",\n\t".toList markup.runtimeNames ++
    "\n\x7d from \"svelte/internal\";\n".toList

/-- An import of the script. -/
def scriptImportStatement (statement : ScriptImport) : Text :=
  "import ".toList ++ statement.name ++ " from \"".toList ++ statement.source ++ "\";\n".toList

/-- The creation of an element. -/
def elementCreation (index : Nat) (tag : Text) : Text :=
  "\tconst ".toList ++ tag ++ number index ++ " = element(\"".toList ++ tag ++ "\");\n".toList

/-- The instantiation of a component. -/
def componentCreation (index : Nat) (name : Text) : Text :=
  "\tlet c".toList ++ number index ++ ";\n\tc".toList ++ number index ++ " = new ".toList ++ name ++
    "(\x7b props: \x7b\x7d \x7d);\n".toList

/-- The insertion of an element. -/
def elementInsertion (index : Nat) (tag : Text) : Text :=
  "\t\t\tinsert(target, ".toList ++ tag ++ number index ++ ", anchor);\n".toList

/-- The mounting of a component. -/
def componentMounting (index : Nat) (_name : Text) : Text :=
  "\t\t\tmount_component(c".toList ++ number index ++ ", target, anchor);\n".toList

/-- The function that creates and mounts everything in use. -/
def fragment (markup : Markup) : Text :=
  "\nfunction create_fragment(ctx) \x7b\n".toList ++
    forEach markup.elements elementCreation ++
    forEach markup.components componentCreation ++
    "\treturn \x7b\n\t\tm(target, anchor) \x7b\n".toList ++
    forEach markup.elements elementInsertion ++
    forEach markup.components componentMounting ++
    "\t\t\x7d\n\t\x7d;\n\x7d\n\n".toList

/-- The class of the component and its export. -/
def exportedClass (symbol : Text) : Text :=
  "class ".toList ++ symbol ++
    " extends SvelteComponent \x7b\n\tconstructor(options) \x7b\n\t\tsuper();\n".toList ++
    "\t\tinit(this, options, null, create_fragment, safe_not_equal, \x7b\x7d);\n".toList ++
    "\t\x7d\n\x7d\n\nexport default ".toList ++ symbol ++ ";\n".toList

/-- The module of a component with the given symbol. -/
def generate (markup : Markup) (symbol : Text) : Text :=
  "/* generated by stub compiler */\n".toList ++ markup.runtimeImport ++
    markup.imports.flatMap scriptImportStatement ++ markup.fragment ++ exportedClass symbol

end Markup

end InlineComponents.OutlineCompiler
