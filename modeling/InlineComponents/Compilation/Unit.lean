import InlineComponents.BuildError
import InlineComponents.Linking
import InlineComponents.Run

/-!
# Compiling a parent and its inline components

A unit is a parent with its inline components. The parent is compiled first, and nothing else if
that fails. Each inline component is compiled under its own file name, with the options of the
parent; one that fails is left out, and the unit goes on without it.
-/

namespace InlineComponents

/-- An inline component and what its compilation gave. -/
structure ComponentCompilation where
  component : InlineComponent
  outcome : Except CompileError CompiledModule

/-- A compiled parent with its inline components in source order. -/
structure UnitCompilation where
  parent : CompiledModule
  components : List ComponentCompilation

namespace ComponentCompilation

/-- The component as a child to link, if it compiled. -/
def child? (compilation : ComponentCompilation) : Option ChildModule :=
  match compilation.outcome with
  | .ok module => some ⟨compilation.component.name, module⟩
  | .error _ => none

/-- The error of a component, if it did not compile. -/
def error? (compilation : ComponentCompilation) : Option CompileError :=
  match compilation.outcome with
  | .ok _ => none
  | .error error => some error

/-- The log lines about a component of a file: a warning if it is left out. -/
def logLines (file : FilePath) (compilation : ComponentCompilation) : List LogLine :=
  match compilation.outcome with
  | .ok _ => []
  | .error error => [⟨.warn, messageTag ++ " sub-component " ++ compilation.component.name ++
      " in " ++ file.toString ++ " failed to compile and will be left out: " ++ error.message⟩]

/-- Compile an inline component of a parent with the given options. -/
def compile {ε : Type} (compiler : ComponentCompiler) (options : CompileOptions)
    (component : InlineComponent) : Run ε ComponentCompilation := do
  let own := options.forFile component.syntheticFilename
  .record (.compiled component.body own)
  let compilation := ⟨component, compiler.compile component.body own⟩
  .logAll (compilation.logLines options.filename)
  return compilation

end ComponentCompilation

namespace UnitCompilation

/-- The children to link, in source order. -/
def children (unit : UnitCompilation) : List ChildModule :=
  unit.components.filterMap ComponentCompilation.child?

/-- The components that are left out, with their errors. -/
def failures (unit : UnitCompilation) : List (InlineComponent × CompileError) :=
  unit.components.filterMap fun compilation =>
    compilation.error?.map fun error => (compilation.component, error)

/-- Compile the components of a parent one after the other. -/
def compileComponents {ε : Type} (compiler : ComponentCompiler) (options : CompileOptions) :
    List InlineComponent → Run ε (List ComponentCompilation)
  | [] => pure []
  | component :: rest => do
    let first ← ComponentCompilation.compile compiler options component
    let others ← compileComponents compiler options rest
    return first :: others

/-- Compile a parent and its inline components. -/
def compile (compiler : ComponentCompiler) (extraction : Extraction) (options : CompileOptions) :
    Run BuildError UnitCompilation := do
  .record (.compiled extraction.source options)
  let parent ← .ofExcept <|
    (compiler.compile extraction.source options).mapError
      (BuildError.parentCompile options.filename.toString)
  let components ← compileComponents compiler options extraction.components
  return ⟨parent, components⟩

/-- Every component is compiled from its body under its own file name, whatever the others give. -/
theorem result_compileComponents {ε : Type} (compiler : ComponentCompiler)
    (options : CompileOptions) (components : List InlineComponent) :
    (compileComponents (ε := ε) compiler options components).result =
      .ok (components.map fun component => ⟨component,
        compiler.compile component.body (options.forFile component.syntheticFilename)⟩) := by
  induction components with
  | nil => rfl
  | cons component rest ih =>
    simp only [compileComponents, ComponentCompilation.compile, Run.result_bind, ih]
    rfl

end UnitCompilation

end InlineComponents
