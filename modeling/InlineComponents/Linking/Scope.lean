import InlineComponents.Imports.Statement
import InlineComponents.OutputContract

/-!
# The import scope of a linked module

The names that the imports of a module bind at its top level, with what each stands for. The
parent's imports enter first, and of several that bind one name the first counts. A child's
bindings are then either there already, or new, or in conflict with what the name stands for.
-/

namespace InlineComponents

/-- A name bound at the top of a module, and the export it stands for. -/
structure BoundName where
  localName : Text
  source : Text
  imported : Text
  deriving DecidableEq, Repr

/-- The names bound at the top of a module, latest first, no local name twice. -/
structure ImportScope where
  names : List BoundName
  deriving DecidableEq, Repr

namespace ImportScope

/-- The scope before any import. -/
def empty : ImportScope := ⟨[]⟩

/-- What a local name stands for. -/
def find? (scope : ImportScope) (localName : Text) : Option BoundName :=
  scope.names.find? (·.localName = localName)

/-- The scope with one more name. -/
def add (scope : ImportScope) (source : Text) (binding : ImportBinding) : ImportScope :=
  ⟨⟨binding.localName, source, binding.imported⟩ :: scope.names⟩

/-- The scope with those bindings of a statement whose names are still free. -/
def bindFree (scope : ImportScope) (statement : ImportStatement) : ImportScope :=
  statement.bindings.foldl (fun acc binding =>
    if (acc.find? binding.localName).isSome then acc else acc.add statement.source binding) scope

/-- The bindings of a statement that the scope lacks, and the scope with them. A name that stands
for another export is a conflict. -/
def bindNew (scope : ImportScope) (source : Text) :
    List ImportBinding → Except ContractViolation (List ImportBinding × ImportScope)
  | [] => .ok ([], scope)
  | binding :: rest =>
    match scope.find? binding.localName with
    | some bound =>
      if bound.source = source ∧ bound.imported = binding.imported then bindNew scope source rest
      else .error (.duplicateImportBinding (String.ofList binding.localName))
    | none =>
      (bindNew (scope.add source binding) source rest).map fun (fresh, final) =>
        (binding :: fresh, final)

/-- The scope of statements that are read from their texts, the first binding of a name first. -/
def ofTexts (texts : List Text) : ImportScope :=
  (texts.filterMap ImportStatement.parse?).foldl bindFree empty

/-- A name just added is found. -/
@[simp] theorem find?_add_self (scope : ImportScope) (source : Text) (binding : ImportBinding) :
    (scope.add source binding).find? binding.localName =
      some ⟨binding.localName, source, binding.imported⟩ := by
  simp [find?, add]

/-- Adding one name leaves what others stand for. -/
theorem find?_add_of_ne (scope : ImportScope) (source : Text) {binding : ImportBinding}
    {name : Text} (h : name ≠ binding.localName) :
    (scope.add source binding).find? name = scope.find? name := by
  simp [find?, add, Ne.symm h]

end ImportScope

end InlineComponents
