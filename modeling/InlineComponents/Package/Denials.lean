import InlineComponents.Diagnostics.Log

/-!
# Packages that hide their manifests

While a build goes on, the packages whose manifests were hidden are collected, to be reported once
at the end. The collection is a set: it is kept in ascending order, each package once.
-/

namespace InlineComponents

/-- The packages whose manifests were hidden, in ascending order. -/
structure Denials where
  packages : List String := []
  deriving DecidableEq, Repr

namespace Denials

/-- An ascending list with a name put in its place, unless it is there. -/
def insertName (name : String) : List String → List String
  | [] => [name]
  | other :: rest =>
    if name < other then name :: other :: rest
    else if name = other then other :: rest
    else other :: insertName name rest

/-- Record a package. -/
def record (package : String) (denials : Denials) : Denials :=
  ⟨insertName package denials.packages⟩

/-- Whether no package was recorded. -/
def isEmpty (denials : Denials) : Bool := denials.packages.isEmpty

/-- The line of a package in a report. -/
def packageLine (package : String) : String := "- " ++ package ++ "\n"

/-- The report on the packages in which the given field of the manifest could not be read, if there
are any. -/
def summary? (field : String) (denials : Denials) : Option String :=
  if denials.isEmpty then none
  else some (messageTag ++
    " The following packages did not export their `package.json` file so we could not check" ++
    " the \"" ++
    field ++ "\" field. If you had difficulties importing components from a package, then please" ++
    " contact the author and ask them to export the package.json file.\n" ++
    String.join (denials.packages.map packageLine))

/-- The log lines of a report. -/
def logLines (field : String) (denials : Denials) : List LogLine :=
  (denials.summary? field).toList.map (⟨.warn, ·⟩)

/-- What is put into a list is in it, with what was there. -/
@[simp] theorem mem_insertName {name other : String} {names : List String} :
    other ∈ insertName name names ↔ other = name ∨ other ∈ names := by
  induction names with
  | nil => simp [insertName]
  | cons first rest ih =>
    simp only [insertName]
    split
    · simp
    · split
      · rename_i h
        subst h
        simp
      · simp [ih, or_left_comm]

/-- A recorded package is among the packages, with those recorded before. -/
theorem mem_packages_record {package other : String} {denials : Denials} :
    other ∈ (denials.record package).packages ↔ other = package ∨ other ∈ denials.packages :=
  mem_insertName

end Denials

end InlineComponents
