import InlineComponents.BuildError
import InlineComponents.Package.Denials
import InlineComponents.Package.Specifier
import InlineComponents.Run

/-!
# Resolving bare imports

A bare import of a package as a whole is resolved to the file that a field of the manifest names.
Without the package, or without the field, it is left to others. A package that hides its manifest
is left to others too, but noted. The locator is asked once for a bare specifier and never for
another one.

The answer depends on nothing that was resolved before: what is noted is part of the answer and is
put on record.
-/

namespace InlineComponents

/-- What comes of resolving an import. It leads to a file or is left to others, which is noted if
the package hides its manifest. -/
inductive Resolution where
  | entry (path : FilePath)
  | unresolved
  | denied (package : String)
  deriving DecidableEq, Repr

namespace Resolution

/-- The file that an import leads to. -/
def path? : Resolution → Option FilePath
  | entry path => some path
  | unresolved => none
  | denied _ => none

/-- The notes with what this answer adds to them. -/
def note (denials : Denials) : Resolution → Denials
  | entry _ => denials
  | unresolved => denials
  | denied package => denials.record package

/-- The file that a field of a manifest names. -/
def entryOf? (field : String) (manifest : Manifest) : Option FilePath :=
  ((manifest.content.get? field).bind Json.asString?).map fun name =>
    manifest.folder.join (.ofString name)

/-- What comes of an answer of the locator, for an import with or without a path within the
package. -/
def ofAnswer (field specifier : String) (hasSubpath : Bool) :
    Except LookupFailure Manifest → Except BuildError Resolution
  | .ok manifest =>
    if hasSubpath then .ok .unresolved
    else match entryOf? field manifest with
      | some path => .ok (.entry path)
      | none => .ok .unresolved
  | .error (.notFound _) => .ok .unresolved
  | .error (.hidden package) => .ok (.denied package)
  | .error failure => .error (.resolve specifier failure)

/-- What an answer puts on record. -/
def events : Resolution → List RunEvent
  | entry _ => []
  | unresolved => []
  | denied package => [.noted package]

/-- The log lines about an answer. -/
def logLines (specifier : String) : Resolution → List LogLine
  | entry path => [⟨.debug, "resolved " ++ specifier ++ " -> " ++ path.toString⟩]
  | unresolved => []
  | denied _ => []

/-- The folder from which an importer sees packages. -/
def folderOf (importer : FilePath) : FilePath :=
  importer.parent?.getD (.ofString ".")

/-- Resolve an import. -/
def resolve (locator : ManifestLocator) (field specifier : String) (importer : FilePath) :
    Run BuildError Resolution :=
  if PackageReference.isBare specifier.toList then do
    let reference := PackageReference.ofSpecifier specifier.toList
    let package := String.ofList reference.package
    let folder := folderOf importer
    .record (.located package folder)
    let answer ← .ofExcept (ofAnswer field specifier reference.hasSubpath (locator package folder))
    .recordAll answer.events
    .logAll (answer.logLines specifier)
    return answer
  else return .unresolved

/-- A specifier that is not bare is left to others. -/
theorem resolve_of_not_bare {locator : ManifestLocator} {field specifier : String}
    {importer : FilePath} (h : PackageReference.isBare specifier.toList = false) :
    resolve locator field specifier importer = pure .unresolved := by
  simp [resolve, h]

/-- The answer for a bare specifier is read off the answer of the locator. -/
theorem result_resolve_of_bare {locator : ManifestLocator} {field specifier : String}
    {importer : FilePath} (h : PackageReference.isBare specifier.toList = true) :
    (resolve locator field specifier importer).result =
      ofAnswer field specifier (PackageReference.ofSpecifier specifier.toList).hasSubpath
        (locator (String.ofList (PackageReference.ofSpecifier specifier.toList).package)
          (folderOf importer)) := by
  simp only [resolve, h, if_true, Run.result_bind, Run.result_record, Run.result_ofExcept]
  simp only [bind, Except.bind]
  cases ofAnswer field specifier (PackageReference.ofSpecifier specifier.toList).hasSubpath
    (locator (String.ofList (PackageReference.ofSpecifier specifier.toList).package)
      (folderOf importer)) <;> rfl

end Resolution

end InlineComponents
