import InlineComponents.FileTree
import InlineComponents.Json.Reader

/-!
# Package manifests

A manifest is the JSON file of a package. A locator finds the manifest of a package as seen from a
folder. The usual locator looks into the packages folder of each enclosing folder, innermost first;
the first manifest there decides, whatever it says.

A manifest can hide itself: its `exports` then let no path to the manifest through.
-/

namespace InlineComponents

/-- A manifest that was found. -/
structure Manifest where
  folder : FilePath
  content : Json
  deriving BEq, Repr

/-- Why there is no manifest: the package is not found or hides its manifest, or the manifest cannot
be read or is not a JSON text. -/
inductive LookupFailure where
  | notFound (package : String)
  | hidden (package : String)
  | unreadable (reason : String)
  | malformed (path : FilePath)
  deriving DecidableEq, Repr

/-- The wording of a failure. -/
def LookupFailure.message : LookupFailure → String
  | notFound package => "cannot find package \"" ++ package ++ "\""
  | hidden package => "package \"" ++ package ++ "\" does not export its package.json"
  | unreadable reason => reason
  | malformed path => "invalid manifest " ++ path.toString

/-- Finds the manifest of a package as seen from a folder. -/
abbrev ManifestLocator := String → FilePath → Except LookupFailure Manifest

namespace Manifest

/-- The keys of `exports` that let the manifest through. -/
def exposingKeys : List String := ["./package.json", "./*", "./"]

/-- Whether the content of a manifest lets others see the manifest. -/
def isExposed (content : Json) : Bool :=
  match content.get? "exports" with
  | none => true
  | some .null => true
  | some (.object fields) => exposingKeys.any fun key => (Json.findField? key fields).isSome
  | some _ => false

/-- The manifest that the bytes of a file say. -/
def ofBytes (package : String) (folder path : FilePath) (bytes : ByteArray) :
    Except LookupFailure Manifest :=
  match String.fromUTF8? bytes with
  | none => .error (.unreadable "stream did not contain valid UTF-8")
  | some text => match Json.parse? text with
    | none => .error (.malformed path)
    | some content => if isExposed content then .ok ⟨folder, content⟩ else .error (.hidden package)

/-- The folder of a package within the packages folder of another. -/
def folderIn (enclosing : FilePath) (package : String) : FilePath :=
  (enclosing.join (.ofString "node_modules")).join (.ofString package)

/-- The path of the manifest in the folder of a package. -/
def pathIn (folder : FilePath) : FilePath := folder.join (.ofString "package.json")

/-- The manifest that a file says, if it can be read. -/
def ofFile (package : String) (folder path : FilePath) :
    Except String ByteArray → Except LookupFailure Manifest
  | .error reason => .error (.unreadable reason)
  | .ok bytes => ofBytes package folder path bytes

/-- The first manifest of a package in the packages folders of the given folders. -/
def search (files : FileReader) (package : String) : List FilePath → Except LookupFailure Manifest
  | [] => .error (.notFound package)
  | enclosing :: rest =>
    let folder := folderIn enclosing package
    match files (pathIn folder) with
    | some file => ofFile package folder (pathIn folder) file
    | none => search files package rest

/-- Folders without a file for the manifest are passed over. -/
theorem search_append {files : FileReader} {package : String} {nearer : List FilePath}
    (h : ∀ folder ∈ nearer, files (pathIn (folderIn folder package)) = none)
    (folders : List FilePath) :
    search files package (nearer ++ folders) = search files package folders := by
  induction nearer with
  | nil => rfl
  | cons folder rest ih =>
    have hfolder := h folder List.mem_cons_self
    simp only [List.cons_append, search, hfolder]
    exact ih fun other hother => h other (List.mem_cons_of_mem folder hother)

end Manifest

namespace ManifestLocator

/-- The locator that looks into the packages folders, with files read in the given way. -/
def reading (files : FileReader) : ManifestLocator := fun package folder =>
  Manifest.search files package folder.ancestors

/-- The locator that looks into the packages folders of a tree. -/
def inTree (tree : FileTree) : ManifestLocator := reading tree.reader

/-- The locator that answers from a table, wherever it is asked from. -/
def ofTable (table : List (String × Except LookupFailure Manifest)) : ManifestLocator :=
  fun package _ => (table.lookup package).getD (.error (.notFound package))

end ManifestLocator

end InlineComponents
