import InlineComponents.Compilation.Basic
import InlineComponents.Diagnostics.Log
import InlineComponents.Json.Printer

/-!
# Styles as assets

The styles of a module are moved into an asset beside its source, and the module imports the
asset. The assets of a build are kept in a store by their paths.
-/

namespace InlineComponents

/-- The styles of a build by asset path. Each path stands once, in the order in which the paths came
in. -/
structure AssetStore where
  entries : List (String × Css) := []
  deriving BEq, Repr

namespace AssetStore

/-- The entries with one path set. -/
def setEntry (path : String) (css : Css) : List (String × Css) → List (String × Css)
  | [] => [(path, css)]
  | (known, existing) :: rest =>
    if known = path then (path, css) :: rest else (known, existing) :: setEntry path css rest

/-- The first styles of a path. -/
def stylesOf? (path : String) : List (String × Css) → Option Css
  | [] => none
  | (known, css) :: rest => if known = path then some css else stylesOf? path rest

/-- Keep styles under a path, in place of any that were kept there. -/
def insert (store : AssetStore) (path : String) (css : Css) : AssetStore :=
  ⟨setEntry path css store.entries⟩

/-- The styles kept under a path. -/
def find? (store : AssetStore) (path : String) : Option Css := stylesOf? path store.entries

/-- Whether styles are kept under a path. -/
def contains (store : AssetStore) (path : String) : Bool := (store.find? path).isSome

/-- The number of paths. -/
def size (store : AssetStore) : Nat := store.entries.length

/-- Whether nothing is kept. -/
def isEmpty (store : AssetStore) : Bool := store.entries.isEmpty

/-- What was kept last under a path is found there. -/
@[simp] theorem find?_insert_self (store : AssetStore) (path : String) (css : Css) :
    (store.insert path css).find? path = some css := by
  obtain ⟨entries⟩ := store
  induction entries with
  | nil => simp [insert, find?, setEntry, stylesOf?]
  | cons entry rest ih =>
    simp only [insert, find?, setEntry] at ih ⊢
    split
    · simp [stylesOf?]
    · rename_i h
      simpa [stylesOf?, h] using ih

/-- Keeping styles under one path changes no other. -/
theorem find?_insert_of_ne {path other : String} (store : AssetStore) (css : Css)
    (h : other ≠ path) : (store.insert path css).find? other = store.find? other := by
  obtain ⟨entries⟩ := store
  induction entries with
  | nil => simp [insert, find?, setEntry, stylesOf?, Ne.symm h]
  | cons entry rest ih =>
    simp only [insert, find?, setEntry] at ih ⊢
    split
    · rename_i hk
      simp [stylesOf?, hk, Ne.symm h]
    · simp [stylesOf?, ih]

end AssetStore

/-- The styles of a module as an asset, and the path under which the module imports them. -/
structure StyleAsset where
  path : String
  css : Css
  deriving BEq, Repr

namespace StyleAsset

/-- The path of the asset that belongs to a module id: the id with another extension, or with one
more if it has none. -/
def pathFor (id : String) : String :=
  match (FilePath.ofString id).replaceExtension? "css".toList with
  | some path => path.toString
  | none => id ++ ".css"

/-- The asset of a module. -/
def ofModule (id : String) (css : Css) : StyleAsset := ⟨pathFor id, css⟩

/-- The statement that imports the asset, on a line of its own. -/
def importStatement (asset : StyleAsset) : String :=
  "\nimport " ++ Json.quoteString asset.path ++ ";\n"

/-- Note that the styles of a module became an asset. -/
def logLine (id : String) (asset : StyleAsset) : LogLine :=
  ⟨.debug, id ++ ": cached " ++ toString asset.css.code.utf8ByteSize ++ " bytes of styles at " ++
    asset.path⟩

end StyleAsset

/-- The module with an import of an asset at its end. -/
def CompiledModule.importing (module : CompiledModule) (asset : StyleAsset) : CompiledModule :=
  { module with code := module.code ++ asset.importStatement }

/-- Keep an asset. -/
def AssetStore.insertAsset (store : AssetStore) (asset : StyleAsset) : AssetStore :=
  store.insert asset.path asset.css

end InlineComponents
