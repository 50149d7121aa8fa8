import InlineComponents.Proofs.Json.Quoted
import InlineComponents.Styles.Asset

/-!
# The import names the asset

The path of an asset is written twice: as the literal that the module imports, and as the key under
which the styles are kept. The literal is quoted, so that it holds together whatever the id of the
module is, and what it decodes to is the key.
-/

namespace InlineComponents.StyleAsset

/-- A literal in the code of a module names the styles that are kept for it. -/
structure NamesStyles (id : String) (css : Css) (module : CompiledModule) (store : AssetStore)
    (literal : String) : Prop where
  /-- Nothing but the code of the module changes: it goes on with a line that imports the literal.
  -/
  importing_eq : module.importing (ofModule id css) =
    { module with code := module.code ++ "\nimport " ++ literal ++ ";\n" }
  /-- The literal stands between one pair of quotes. Between them every quote, backslash and control
  character is escaped, and what is spelled is the path of the asset. -/
  exists_content : ∃ content, literal.toList = '"' :: content ++ ['"'] ∧
    Json.Spells content (pathFor id).toList
  /-- No control character stands in the literal. -/
  le_toNat : ∀ c ∈ literal.toList, 32 ≤ c.toNat
  /-- The escapes of the literal decode to the path of the asset. -/
  parse?_eq : Json.parse? literal = some (.string (pathFor id))
  /-- A script reads the literal as one token, with the characters of the path, and goes on behind
  it. -/
  readToken_eq : ∀ rest, Script.readToken (literal.toList ++ rest) =
    (.string ((pathFor id).toList.map Char.toNat), rest)
  /-- The styles are found under what the literal decodes to. -/
  find?_eq_some : ∀ key, Json.parse? literal = some (.string key) →
    (store.insertAsset (ofModule id css)).find? key = some css
  /-- Under every other path there is what was there before. -/
  find?_eq : ∀ key, Json.parse? literal ≠ some (.string key) →
    (store.insertAsset (ofModule id css)).find? key = store.find? key

/-- The quoted path names the styles. -/
theorem namesStyles_quoteString (id : String) (css : Css) (module : CompiledModule)
    (store : AssetStore) : NamesStyles id css module store (Json.quoteString (pathFor id)) := by
  have hspells := Json.spells_escape (pathFor id).toList
  have hparse := Json.parse?_quoteString (pathFor id)
  have hliteral : (Json.quoteString (pathFor id)).toList =
      '"' :: Json.escape (pathFor id).toList ++ ['"'] := String.toList_ofList
  refine ⟨?_, ⟨_, hliteral, hspells⟩, ?_, hparse, ?_, ?_, ?_⟩
  · simp only [CompiledModule.importing, importStatement, ofModule, String.append_assoc]
  · rw [hliteral]
    refine List.forall_mem_append.mpr ⟨List.forall_mem_cons.mpr ⟨by decide, hspells.le_toNat⟩, ?_⟩
    exact List.forall_mem_singleton.mpr (by decide)
  · intro rest
    rw [hliteral, List.append_assoc]
    exact hspells.readToken_append rest
  · intro key hkey
    obtain rfl : pathFor id = key := Json.string.inj (Option.some.inj (hparse.symm.trans hkey))
    exact AssetStore.find?_insert_self store (pathFor id) css
  · intro key hkey
    have hne : key ≠ pathFor id := by
      rintro rfl
      exact hkey hparse
    exact AssetStore.find?_insert_of_ne store css hne

/-- The module imports a literal that names the styles kept for it, whatever its id is. -/
theorem exists_namesStyles (id : String) (css : Css) (module : CompiledModule) (store : AssetStore) :
    ∃ literal, NamesStyles id css module store literal :=
  ⟨_, namesStyles_quoteString id css module store⟩

/-- Quotes, backslashes and control characters of an id are escaped in the import. -/
example : (ofModule "a\"b\\c\n.d/\u0001é.svelte" ⟨"p", none⟩).importStatement =
    "\nimport \"a\\\"b\\\\c\\n.d/\\u0001é.css\";\n" := by
  decide

end InlineComponents.StyleAsset
