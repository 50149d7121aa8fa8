import InlineComponents.Proofs.Package.Queries

/-!
# The nearest manifest decides

A package is looked for in the packages folders of the folder of the importer and of all that
enclose it. The first of them that holds a file for the manifest decides the import, whatever the
file says: one that cannot be read fails the import, one that hides itself leaves it to others and
is noted, and only otherwise does its field count. Of all the files nothing matters but where that
one is, what it holds, and that no nearer one is there.
-/

namespace InlineComponents

/-! ### Manifests -/

namespace Manifest

/-- The path at which the manifest of a package is looked for from a folder. -/
def placeOf (folder : FilePath) (package : String) : FilePath := pathIn (folderIn folder package)

/-- What a manifest says is the JSON text that its bytes encode. -/
def Says (bytes : ByteArray) (content : Json) : Prop :=
  ∃ text, String.fromUTF8? bytes = some text ∧ Json.parse? text = some content

/-- What a manifest says when it hides itself: its `exports` are there and not `null`, and they are
no object with one of the keys that let the manifest through. -/
def Hides (content : Json) : Prop :=
  ∃ exports, content.get? "exports" = some exports ∧ exports ≠ .null ∧
    ∀ fields, exports = .object fields →
      ∀ key ∈ ["./package.json", "./*", "./"], Json.findField? key fields = none

/-- A manifest is hidden when it hides itself. -/
theorem isExposed_eq_false_iff {content : Json} : isExposed content = false ↔ Hides content := by
  unfold isExposed Hides
  cases content.get? "exports" with
  | none => simp
  | some exports =>
    cases exports with
    | null => simp
    | object fields => simp [exposingKeys]
    | bool _ | number _ | string _ | array _ => simp

end Manifest

/-- Among folders, innermost first, the one behind the given ones is the nearest that holds a file
for the manifest of the package, and this is the file. -/
structure FileReader.IsNearest (files : FileReader) (package : String) (nearer : List FilePath)
    (nearest : FilePath) (file : Except String ByteArray) : Prop where
  absent : ∀ folder ∈ nearer, files (Manifest.placeOf folder package) = none
  present : files (Manifest.placeOf nearest package) = some file

namespace Manifest

variable {files : FileReader} {package : String} {nearer : List FilePath} {nearest : FilePath}
  {file : Except String ByteArray}

/-- The search ends at the nearest manifest. -/
theorem search_of_isNearest (h : files.IsNearest package nearer nearest file)
    (farther : List FilePath) :
    search files package (nearer ++ nearest :: farther) =
      ofFile package (folderIn nearest package) (placeOf nearest package) file := by
  have hpresent : files (pathIn (folderIn nearest package)) = some file := h.present
  rw [search_append h.absent, search]
  simp only [hpresent]
  rfl

/-- A manifest that hides itself is hidden. -/
theorem ofFile_of_hides {bytes : ByteArray} {content : Json} (hcontent : Says bytes content)
    (h : Hides content) (package : String) (folder path : FilePath) :
    ofFile package folder path (.ok bytes) = .error (.hidden package) := by
  obtain ⟨text, htext, hparse⟩ := hcontent
  simp only [ofFile, ofBytes, htext, hparse, isExposed_eq_false_iff.mpr h]
  rfl

/-- Any other manifest is found. -/
theorem ofFile_of_not_hides {bytes : ByteArray} {content : Json} (hcontent : Says bytes content)
    (h : ¬ Hides content) (package : String) (folder path : FilePath) :
    ofFile package folder path (.ok bytes) = .ok ⟨folder, content⟩ := by
  obtain ⟨text, htext, hparse⟩ := hcontent
  have hexposed : isExposed content = true :=
    Bool.eq_true_of_not_eq_false (mt isExposed_eq_false_iff.mp h)
  simp only [ofFile, ofBytes, htext, hparse, if_pos hexposed]

/-- There is a nearest manifest unless there is none at all. -/
theorem absent_or_exists_isNearest (files : FileReader) (package : String)
    (folders : List FilePath) :
    (∀ folder ∈ folders, files (placeOf folder package) = none) ∨
      ∃ nearer nearest farther file, folders = nearer ++ nearest :: farther ∧
        files.IsNearest package nearer nearest file := by
  induction folders with
  | nil => exact .inl fun _ h => absurd h List.not_mem_nil
  | cons folder rest ih =>
    cases hfolder : files (placeOf folder package) with
    | some file =>
      exact .inr ⟨[], folder, rest, file, rfl, fun _ h => absurd h List.not_mem_nil, hfolder⟩
    | none =>
      rcases ih with habsent | ⟨nearer, nearest, farther, file, rfl, h⟩
      · exact .inl (List.forall_mem_cons.mpr ⟨hfolder, habsent⟩)
      · exact .inr ⟨folder :: nearer, nearest, farther, file, rfl,
          List.forall_mem_cons.mpr ⟨hfolder, h.absent⟩, h.present⟩

end Manifest

/-! ### What is seen of an import -/

/-- The state of a build with a package noted, if one is. -/
def BuildState.noting (state : BuildState) : Option String → BuildState
  | none => state
  | some package => { state with denials := state.denials.record package }

/-- The package that an answer notes. -/
def Resolution.noted? : Resolution → Option String
  | entry _ => none
  | unresolved => none
  | denied package => some package

/-- An import of a path within a package, or without the field, is left to others. -/
theorem Resolution.ofAnswer_of_left {field specifier : String} {hasSubpath : Bool}
    {folder : FilePath} {content : Json}
    (h : hasSubpath = true ∨ ∀ name, content.get? field ≠ some (.string name)) :
    ofAnswer field specifier hasSubpath (.ok ⟨folder, content⟩) = .ok .unresolved := by
  cases hasSubpath with
  | true => rfl
  | false =>
    have hfield := h.resolve_left Bool.false_ne_true
    have hentry : entryOf? field ⟨folder, content⟩ = none := by
      cases hget : content.get? field with
      | none => simp only [entryOf?, hget, Option.bind_none, Option.map_none]
      | some value =>
        cases value with
        | string name => exact absurd hget (hfield name)
        | _ => simp only [entryOf?, hget]; rfl
    simp only [ofAnswer, hentry]
    rfl

namespace ImportQuery

/-- What is seen of an import that is resolved: its answer, and the package that is noted by it. -/
structure ComesTo (locator : ManifestLocator) (field : String) (query : ImportQuery)
    (answer : Except BuildError (Option FilePath)) (noted : Option String) : Prop where
  answer_eq : query.answer locator field = answer
  afterRun_eq : ∀ state : BuildState,
    state.afterRun (query.resolve locator field) = state.noting noted

/-- What the nearest manifest makes of an import: the answer, and the package that is noted. -/
inductive Decided (field : String) (query : ImportQuery) (package : String) (hasSubpath : Bool)
    (nearest : FilePath) :
    Except String ByteArray → Except BuildError (Option FilePath) → Option String → Prop where
  /-- A file that cannot be read fails the import. -/
  | unreadable {reason : String} :
    Decided field query package hasSubpath nearest (.error reason)
      (.error (.resolve query.specifier (.unreadable reason))) none
  /-- So does a file that is no text. -/
  | undecodable {bytes : ByteArray} (h : String.fromUTF8? bytes = none) :
    Decided field query package hasSubpath nearest (.ok bytes)
      (.error (.resolve query.specifier (.unreadable "stream did not contain valid UTF-8"))) none
  /-- And so does a text that is not JSON. -/
  | malformed {bytes : ByteArray} {text : String} (htext : String.fromUTF8? bytes = some text)
    (h : Json.parse? text = none) :
    Decided field query package hasSubpath nearest (.ok bytes)
      (.error (.resolve query.specifier (.malformed (Manifest.placeOf nearest package)))) none
  /-- A manifest that hides itself leaves the import to others, and its package is noted. -/
  | hidden {bytes : ByteArray} {content : Json} (hcontent : Manifest.Says bytes content)
    (h : Manifest.Hides content) :
    Decided field query package hasSubpath nearest (.ok bytes) (.ok none) (some package)
  /-- An import of the whole package leads to the file that the field names in its folder. -/
  | entry {bytes : ByteArray} {content : Json} {name : String}
    (hcontent : Manifest.Says bytes content) (h : ¬ Manifest.Hides content)
    (hwhole : hasSubpath = false) (hfield : content.get? field = some (.string name)) :
    Decided field query package hasSubpath nearest (.ok bytes)
      (.ok (some ((Manifest.folderIn nearest package).join (.ofString name)))) none
  /-- Any other import is left to others. -/
  | left {bytes : ByteArray} {content : Json} (hcontent : Manifest.Says bytes content)
    (h : ¬ Manifest.Hides content)
    (hother : hasSubpath = true ∨ ∀ name, content.get? field ≠ some (.string name)) :
    Decided field query package hasSubpath nearest (.ok bytes) (.ok none) none

variable {locator : ManifestLocator} {files others : FileReader} {field : String} {package : String}
  {query : ImportQuery} {hasSubpath : Bool} {nearer farther : List FilePath} {nearest : FilePath}
  {file : Except String ByteArray} {answer otherAnswer : Except BuildError (Option FilePath)}
  {noted otherNoted : Option String}

/-- What is seen of an import is one thing only. -/
theorem ComesTo.unique (h : query.ComesTo locator field answer noted)
    (hother : query.ComesTo locator field otherAnswer otherNoted) :
    answer = otherAnswer ∧ noted = otherNoted := by
  refine ⟨h.answer_eq.symm.trans hother.answer_eq, ?_⟩
  have hstate := (h.afterRun_eq {}).symm.trans (hother.afterRun_eq {})
  have hpackages := congrArg (fun state => state.denials.packages) hstate
  cases noted <;> cases otherNoted <;>
    simp_all [BuildState.noting, Denials.record, Denials.insertName]

/-- What is seen of an import that is answered follows from the answer. -/
theorem comesTo_of_result {resolution : Resolution}
    (h : (query.resolve locator field).result = .ok resolution) :
    query.ComesTo locator field (.ok resolution.path?) resolution.noted? where
  answer_eq := by rw [answer, h]; rfl
  afterRun_eq state := by
    rw [resolve, Plugin.afterRun_resolve, ← resolve, h]
    cases resolution <;> rfl

/-- An import that fails notes nothing. -/
theorem comesTo_of_error {error : BuildError}
    (h : (query.resolve locator field).result = .error error) :
    query.ComesTo locator field (.error error) none where
  answer_eq := by rw [answer, h]; rfl
  afterRun_eq state := by
    rw [resolve, Plugin.afterRun_resolve, ← resolve, h]
    rfl

/-- What the nearest manifest makes of an import is what is seen of it, when the locator answers
from the nearest manifest. -/
theorem Decided.comesTo (h : query.Decided field package hasSubpath nearest file answer noted)
    (hresult : (query.resolve locator field).result =
      Resolution.ofAnswer field query.specifier hasSubpath
        (Manifest.ofFile package (Manifest.folderIn nearest package)
          (Manifest.placeOf nearest package) file)) :
    query.ComesTo locator field answer noted := by
  cases h with
  | unreadable => exact comesTo_of_error hresult
  | undecodable htext =>
    simp only [Manifest.ofFile, Manifest.ofBytes, htext] at hresult
    exact comesTo_of_error hresult
  | malformed htext hparse =>
    simp only [Manifest.ofFile, Manifest.ofBytes, htext, hparse] at hresult
    exact comesTo_of_error hresult
  | hidden hcontent hhides =>
    rw [Manifest.ofFile_of_hides hcontent hhides] at hresult
    exact comesTo_of_result hresult
  | entry hcontent hhides hwhole hfield =>
    rw [Manifest.ofFile_of_not_hides hcontent hhides, hwhole] at hresult
    simp only [Resolution.ofAnswer, Resolution.entryOf?, hfield] at hresult
    exact comesTo_of_result hresult
  | left hcontent hhides hother =>
    rw [Manifest.ofFile_of_not_hides hcontent hhides, Resolution.ofAnswer_of_left hother] at hresult
    exact comesTo_of_result hresult

/-- The nearest manifest always makes something of an import. -/
theorem exists_decided (field : String) (query : ImportQuery) (package : String)
    (hasSubpath : Bool) (nearest : FilePath) (file : Except String ByteArray) :
    ∃ answer noted, query.Decided field package hasSubpath nearest file answer noted := by
  cases file with
  | error reason => exact ⟨_, _, .unreadable⟩
  | ok bytes =>
    cases htext : String.fromUTF8? bytes with
    | none => exact ⟨_, _, .undecodable htext⟩
    | some text =>
      cases hparse : Json.parse? text with
      | none => exact ⟨_, _, .malformed htext hparse⟩
      | some content =>
        have hcontent : Manifest.Says bytes content := ⟨text, htext, hparse⟩
        by_cases hhides : Manifest.Hides content
        · exact ⟨_, _, .hidden hcontent hhides⟩
        · by_cases hentry : hasSubpath = false ∧ ∃ name, content.get? field = some (.string name)
          · obtain ⟨hwhole, name, hfield⟩ := hentry
            exact ⟨_, _, .entry hcontent hhides hwhole hfield⟩
          · refine ⟨_, _, .left hcontent hhides ?_⟩
            rw [not_and_or, Bool.not_eq_false, not_exists] at hentry
            exact hentry

/-- How a bare import of a package is decided by the files for the manifest of the package, in the
folders from that of the importer outwards. -/
structure DecidedByNearest (files : FileReader) (field : String) (query : ImportQuery)
    (package : String) (hasSubpath : Bool) : Prop where
  /-- Without any such file the import is left to others, and nothing is noted. -/
  absent :
    (∀ folder ∈ query.folder.ancestors,
      files (Manifest.placeOf folder package) = none) →
    query.ComesTo (.reading files) field (.ok none) none
  /-- Otherwise one of them is the nearest. -/
  exists_nearest :
    ¬ (∀ folder ∈ query.folder.ancestors,
      files (Manifest.placeOf folder package) = none) →
    ∃ nearer nearest farther file,
      query.folder.ancestors = nearer ++ nearest :: farther ∧
      files.IsNearest package nearer nearest file
  /-- What is seen of the import is exactly what the nearest one makes of it. -/
  nearest : ∀ nearer nearest farther file,
    query.folder.ancestors = nearer ++ nearest :: farther →
    files.IsNearest package nearer nearest file →
    ∀ answer noted, query.ComesTo (.reading files) field answer noted ↔
      query.Decided field package hasSubpath nearest file answer noted
  /-- Among other files, of which the nearest is the same, the whole run is the same. -/
  alike : ∀ nearer nearest farther file others,
    query.folder.ancestors = nearer ++ nearest :: farther →
    files.IsNearest package nearer nearest file → others.IsNearest package nearer nearest file →
    query.resolve (.reading others) field = query.resolve (.reading files) field

/-- A bare import of a package is answered from the search in the folders around the importer. -/
theorem result_resolve_reading {package : Text} (files : FileReader) (field : String)
    (hbare : PackageReference.isBare query.specifier.toList = true)
    (hnames : PackageReference.Names query.specifier.toList ⟨package, hasSubpath⟩) :
    (query.resolve (.reading files) field).result =
      Resolution.ofAnswer field query.specifier hasSubpath
        (Manifest.search files (String.ofList package)
          query.folder.ancestors) := by
  rw [result_resolve (.bare hbare hnames)]
  rfl

/-- A bare import is decided by the nearest file for the manifest of its package. -/
theorem decidedByNearest (files : FileReader) (field : String) (query : ImportQuery)
    {package : Text} {hasSubpath : Bool}
    (hbare : PackageReference.isBare query.specifier.toList = true)
    (hnames : PackageReference.Names query.specifier.toList ⟨package, hasSubpath⟩) :
    DecidedByNearest files field query (String.ofList package) hasSubpath where
  absent h := by
    have hresult := result_resolve_reading files field hbare hnames
    rw [← List.append_nil (FilePath.ancestors _), Manifest.search_append h] at hresult
    exact comesTo_of_result hresult
  exists_nearest h := (Manifest.absent_or_exists_isNearest files _ _).resolve_left h
  nearest nearer nearest farther file hfolders h answer noted := by
    have hresult := result_resolve_reading files field hbare hnames
    rw [hfolders, Manifest.search_of_isNearest h] at hresult
    refine ⟨fun hcomes => ?_, fun hdecided => hdecided.comesTo hresult⟩
    obtain ⟨otherAnswer, otherNoted, hdecided⟩ :=
      exists_decided field query (String.ofList package) hasSubpath nearest file
    obtain ⟨rfl, rfl⟩ := hcomes.unique (hdecided.comesTo hresult)
    exact hdecided
  alike nearer nearest farther file others hfolders h hothers := by
    refine resolve_congr fun otherPath place hasks => ?_
    obtain ⟨-, rfl⟩ := Asks.unique (.bare hbare hnames) hasks
    rw [ManifestLocator.reading, ManifestLocator.reading, hfolders,
      Manifest.search_of_isNearest h, Manifest.search_of_isNearest hothers]

/-- What the bytes of a text say is what the text says. -/
theorem says_toUTF8 {text : String} {content : Json} (h : Json.parse? text = some content) :
    Manifest.Says text.toUTF8 content :=
  ⟨text, dif_pos text.isValidUTF8, h⟩

/-- A manifest that hides itself. -/
def hidingManifest : String := "\x7b\"exports\":\"./ui.js\"\x7d"

/-- A manifest that names the entry of its package. -/
def namingManifest : String := "\x7b\"svelte\":\"ui.svelte\"\x7d"

/-- The naming manifest in the packages folder of the outermost folder. -/
def outerPackage : FilePath × ByteArray :=
  (.ofString "node_modules/ui/package.json", namingManifest.toUTF8)

/-- The hiding manifest in the packages folder next to an importer. -/
def innerPackage : FilePath × ByteArray :=
  (.ofString "app/node_modules/ui/package.json", hidingManifest.toUTF8)

/-- An import of the package. -/
def importOfPackage : ImportQuery := ⟨"ui", .ofString "app/App.svelte"⟩

/-- A package that hides its manifest stands in front of one of the same name further out that does
not: the import is left to others, and the package is noted. Without it the import leads to the
entry of the other one. -/
theorem decidedByNearest_of_inner_package :
    importOfPackage.ComesTo (.inTree (.ofFiles [innerPackage, outerPackage])) "svelte"
      (.ok none) (some "ui") ∧
    importOfPackage.ComesTo (.inTree (.ofFiles [outerPackage])) "svelte"
      (.ok (some (.ofString "node_modules/ui/ui.svelte"))) none := by
  have hnames : PackageReference.Names importOfPackage.specifier.toList ⟨"ui".toList, false⟩ :=
    .whole (by decide)
  constructor
  · have hnearest : (FileTree.ofFiles [innerPackage, outerPackage]).reader.IsNearest "ui" []
        (.ofString "app") (.ok hidingManifest.toUTF8) :=
      ⟨fun _ h => absurd h List.not_mem_nil, rfl⟩
    have hcontent : Manifest.Says hidingManifest.toUTF8 (.object [("exports", .string "./ui.js")]) :=
      says_toUTF8 rfl
    have hhides : Manifest.Hides (.object [("exports", .string "./ui.js")]) :=
      ⟨.string "./ui.js", rfl, Json.noConfusion, fun _ h => Json.noConfusion h⟩
    exact ((decidedByNearest _ "svelte" importOfPackage (by decide) hnames).nearest _ _
      [.ofString ""] _ (by decide) hnearest _ _).mpr (.hidden hcontent hhides)
  · have hnearest : (FileTree.ofFiles [outerPackage]).reader.IsNearest "ui" [.ofString "app"]
        (.ofString "") (.ok namingManifest.toUTF8) :=
      ⟨List.forall_mem_singleton.mpr rfl, rfl⟩
    have hcontent : Manifest.Says namingManifest.toUTF8 (.object [("svelte", .string "ui.svelte")]) :=
      says_toUTF8 rfl
    have hhides : ¬ Manifest.Hides (.object [("svelte", .string "ui.svelte")]) := by
      rintro ⟨exports, h, -⟩
      contradiction
    have hentry : FilePath.ofString "node_modules/ui/ui.svelte" =
        (Manifest.folderIn (.ofString "") "ui").join (.ofString "ui.svelte") := by decide
    rw [hentry]
    exact ((decidedByNearest _ "svelte" importOfPackage (by decide) hnames).nearest _ _
      [] _ (by decide) hnearest _ _).mpr (.entry hcontent hhides rfl rfl)

end ImportQuery

end InlineComponents
