import InlineComponents.Options
import InlineComponents.Proofs.FilePath
import InlineComponents.Styles.Asset

/-!
# Which modules share an asset

The path of an asset is the id of its module with another extension. It forgets the extension and
the idle pieces written behind the name, so ids that agree up to there share their asset, and no
others do. One exception comes from names such as `..svelte`: without its extension the path ends in
`..`, which gets no new one.
-/

namespace InlineComponents

namespace FilePath

/-- A path cut around the extension of its name, with the idle pieces written behind the name. -/
structure ExtensionCut where
  folder : Text
  stem : Text
  extension : Text
  behind : Text
  deriving DecidableEq, Repr

namespace ExtensionCut

/-- What is written up to the last dot of the name. -/
def trunk (cut : ExtensionCut) : Text := cut.folder ++ cut.stem

/-- Whether the path ends in `..` without its extension, the step to the enclosing folder. -/
def leavesUpward (cut : ExtensionCut) : Bool := cut.stem = ['.'] && cut.behind = []

end ExtensionCut

/-- The cut of a path around its extension, if it has one. -/
def extensionCut? (path : FilePath) : Option ExtensionCut :=
  match path.ending? with
  | none => none
  | some ending =>
    if ending.piece = upward then none
    else match splitName ending.piece with
      | (_, none) => none
      | (stem, some extension) => some ⟨ending.before, stem, extension, ending.after⟩

/-- The extension of a path is where it is cut. -/
theorem extension?_eq_map_extensionCut? (path : FilePath) :
    path.extension? = path.extensionCut?.map (·.extension) := by
  unfold extension? fileName? extensionCut?
  cases path.ending? with
  | none => rfl
  | some ending =>
    simp only
    split
    · rfl
    · simp only [Option.bind_some]
      cases hsplit : splitName ending.piece with
      | mk stem extension => cases extension <;> rfl

/-- A path is cut within its last piece. -/
theorem exists_of_extensionCut? {path : FilePath} {cut : ExtensionCut}
    (h : path.extensionCut? = some cut) :
    ∃ ending, path.ending? = some ending ∧ ending.piece ≠ upward ∧
      splitName ending.piece = (cut.stem, some cut.extension) ∧ ending.before = cut.folder ∧
      ending.after = cut.behind := by
  unfold extensionCut? at h
  split at h
  · contradiction
  · rename_i ending hending
    split at h
    · contradiction
    · rename_i hpiece
      split at h
      · contradiction
      · rename_i stem extension hsplit
        obtain rfl := Option.some.inj h
        exact ⟨ending, hending, hpiece, hsplit, rfl, rfl⟩

/-- The cut loses nothing of the path. -/
theorem text_of_extensionCut? {path : FilePath} {cut : ExtensionCut}
    (h : path.extensionCut? = some cut) :
    path.text = cut.trunk ++ '.' :: cut.extension ++ cut.behind := by
  obtain ⟨ending, hending, -, hsplit, hbefore, hafter⟩ := exists_of_extensionCut? h
  rw [text_of_ending? hending, (splitName_eq_iff.mp hsplit).1, hbefore, hafter, ExtensionCut.trunk]
  simp only [List.append_assoc, List.cons_append]

/-- Another extension is put behind the trunk of the path, unless the path ends in `..` without
its own. -/
theorem replaceExtension?_of_extensionCut? {path : FilePath} {cut : ExtensionCut}
    (h : path.extensionCut? = some cut) (extension : Text) :
    path.replaceExtension? extension =
      some ⟨cut.trunk ++ '.' :: if cut.leavesUpward then [] else extension⟩ := by
  obtain ⟨ending, hending, hpiece, hsplit, hbefore, hafter⟩ := exists_of_extensionCut? h
  rw [replaceExtension?, hending]
  simp only [if_neg hpiece, hsplit, hbefore, hafter]
  change (if cut.leavesUpward then _ else _) = _
  cases hleaves : cut.leavesUpward with
  | true =>
    have hstem : cut.stem = ['.'] := by
      simp only [ExtensionCut.leavesUpward, Bool.and_eq_true, decide_eq_true_eq] at hleaves
      exact hleaves.1
    rw [if_pos rfl, if_pos rfl, ExtensionCut.trunk, hstem, List.append_assoc]
    rfl
  | false =>
    rw [if_neg Bool.false_ne_true, if_neg Bool.false_ne_true]
    rfl

end FilePath

/-- A path that is handled has an extension. -/
theorem PluginOptions.isSome_of_handlesExtension {options : PluginOptions} {path : FilePath}
    (h : options.handlesExtension path = true) : path.extension?.isSome = true := by
  unfold handlesExtension at h
  split at h
  · contradiction
  · rename_i extension hextension
    rw [hextension]
    rfl

namespace StyleAsset

/-- Two module ids share their asset when they agree up to the last dot of their names, and both or
neither of them end in `..` without their extensions. -/
def SharedBy (first second : String) : Prop :=
  ∃ one other, (FilePath.ofString first).extensionCut? = some one ∧
    (FilePath.ofString second).extensionCut? = some other ∧ one.trunk = other.trunk ∧
    one.leavesUpward = other.leavesUpward

/-- The path of the asset of a module whose id has an extension. -/
theorem pathFor_of_extensionCut? {id : String} {cut : FilePath.ExtensionCut}
    (h : (FilePath.ofString id).extensionCut? = some cut) :
    pathFor id = String.ofList
      (cut.trunk ++ '.' :: if cut.leavesUpward then [] else "css".toList) := by
  rw [pathFor, FilePath.replaceExtension?_of_extensionCut? h]
  rfl

/-- Modules whose ids have extensions have one asset path exactly when they share their asset. -/
theorem pathFor_eq_iff {first second : String}
    (hfirst : (FilePath.ofString first).extension?.isSome = true)
    (hsecond : (FilePath.ofString second).extension?.isSome = true) :
    pathFor first = pathFor second ↔ SharedBy first second := by
  rw [FilePath.extension?_eq_map_extensionCut?, Option.isSome_map, Option.isSome_iff_exists]
    at hfirst hsecond
  obtain ⟨one, hone⟩ := hfirst
  obtain ⟨other, hother⟩ := hsecond
  have hshared : SharedBy first second ↔
      one.trunk = other.trunk ∧ one.leavesUpward = other.leavesUpward := by
    simp [SharedBy, hone, hother]
  rw [hshared, pathFor_of_extensionCut? hone, pathFor_of_extensionCut? hother,
    String.ofList_inj]
  -- The two endings differ in their last characters.
  cases one.leavesUpward <;> cases other.leavesUpward
  case true.true | false.false => simp
  case true.false | false.true =>
    refine iff_of_false (fun h => ?_) (by simp)
    have := congrArg List.getLast? h
    simp [List.getLast?_append] at this

/-- With a single extension, ids without idle pieces at their ends share an asset only with
themselves. -/
theorem eq_of_sharedBy {options : PluginOptions} {extension first second : String}
    (hextensions : options.extensions = [extension])
    (hfirst : options.handlesExtension (.ofString first) = true)
    (hsecond : options.handlesExtension (.ofString second) = true)
    (hplain : ∀ id ∈ [first, second], ∀ cut, (FilePath.ofString id).extensionCut? = some cut →
      cut.behind = []) (h : SharedBy first second) : first = second := by
  obtain ⟨one, other, hone, hother, htrunk, -⟩ := h
  have hext {id : String} {cut : FilePath.ExtensionCut}
      (hcut : (FilePath.ofString id).extensionCut? = some cut)
      (hhandles : options.handlesExtension (.ofString id) = true) :
      String.ofList ('.' :: cut.extension) = extension := by
    rw [PluginOptions.handlesExtension, FilePath.extension?_eq_map_extensionCut?, hcut,
      hextensions] at hhandles
    simpa using hhandles
  have hsame : '.' :: one.extension = '.' :: other.extension := by
    rw [← String.ofList_inj, hext hone hfirst, hext hother hsecond]
  have htext : (FilePath.ofString first).text = (FilePath.ofString second).text := by
    rw [FilePath.text_of_extensionCut? hone, FilePath.text_of_extensionCut? hother, htrunk, hsame,
      hplain first (by simp) one hone, hplain second (by simp) other hother]
  exact String.toList_inj.mp htext

end StyleAsset

end InlineComponents
