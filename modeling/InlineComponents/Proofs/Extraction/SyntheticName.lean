import InlineComponents.Extraction
import InlineComponents.OutlineCompiler
import InlineComponents.OutputContract
import InlineComponents.Proofs.Extraction.Components
import InlineComponents.Proofs.FilePath

/-!
# The files of inline components

The compiler of outlines names a component after its file, and linking expects an inline component
to be named after its parent and itself. The two agree because the file name of an inline component
is that of its parent with the name put behind the stem. The new file stands in the same folder and
has the same extension, and since no name holds an underscore, the parent and the name can be told
from it: files of different inline components never collide.
-/

namespace InlineComponents

open Text

namespace FilePath

variable {path folder : FilePath} {stem extension : Text}

/-- The stem and the extension of a path are the cut of its name at the last dot. -/
theorem LeadsTo.stem?_eq (h : path.LeadsTo folder (stem ++ '.' :: extension)) (hstem : stem ≠ [])
    (hdot : '.' ∉ extension) : path.stem? = some stem ∧ path.extension? = some extension := by
  have hsplit := splitName_eq_iff.mpr ⟨rfl, hstem, hdot⟩
  rw [stem?, extension?, h.fileName, Option.map_some, Option.bind_some, hsplit]
  exact ⟨rfl, rfl⟩

/-- A path with an extension leads to a name that is cut at its last dot. -/
theorem exists_leadsTo_of_extension? (h : path.extension? = some extension) :
    ∃ folder stem, folder.IsTrimmed ∧ path.LeadsTo folder (stem ++ '.' :: extension) ∧ stem ≠ [] ∧
      '.' ∉ extension := by
  obtain ⟨name, hname, hsecond⟩ := Option.bind_eq_some_iff.mp h
  obtain ⟨folder, hfolder, hleads⟩ := exists_leadsTo hname
  have hsplit : splitName name = ((splitName name).1, some extension) := Prod.ext rfl hsecond
  obtain ⟨hcut, hstem, hdot⟩ := splitName_eq_iff.mp hsplit
  exact ⟨folder, (splitName name).1, hfolder, hcut ▸ hleads, hstem, hdot⟩

end FilePath

/-- Where a name starts, an upper-case letter may stand in front. -/
theorem upperCase_of_isPlainStart {c : Char} (h : isPlainStart c = true) :
    upperCase c = [c.toUpper] ∧ isPlainStart c.toUpper = true ∧ c.toUpper.isLower = false := by
  have hascii : c.toNat < 128 := by
    have hplain : c.isAlpha = true ∨ c = '_' ∨ c = '$' := by simpa [isPlainStart, or_assoc] using h
    rcases hplain with halpha | rfl | rfl
    · simp only [isAlpha_eq, isUpper_eq, isLower_eq, Bool.or_eq_true, Bool.and_eq_true,
        decide_eq_true_eq, UInt32.le_iff_toNat_le] at halpha
      have : c.toNat = c.val.toNat := rfl
      rcases halpha with ⟨-, hle⟩ | ⟨-, hle⟩ <;> simp at hle <;> omega
    · decide
    · decide
  refine ⟨if_pos hascii, ?_⟩
  have htable : ∀ n < 128, isPlainStart (Char.ofNat n) = true →
      isPlainStart (Char.ofNat n).toUpper = true ∧ (Char.ofNat n).toUpper.isLower = false := by
    decide
  simpa using htable c.toNat hascii (by simpa using h)

/-- The component of a file with a plain stem is a plain name that does not start with a small
letter. -/
theorem exists_componentName_eq {file : FilePath} {stem : Text} (hstem : file.stem? = some stem)
    (hplain : isPlainIdentifier stem = true) :
    ∃ c rest, stem = c :: rest ∧ componentName file = c.toUpper :: rest ∧
      isPlainIdentifier (componentName file) = true ∧ c.toUpper.isLower = false := by
  obtain ⟨⟨c, rest, rfl, hc⟩, hall⟩ := isPlainIdentifier_iff.mp hplain
  obtain ⟨hupper, hstart, hlower⟩ := upperCase_of_isPlainStart hc
  have hname : componentName file = c.toUpper :: rest := by
    rw [componentName, hstem]
    exact congrArg (· ++ rest) hupper
  refine ⟨c, rest, rfl, hname, ?_, hlower⟩
  rw [hname, isPlainIdentifier, hstart, Bool.true_and]
  exact (Bool.and_eq_true_iff.mp hall).2

namespace Extraction

variable {file folder : FilePath} {stem name extension : Text}

/-- A file with an extension and the file of an inline component of it, with one name behind the
other in one folder. -/
structure NamesAlike (file : FilePath) (name : Text) (folder : FilePath) (stem extension : Text) :
    Prop where
  stem_ne_nil : stem ≠ []
  dot_not_mem : '.' ∉ extension
  parent : file.LeadsTo folder (stem ++ '.' :: extension)
  component : (syntheticFilename file name).LeadsTo folder
    (stem ++ "__".toList ++ name ++ '.' :: extension)

/-- The file of an inline component is named like that of its parent. -/
theorem exists_namesAlike (hfile : file.extension?.isSome = true) (hname : '/' ∉ name) :
    ∃ folder stem extension, NamesAlike file name folder stem extension := by
  obtain ⟨extension, hextension⟩ := Option.isSome_iff_exists.mp hfile
  obtain ⟨folder, stem, hfolder, hleads, hstem, hdot⟩ :=
    FilePath.exists_leadsTo_of_extension? hextension
  have hslash := (FilePath.isFileName_of_fileName? hleads.fileName).slash
  have hnew : FilePath.IsFileName (stem ++ "__".toList ++ name ++ '.' :: extension) := by
    have hmem : '_' ∈ stem ++ "__".toList ++ name ++ '.' :: extension := by simp
    refine ⟨by simp_all, ?_, fun hup => ?_⟩
    · refine Bool.eq_false_iff.mpr fun hidle => ?_
      simp only [FilePath.isIdle, Bool.or_eq_true, decide_eq_true_eq] at hidle
      rcases hidle with hidle | hidle
      · rw [hidle] at hmem
        contradiction
      · rw [hidle] at hmem
        exact absurd hmem (by decide)
    · rw [hup] at hmem
      exact absurd hmem (by decide)
  refine ⟨folder, stem, extension, hstem, hdot, hleads, ?_⟩
  rw [syntheticFilename, (hleads.stem?_eq hstem hdot).1, hextension]
  exact hleads.withFileName hfolder hnew

/-- The stem of the new file is that of its parent with the name behind it. -/
theorem NamesAlike.stem?_eq (h : NamesAlike file name folder stem extension) :
    (syntheticFilename file name).stem? = some (stem ++ "__".toList ++ name) ∧
      (syntheticFilename file name).extension? = some extension := by
  apply h.component.stem?_eq
  · simp
  · exact h.dot_not_mem

end Extraction

/-- A component is named after the stem of its file. -/
theorem componentName_of_stem? {file : FilePath} {c : Char} {rest : Text}
    (h : file.stem? = some (c :: rest)) : componentName file = upperCase c ++ rest := by
  rw [componentName, h]

/-- The component of an inline component's own file has the name that linking asks for. -/
theorem componentName_syntheticFilename {file : FilePath} {name : Text}
    (hfile : file.extension?.isSome = true) (hname : '/' ∉ name) :
    componentName (Extraction.syntheticFilename file name) =
      OutputContract.generatedSymbol (componentName file) name := by
  obtain ⟨folder, stem, extension, h⟩ := Extraction.exists_namesAlike hfile hname
  obtain ⟨c, rest, rfl⟩ := List.exists_cons_of_ne_nil h.stem_ne_nil
  have hown : (Extraction.syntheticFilename file name).stem? =
      some (c :: (rest ++ "__".toList ++ name)) := h.stem?_eq.1
  rw [componentName_of_stem? (h.parent.stem?_eq h.stem_ne_nil h.dot_not_mem).1,
    componentName_of_stem? hown, OutputContract.generatedSymbol]
  simp only [List.append_assoc]

/-- Two texts that are cut at the last occurrence of a character are the same when their parts
are. -/
theorem Text.append_cons_inj {c : Char} {front back otherFront otherBack : Text} (hback : c ∉ back)
    (hother : c ∉ otherBack) :
    front ++ c :: back = otherFront ++ c :: otherBack ↔ front = otherFront ∧ back = otherBack := by
  constructor
  · intro h
    have hcut : splitLast [c] (front ++ c :: back) = some (front, back) :=
      splitLast_eq_some_iff.mpr ⟨rfl, hback⟩
    rw [splitLast_eq_some_iff.mpr ⟨h, hother⟩] at hcut
    obtain ⟨hfront, hsame⟩ := Prod.mk.inj (Option.some.inj hcut)
    exact ⟨hfront.symm, hsame.symm⟩
  · rintro ⟨rfl, rfl⟩
    rfl

/-- Two paths to names are the same path when their folders are and their names are. -/
theorem FilePath.LeadsTo.components_eq_iff {path folder other otherFolder : FilePath}
    {name otherName : Text} (h : path.LeadsTo folder name)
    (hother : other.LeadsTo otherFolder otherName) :
    path.components = other.components ↔
      folder.components = otherFolder.components ∧ name = otherName := by
  rw [h.components, hother.components]
  simp

namespace Extraction

variable {file other folder otherFolder : FilePath}
  {stem otherStem name otherName extension otherExtension : Text}

/-- The files of two inline components are the same path only for one parent and one name. -/
theorem NamesAlike.components_eq_iff (h : NamesAlike file name folder stem extension)
    (hother : NamesAlike other otherName otherFolder otherStem otherExtension)
    (hname : '_' ∉ name) (hotherName : '_' ∉ otherName) :
    (syntheticFilename file name).components = (syntheticFilename other otherName).components ↔
      file.components = other.components ∧ name = otherName := by
  have hunderscore (front back : Text) :
      front ++ "__".toList ++ back = front ++ ['_'] ++ '_' :: back := by simp
  rw [h.component.components_eq_iff hother.component, h.parent.components_eq_iff hother.parent,
    Text.append_cons_inj h.dot_not_mem hother.dot_not_mem,
    Text.append_cons_inj h.dot_not_mem hother.dot_not_mem, hunderscore, hunderscore,
    Text.append_cons_inj hname hotherName, List.append_cancel_right_eq]
  constructor
  · rintro ⟨hfolder, ⟨hstem, hnames⟩, hextension⟩
    exact ⟨⟨hfolder, hstem, hextension⟩, hnames⟩
  · rintro ⟨⟨hfolder, hstem, hextension⟩, hnames⟩
    exact ⟨hfolder, ⟨hstem, hnames⟩, hextension⟩

/-- What the file of an inline component says of it. -/
structure CarriesName (file : FilePath) (name : Text) : Prop where
  /-- Its component is named after the component of the parent and after itself. -/
  componentName : componentName (syntheticFilename file name) =
    OutputContract.generatedSymbol (componentName file) name
  /-- It stands in the folder of the parent. -/
  parent : (syntheticFilename file name).parent? = file.parent?
  /-- It has the extension of the parent. -/
  extension : (syntheticFilename file name).extension? = file.extension?
  /-- It is the file of no other component: files that are the same path belong to parents that are
  the same path and to the same name. -/
  apart : ∀ other otherName, other.extension?.isSome = true → Marker.isValidName otherName = true →
    ((syntheticFilename file name).components = (syntheticFilename other otherName).components ↔
      file.components = other.components ∧ name = otherName)

/-- For a parent with an extension and a valid name, the file of an inline component carries
both. -/
theorem carriesName (hfile : file.extension?.isSome = true)
    (hname : Marker.isValidName name = true) : CarriesName file name := by
  have hslash {text : Text} (h : Marker.isValidName text = true) : '/' ∉ text :=
    Marker.not_mem_of_isValidName h (by decide)
  obtain ⟨folder, stem, extension, h⟩ := exists_namesAlike hfile (hslash hname)
  constructor
  · exact componentName_syntheticFilename hfile (hslash hname)
  · rw [h.component.parent, h.parent.parent]
  · rw [h.stem?_eq.2, (h.parent.stem?_eq h.stem_ne_nil h.dot_not_mem).2]
  · intro other otherName hother hotherName
    obtain ⟨_, _, _, hotherAlike⟩ := exists_namesAlike hother (hslash hotherName)
    apply h.components_eq_iff hotherAlike
    · exact Marker.not_mem_of_isValidName hname (by decide)
    · exact Marker.not_mem_of_isValidName hotherName (by decide)

/-- Idle pieces, dots, underscores and a first letter with a longer upper case do no harm. -/
theorem carriesName_of_sharp_s :
    let file : FilePath := .ofString "./src/.//ßt_.tab.svelte/."
    let name := "Card".toList
    syntheticFilename file name = .ofString "./src/ßt_.tab__Card.svelte" ∧
      file.extension?.isSome = true ∧ Marker.isValidName name = true ∧ CarriesName file name ∧
      InlineComponents.componentName (syntheticFilename file name) = "SSt_.tab__Card".toList := by
  intro file name
  have hfile : file.extension?.isSome = true := by decide +kernel
  have hname : Marker.isValidName name = true := by decide
  exact ⟨by decide +kernel, hfile, hname, carriesName hfile hname, by decide +kernel⟩

end Extraction

end InlineComponents
