import InlineComponents.Proofs.Extraction.Deletion
import Mathlib.Data.List.Nodup

/-!
# The components of a source

What is known of the components that were taken out of a source: their names are valid, each is used
once, and the file name of a component belongs to its name.
-/

namespace InlineComponents

open Text

/-- A valid name consists of letters and digits. -/
theorem Marker.isAlphanum_of_isValidName {name : Text} (h : isValidName name = true) :
    ∀ c ∈ name, c.isAlphanum = true := by
  cases name with
  | nil => contradiction
  | cons first rest =>
    obtain ⟨hfirst, hrest⟩ := Bool.and_eq_true_iff.mp h
    intro c hc
    rcases List.mem_cons.mp hc with rfl | hbehind
    · simp [Char.isAlphanum, isAlpha_eq, hfirst]
    · exact List.all_eq_true.mp hrest c hbehind

/-- A valid name holds nothing else. -/
theorem Marker.not_mem_of_isValidName {name : Text} (h : isValidName name = true) {c : Char}
    (hc : c.isAlphanum = false) : c ∉ name := fun hmem => by
  rw [isAlphanum_of_isValidName h c hmem] at hc
  contradiction

namespace Extraction

variable {source : String} {filename : FilePath} {extraction : Extraction}
  {component : InlineComponent}

/-- A component has a valid name. -/
theorem isValidName_of_mem (h : extract source filename = .ok extraction)
    (hcomponent : component ∈ extraction.components) :
    Marker.isValidName component.name.toList = true := by
  obtain ⟨whole, hwhole, rfl⟩ := map_eq_ok_iff.mp h
  obtain ⟨front, block, back, rfl, hblock, -⟩ := exists_of_mem_componentsAt hcomponent
  have hname : component.name = String.ofList block.name := congrArg InlineComponent.name hblock
  rw [hname, String.toList_ofList]
  exact (parts_eq_ok_iff.mp hwhole).2.valid block (mem_blocks_append front back block)

/-- The file name of a component belongs to its name. -/
theorem syntheticFilename_of_mem (h : extract source filename = .ok extraction)
    (hcomponent : component ∈ extraction.components) :
    component.syntheticFilename = syntheticFilename filename component.name.toList := by
  obtain ⟨whole, -, rfl⟩ := map_eq_ok_iff.mp h
  obtain ⟨front, block, back, -, hblock, -⟩ := exists_of_mem_componentsAt hcomponent
  have hname : component.name = String.ofList block.name := congrArg InlineComponent.name hblock
  rw [hname, String.toList_ofList]
  exact congrArg InlineComponent.syntheticFilename hblock

/-- The components have the names of the blocks. -/
theorem names_ofParts (filename : FilePath) (parts : List SourcePart) :
    (ofParts filename parts).names = ((blocks parts).map (·.name)).map String.ofList := by
  have hunplaced := congrArg (List.map InlineComponent.name)
    (unplaced_componentsAt filename 0 parts)
  rw [List.map_map, List.map_map] at hunplaced
  rw [names, ofParts, List.map_map]
  exact hunplaced

/-- No two components share a name. -/
theorem nodup_names (h : extract source filename = .ok extraction) : extraction.names.Nodup := by
  obtain ⟨whole, hwhole, rfl⟩ := map_eq_ok_iff.mp h
  rw [names_ofParts]
  exact List.Nodup.map (fun _ _ => String.ofList_inj.mp) (parts_eq_ok_iff.mp hwhole).2.distinct

end Extraction

end InlineComponents
