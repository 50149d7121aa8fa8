import InlineComponents.Proofs.Extraction.Blocks

/-!
# Deleting a block from a source

Every component tells the byte range of its block. When the bytes of one range are deleted, the
source gives the same extraction without that component, unless what is kept of it holds a marker.
The components behind the deleted block move to the front, and nothing else changes.
-/

namespace InlineComponents

open Text

namespace Text

/-- The text in front of a byte offset. -/
def takeBytes : Nat → Text → Text
  | _, [] => []
  | n, c :: rest => if n = 0 then [] else c :: takeBytes (n - c.utf8Size) rest

/-- The text behind a byte offset. -/
def dropBytes : Nat → Text → Text
  | _, [] => []
  | n, c :: rest => if n = 0 then c :: rest else dropBytes (n - c.utf8Size) rest

/-- The bytes of a front are taken. -/
theorem takeBytes_append (front back : Text) :
    takeBytes (byteLength front) (front ++ back) = front := by
  induction front with
  | nil => cases back <;> rfl
  | cons c rest ih =>
    have hsize := c.utf8Size_pos
    rw [List.cons_append, byteLength_cons, takeBytes, if_neg (by omega), Nat.add_sub_cancel_left, ih]

/-- The bytes of a front are dropped. -/
theorem dropBytes_append (front back : Text) :
    dropBytes (byteLength front) (front ++ back) = back := by
  induction front with
  | nil => cases back <;> rfl
  | cons c rest ih =>
    have hsize := c.utf8Size_pos
    rw [List.cons_append, byteLength_cons, dropBytes, if_neg (by omega), Nat.add_sub_cancel_left, ih]

end Text

/-- A source without the block of a component. -/
def InlineComponent.deleteFrom (component : InlineComponent) (source : String) : String :=
  String.ofList (takeBytes component.start source.toList ++ dropBytes component.stop source.toList)

/-- The component wherever it stands. -/
def InlineComponent.unplaced (component : InlineComponent) : InlineComponent :=
  { component with start := 0, stop := 0 }

/-- The component that a block holds, wherever it stands. -/
def Block.component (filename : FilePath) (block : Block) : InlineComponent :=
  ⟨String.ofList block.name, String.ofList block.body,
    Extraction.syntheticFilename filename block.name, 0, 0⟩

namespace Extraction

variable {filename : FilePath} {offset : Nat} {parts : List SourcePart}
  {component : InlineComponent}

/-- The components are those that the blocks hold. -/
theorem unplaced_componentsAt (filename : FilePath) (offset : Nat) (parts : List SourcePart) :
    (componentsAt filename offset parts).map InlineComponent.unplaced =
      (blocks parts).map (Block.component filename) := by
  induction parts generalizing offset with
  | nil => rfl
  | cons part rest ih =>
    cases part with
    | kept c => exact ih _
    | block b => exact congrArg (b.component filename :: ·) (ih _)

/-- A component tells what its block holds and where the block stands. -/
theorem exists_of_mem_componentsAt (h : component ∈ componentsAt filename offset parts) :
    ∃ front block back, parts = front ++ .block block :: back ∧
      component.unplaced = block.component filename ∧
      component.start = offset + byteLength (front.flatMap SourcePart.source) ∧
      component.stop = component.start + byteLength block.source := by
  induction parts generalizing offset with
  | nil => contradiction
  | cons part rest ih =>
    cases part with
    | kept c =>
      obtain ⟨front, block, back, rfl, hblock, hstart, hstop⟩ := ih h
      refine ⟨.kept c :: front, block, back, rfl, hblock, ?_, hstop⟩
      rw [hstart, List.flatMap_cons, byteLength_append, ← Nat.add_assoc]
      rfl
    | block b =>
      rcases List.mem_cons.mp h with rfl | hrest
      · exact ⟨[], b, rest, rfl, rfl, rfl, rfl⟩
      · obtain ⟨front, block, back, rfl, hblock, hstart, hstop⟩ := ih hrest
        refine ⟨.block b :: front, block, back, rfl, hblock, ?_, hstop⟩
        rw [hstart, List.flatMap_cons, byteLength_append, ← Nat.add_assoc]
        rfl

/-- Deleting the block of a component leaves what stands around it. -/
theorem deleteFrom_eq {front back : List SourcePart} {block : Block} {source : String}
    (hsource : (front ++ .block block :: back).flatMap SourcePart.source = source.toList)
    (hstart : component.start = byteLength (front.flatMap SourcePart.source))
    (hstop : component.stop = component.start + byteLength block.source) :
    component.deleteFrom source = String.ofList ((front ++ back).flatMap SourcePart.source) := by
  have htext : source.toList = front.flatMap SourcePart.source ++
      (block.source ++ back.flatMap SourcePart.source) := by
    rw [← hsource]
    simp [SourcePart.source]
  have htake : takeBytes component.start source.toList = front.flatMap SourcePart.source := by
    rw [hstart, htext, takeBytes_append]
  have hdrop : dropBytes component.stop source.toList = back.flatMap SourcePart.source := by
    rw [hstop, hstart, ← byteLength_append, htext, ← List.append_assoc, dropBytes_append]
  rw [InlineComponent.deleteFrom, htake, hdrop, List.flatMap_append]

/-- Without the block of one component, a source is cleaned to the same text and has the other
components. -/
theorem extract_deleteFrom {source : String} {extraction : Extraction}
    (h : extract source filename = .ok extraction) (hcomponent : component ∈ extraction.components)
    (hfree : Marker.Free extraction.source.toList) :
    ∃ others front back, extract (component.deleteFrom source) filename = .ok others ∧
      others.source = extraction.source ∧
      extraction.components.map InlineComponent.unplaced = front ++ component.unplaced :: back ∧
      others.components.map InlineComponent.unplaced = front ++ back := by
  obtain ⟨whole, hwhole, rfl⟩ := map_eq_ok_iff.mp h
  obtain ⟨front, block, back, rfl, hblock, hstart, hstop⟩ := exists_of_mem_componentsAt hcomponent
  rw [Nat.zero_add] at hstart
  have hremainder : (front ++ .block block :: back).flatMap SourcePart.remainder =
      (front ++ back).flatMap SourcePart.remainder := by
    simp [SourcePart.remainder]
  have hfewer : (front ++ back).Sublist (front ++ .block block :: back) :=
    (List.sublist_cons_self _ back).append_left front
  rw [ofParts, hremainder, String.toList_ofList] at hfree
  refine ⟨ofParts filename (front ++ back), (blocks front).map (Block.component filename),
    (blocks back).map (Block.component filename), ?_, ?_, ?_, ?_⟩
  · rw [extract, deleteFrom_eq (source_parts hwhole) hstart hstop, String.toList_ofList,
      parts_of_sublist hwhole hfewer hfree]
    rfl
  · rw [ofParts, ofParts, hremainder]
  · rw [ofParts, unplaced_componentsAt, hblock, blocks, List.filterMap_append, List.map_append]
    rfl
  · rw [ofParts, unplaced_componentsAt, blocks, List.filterMap_append, List.map_append]
    rfl

end Extraction

end InlineComponents
