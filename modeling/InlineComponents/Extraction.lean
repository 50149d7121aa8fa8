import InlineComponents.FilePath
import InlineComponents.Marker

/-!
# Taking inline components out of a source

The markers of a source must form a row of blocks, none inside another, with valid names used
once each. The blocks are taken out; what stands between them is kept as it is. The first fault
from the left decides the error, and a block left open is a fault only at the end.

A source is first cut into parts, kept characters and blocks; the cleaned source and the list of
components, each with its byte range, are read off the parts.
-/

namespace InlineComponents

/-- Why the markers of a source are refused. A closing marker without an opening one is told by its
byte offset. -/
inductive ExtractionFault where
  | invalidName (name : String)
  | nestedBlock (outer inner : String)
  | unterminatedBlock (name : String)
  | duplicateName (name : String)
  | unmatchedClose (offset : Nat)
  deriving DecidableEq, Repr

/-- An inline component that was taken out of a source, with the byte offsets of its opening marker
and behind its closing marker. -/
structure InlineComponent where
  name : String
  body : String
  syntheticFilename : FilePath
  start : Nat
  stop : Nat
  deriving DecidableEq, Repr

/-- A source without its inline components, and the components in source order. -/
structure Extraction where
  source : String
  components : List InlineComponent
  deriving DecidableEq, Repr

/-- A block: the texts of its two markers, the name in the first, and the text between them. -/
structure Block where
  opening : Text
  name : Text
  body : Text
  closing : Text
  deriving DecidableEq, Repr

/-- The whole text of a block. -/
def Block.source (block : Block) : Text := block.opening ++ block.body ++ block.closing

/-- A part of a source: a character outside the blocks, or a block. -/
inductive SourcePart where
  | kept (c : Char)
  | block (block : Block)
  deriving DecidableEq, Repr

/-- The text of a part. -/
def SourcePart.source : SourcePart → Text
  | kept c => [c]
  | block b => b.source

/-- What remains of a part when blocks are deleted. -/
def SourcePart.remainder : SourcePart → Text
  | kept c => [c]
  | block _ => []

namespace Extraction

/-- A block whose closing marker has not been seen, with the text since the opening marker last
character first. -/
structure OpenBlock where
  opening : Text
  name : Text
  reversedBody : Text
  deriving DecidableEq, Repr

/-- The text that an open block has taken in. -/
def OpenBlock.pending : Option OpenBlock → Text
  | none => []
  | some block => block.opening ++ block.reversedBody.reverse

/-- Cut a scanned source into parts, given the names used so far, the byte offset and the open
block, if there is one. -/
def partsFrom (used : List Text) (offset : Nat) (current : Option OpenBlock) :
    List (Text.Segment Marker) → Except ExtractionFault (List SourcePart)
  | [] => match current with
    | none => .ok []
    | some block => .error (.unterminatedBlock (String.ofList block.name))
  | .plain c :: rest => match current with
    | none => (partsFrom used (offset + c.utf8Size) none rest).map (.kept c :: ·)
    | some block =>
      partsFrom used (offset + c.utf8Size)
        (some { block with reversedBody := c :: block.reversedBody }) rest
  | .phrase text (.opening name) :: rest => match current with
    | some outer =>
      .error (.nestedBlock (String.ofList outer.name) (String.ofList name))
    | none =>
      if Marker.isValidName name then
        partsFrom used (offset + Text.byteLength text) (some ⟨text, name, []⟩) rest
      else .error (.invalidName (String.ofList name))
  | .phrase text .closing :: rest => match current with
    | none => .error (.unmatchedClose offset)
    | some block =>
      if used.contains block.name then .error (.duplicateName (String.ofList block.name))
      else
        (partsFrom (block.name :: used) (offset + Text.byteLength text) none rest).map
          (.block ⟨block.opening, block.name, block.reversedBody.reverse, text⟩ :: ·)

/-- The parts of a source. -/
def parts (source : Text) : Except ExtractionFault (List SourcePart) :=
  partsFrom [] 0 none (Text.scanAll Marker.reader source)

/-- The file name of an inline component: the parent's, with the name after two underscores
before the extension. Without an extension the name is put at the end of the path. -/
def syntheticFilename (parent : FilePath) (name : Text) : FilePath :=
  match parent.stem?, parent.extension? with
  | some stem, some extension =>
    parent.withFileName (stem ++ "__".toList ++ name ++ '.' :: extension)
  | _, _ => ⟨parent.text ++ "__".toList ++ name⟩

/-- The components among the parts, the first of which stands at the given byte offset. -/
def componentsAt (filename : FilePath) (offset : Nat) : List SourcePart → List InlineComponent
  | [] => []
  | .kept c :: rest => componentsAt filename (offset + c.utf8Size) rest
  | .block b :: rest =>
    let stop := offset + Text.byteLength b.source
    ⟨String.ofList b.name, String.ofList b.body, syntheticFilename filename b.name, offset, stop⟩ ::
      componentsAt filename stop rest

/-- The extraction that the parts of a source make up. -/
def ofParts (filename : FilePath) (parts : List SourcePart) : Extraction :=
  ⟨String.ofList (parts.flatMap SourcePart.remainder), componentsAt filename 0 parts⟩

/-- Take the inline components out of a source. -/
def extract (source : String) (filename : FilePath) : Except ExtractionFault Extraction :=
  (parts source.toList).map (ofParts filename)

/-- The names of the components in source order. -/
def names (extraction : Extraction) : List String :=
  extraction.components.map InlineComponent.name

/-- Whether the source holds no inline component. -/
def isEmpty (extraction : Extraction) : Bool := extraction.components.isEmpty

/-- A mapped result succeeds with the image of what succeeded. -/
theorem map_eq_ok_iff {α β : Type} {result : Except ExtractionFault α} {f : α → β} {image : β} :
    result.map f = .ok image ↔ ∃ value, result = .ok value ∧ f value = image := by
  cases result <;> simp [Except.map]

/-- What is kept together with the blocks is what was scanned, with an open block in front. -/
theorem source_partsFrom {used : List Text} {offset : Nat} {current : Option OpenBlock}
    {segments : List (Text.Segment Marker)} {result : List SourcePart}
    (h : partsFrom used offset current segments = .ok result) :
    result.flatMap SourcePart.source = OpenBlock.pending current ++ Text.sources segments := by
  induction segments generalizing used offset current result with
  | nil =>
    cases current with
    | none => simp_all [partsFrom, OpenBlock.pending, Text.sources]
    | some block => simp [partsFrom] at h
  | cons segment rest ih =>
    cases segment with
    | plain c =>
      cases current with
      | none =>
        obtain ⟨inner, hin, rfl⟩ := map_eq_ok_iff.mp h
        simp [ih hin, SourcePart.source, OpenBlock.pending, Text.sources, Text.Segment.source]
      | some block =>
        simp only [partsFrom] at h
        simp [ih h, OpenBlock.pending, Text.sources, Text.Segment.source]
    | phrase text marker =>
      cases marker with
      | opening name =>
        cases current with
        | some outer => simp [partsFrom] at h
        | none =>
          simp only [partsFrom] at h
          split at h
          · simp [ih h, OpenBlock.pending, Text.sources, Text.Segment.source]
          · simp at h
      | closing =>
        cases current with
        | none => simp [partsFrom] at h
        | some block =>
          simp only [partsFrom] at h
          split at h
          · simp at h
          · obtain ⟨inner, hin, rfl⟩ := map_eq_ok_iff.mp h
            simp [ih hin, SourcePart.source, Block.source, OpenBlock.pending, Text.sources,
              Text.Segment.source]

/-- The parts of a source put together are the source. -/
theorem source_parts {source : Text} {result : List SourcePart} (h : parts source = .ok result) :
    result.flatMap SourcePart.source = source := by
  have := source_partsFrom h
  simpa [OpenBlock.pending, Text.scanAll, Text.sources_scan Marker.reader_keepsSuffix] using this

end Extraction

end InlineComponents
