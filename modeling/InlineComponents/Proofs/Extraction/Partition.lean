import InlineComponents.Proofs.Extraction.Components
import InlineComponents.Proofs.Outcome

/-!
# The partition of a source

The byte ranges of the components cut a source into the blocks and the stretches that are kept
between them. Each stretch and each body is free of markers, the cleaned source consists of the
stretches, and the blocks put back at their places in it make up the source again.
-/

namespace InlineComponents

open Text

/-! ### Texts without markers -/

namespace Marker

variable {front back text : Text}

/-- Where no marker is read, none is read from a front alone. -/
theorem read?_eq_none_of_append (h : read? (front ++ back) = none) : read? front = none := by
  cases hread : read? front with
  | none => rfl
  | some found =>
    obtain ⟨taken, hspells, rfl⟩ := read?_eq_some_iff.mp hread
    rw [List.append_assoc, read?_append_iff.mpr hspells] at h
    contradiction

/-- A text holds no marker when none is read from a rest of it, whatever stands behind. -/
theorem free_of_read?_append
    (h : ∀ before rest, text = before ++ rest → rest ≠ [] → read? (rest ++ back) = none) :
    Free text := by
  refine free_iff.mpr fun before rest happ => ?_
  by_cases hne : rest = []
  · rw [hne]
    exact reader_advances.read_nil true
  · exact read?_eq_none_of_append (h before rest happ hne)

/-- A stretch of characters that a scan found in no marker holds none. -/
theorem free_of_scan {lineStart : Bool} {whole stretch : Text} {front back : List (Segment Marker)}
    (h : scan reader lineStart whole = front ++ (stretch.map .plain ++ back)) : Free stretch := by
  refine @free_of_read?_append (sources back) stretch fun before rest happ hne => ?_
  obtain ⟨c, rest, rfl⟩ := List.exists_cons_of_ne_nil hne
  have hscan : scan reader lineStart whole =
      front ++ before.map .plain ++ .plain c :: (rest.map .plain ++ back) := by
    rw [h, happ]
    simp
  have hrefused := read_of_scan_plain reader_advances hscan
  simp only [sources_append, sources_map_plain] at hrefused
  exact hrefused

end Marker

/-! ### Slices and stretches -/

namespace Text

/-- A text that is not empty has bytes. -/
theorem byteLength_pos {text : Text} (h : text ≠ []) : 0 < byteLength text := by
  obtain ⟨c, rest, rfl⟩ := List.exists_cons_of_ne_nil h
  exact Nat.add_pos_left c.utf8Size_pos _

/-- The text between two byte offsets. -/
def slice (start stop : Nat) (text : Text) : Text := takeBytes (stop - start) (dropBytes start text)

/-- The text with another one put in at a byte offset. -/
def insertBytes (offset : Nat) (inserted text : Text) : Text :=
  takeBytes offset text ++ inserted ++ dropBytes offset text

/-- Whether a byte offset stands between two characters of a text, or at one of its ends. -/
def IsBoundary (text : Text) (offset : Nat) : Prop :=
  ∃ front back, text = front ++ back ∧ byteLength front = offset

/-- The bytes of the middle are between those of the front and those of the back. -/
theorem slice_append (front middle back : Text) :
    slice (byteLength front) (byteLength front + byteLength middle) (front ++ (middle ++ back)) =
      middle := by
  rw [slice, dropBytes_append, Nat.add_sub_cancel_left, takeBytes_append]

/-- A text put in behind the front stands between the front and the back. -/
theorem insertBytes_append (front inserted back : Text) :
    insertBytes (byteLength front) inserted (front ++ back) = front ++ inserted ++ back := by
  rw [insertBytes, takeBytes_append, dropBytes_append]

end Text

/-- The stretches of a source outside the ranges of components, from a byte offset on. -/
def keptStretches (source : Text) (offset : Nat) : List InlineComponent → List Text
  | [] => [dropBytes offset source]
  | component :: rest =>
    slice offset component.start source :: keptStretches source component.stop rest

/-- A text with the ranges of components put back in, each at its start less the bytes that were
removed in front of it. -/
def reinsert (source : Text) (removed : Nat) : List InlineComponent → Text → Text
  | [], text => text
  | component :: rest, text =>
    insertBytes (component.start - removed) (slice component.start component.stop source)
      (reinsert source (removed + (component.stop - component.start)) rest text)

namespace Extraction

/-- The stretches of kept characters between the blocks among parts, the first one with a text in
front of it. -/
def stretches (front : Text) : List SourcePart → List Text
  | [] => [front]
  | .kept c :: rest => stretches (front ++ [c]) rest
  | .block _ :: rest => front :: stretches [] rest

variable {filename : FilePath} {parts : List SourcePart} {component : InlineComponent}

/-- The stretches together are what remains of the parts. -/
theorem flatten_stretches (front : Text) (parts : List SourcePart) :
    (stretches front parts).flatten = front ++ parts.flatMap SourcePart.remainder := by
  induction parts generalizing front with
  | nil => simp [stretches]
  | cons part rest ih =>
    cases part with
    | kept c => simp [stretches, ih, SourcePart.remainder]
    | block b => simp [stretches, ih, SourcePart.remainder]

/-- Each stretch stands in the segments of the parts. -/
theorem exists_of_mem_stretches {front stretch : Text} (h : stretch ∈ stretches front parts) :
    ∃ before after, front.map .plain ++ parts.flatMap SourcePart.segments =
      before ++ (stretch.map .plain ++ after) := by
  induction parts generalizing front with
  | nil =>
    obtain rfl := List.mem_singleton.mp h
    exact ⟨[], [], rfl⟩
  | cons part rest ih =>
    cases part with
    | kept c =>
      obtain ⟨before, after, happ⟩ := ih h
      refine ⟨before, after, ?_⟩
      rw [← happ]
      simp [SourcePart.segments]
    | block b =>
      rcases List.mem_cons.mp h with rfl | hrest
      · exact ⟨[], _, rfl⟩
      · obtain ⟨before, after, happ⟩ := ih hrest
        rw [List.map_nil, List.nil_append] at happ
        refine ⟨front.map .plain ++ SourcePart.segments (.block b) ++ before, after, ?_⟩
        rw [List.flatMap_cons, happ]
        simp only [List.append_assoc]

/-- The ranges of the components leave the stretches of the parts. -/
theorem keptStretches_componentsAt (filename : FilePath) (done front : Text)
    (parts : List SourcePart) :
    keptStretches (done ++ (front ++ parts.flatMap SourcePart.source)) (byteLength done)
        (componentsAt filename (byteLength done + byteLength front) parts) =
      stretches front parts := by
  induction parts generalizing done front with
  | nil =>
    rw [componentsAt, keptStretches, dropBytes_append, List.flatMap_nil, List.append_nil]
    rfl
  | cons part rest ih =>
    cases part with
    | kept c =>
      have hrest := ih done (front ++ [c])
      rw [byteLength_append, ← Nat.add_assoc, List.append_assoc] at hrest
      exact hrest
    | block b =>
      have hrest := ih (done ++ front ++ b.source) []
      simp only [byteLength_append, byteLength_nil, Nat.add_zero, List.nil_append,
        List.append_assoc, ← Nat.add_assoc] at hrest
      rw [componentsAt, keptStretches, slice_append, stretches, ← hrest]
      rfl

/-- With the ranges of the components put back in, what remains of the parts is their text. -/
theorem reinsert_componentsAt (filename : FilePath) (removed : Nat) (before kept : Text)
    (parts : List SourcePart) (hremoved : byteLength before = removed + byteLength kept) :
    reinsert (before ++ parts.flatMap SourcePart.source) removed
        (componentsAt filename (byteLength before) parts)
        (kept ++ parts.flatMap SourcePart.remainder) =
      kept ++ parts.flatMap SourcePart.source := by
  induction parts generalizing removed before kept with
  | nil => rfl
  | cons part rest ih =>
    cases part with
    | kept c =>
      have hrest := ih removed (before ++ [c]) (kept ++ [c])
        (by simp only [byteLength_append, hremoved, Nat.add_assoc])
      rw [byteLength_append, List.append_assoc, List.append_assoc, List.append_assoc] at hrest
      exact hrest
    | block b =>
      have hrest := ih (removed + byteLength b.source) (before ++ b.source) kept
        (by simp only [byteLength_append, hremoved]; omega)
      rw [byteLength_append, List.append_assoc] at hrest
      have hstart : byteLength before - removed = byteLength kept := by omega
      rw [componentsAt, reinsert, List.flatMap_cons, List.flatMap_cons, SourcePart.source,
        SourcePart.remainder, List.nil_append, Nat.add_sub_cancel_left, hrest, slice_append,
        hstart, insertBytes_append, List.append_assoc]

/-- Components stand one behind the other, none of them before the given offset. -/
theorem pairwise_componentsAt (filename : FilePath) (offset : Nat) (parts : List SourcePart) :
    (componentsAt filename offset parts).Pairwise fun first second =>
      first.stop ≤ second.start := by
  induction parts generalizing offset with
  | nil => exact List.Pairwise.nil
  | cons part rest ih =>
    cases part with
    | kept c => exact ih _
    | block b =>
      refine List.pairwise_cons.mpr ⟨fun component hcomponent => ?_, ih _⟩
      obtain ⟨front, -, -, -, -, hstart, -⟩ := exists_of_mem_componentsAt hcomponent
      rw [hstart]
      exact Nat.le_add_right _ _

variable {source : String} {extraction : Extraction}

/-- A component stands between two texts, as its block with the markers spelled right. -/
theorem exists_spelled_of_mem (h : extract source filename = .ok extraction)
    (hcomponent : component ∈ extraction.components) :
    ∃ (front : Text) (block : Block) (back : Text),
      source.toList = front ++ (block.source ++ back) ∧ block.Spelled ∧
      component.name.toList = block.name ∧ component.body.toList = block.body ∧
      component.start = byteLength front ∧
      component.stop = byteLength front + byteLength block.source := by
  obtain ⟨whole, hwhole, rfl⟩ := map_eq_ok_iff.mp h
  obtain ⟨front, block, back, rfl, hblock, hstart, hstop⟩ := exists_of_mem_componentsAt hcomponent
  have hname : component.name = String.ofList block.name := congrArg InlineComponent.name hblock
  have hbody : component.body = String.ofList block.body := congrArg InlineComponent.body hblock
  rw [Nat.zero_add] at hstart
  refine ⟨front.flatMap SourcePart.source, block, back.flatMap SourcePart.source, ?_,
    spelled_of_scan (parts_eq_ok_iff.mp hwhole).1 block (mem_blocks_append front back block),
    by rw [hname, String.toList_ofList], by rw [hbody, String.toList_ofList], hstart,
    by rw [hstop, hstart]⟩
  rw [← source_parts hwhole, List.flatMap_append, List.flatMap_cons]
  rfl

/-- The range of a component is not empty. -/
theorem start_lt_stop_of_mem (h : extract source filename = .ok extraction)
    (hcomponent : component ∈ extraction.components) : component.start < component.stop := by
  obtain ⟨front, block, back, -, hspelled, -, -, hstart, hstop⟩ :=
    exists_spelled_of_mem h hcomponent
  have hpositive := byteLength_pos hspelled.opening.ne_nil
  rw [hstart, hstop, Block.source, byteLength_append, byteLength_append]
  omega

/-- The ranges of the components are in order, and each ends before the next one starts. -/
theorem pairwise_of_extract (h : extract source filename = .ok extraction) :
    extraction.components.Pairwise fun first second => first.stop ≤ second.start := by
  obtain ⟨whole, -, rfl⟩ := map_eq_ok_iff.mp h
  exact pairwise_componentsAt filename 0 whole

/-- How an extraction divides its source. -/
structure Partitions (source : String) (extraction : Extraction) : Prop where
  /-- No range is empty. -/
  nonempty : ∀ component ∈ extraction.components, component.start < component.stop
  /-- Each range lies within the source. -/
  in_range : ∀ component ∈ extraction.components, component.stop ≤ byteLength source.toList
  /-- Each range starts and ends between characters. -/
  boundaries : ∀ component ∈ extraction.components,
    IsBoundary source.toList component.start ∧ IsBoundary source.toList component.stop
  /-- The ranges are in order, and each ends before the next one starts. -/
  ordered : extraction.components.Pairwise fun first second => first.stop ≤ second.start
  /-- The cleaned source is what stands outside the ranges. -/
  cleaned : extraction.source.toList =
    (keptStretches source.toList 0 extraction.components).flatten
  /-- The ranges put back into the cleaned source give the source. -/
  restored : reinsert source.toList 0 extraction.components extraction.source.toList = source.toList
  /-- Each range holds an opening marker with the name, the body and a closing marker. -/
  ranges : ∀ component ∈ extraction.components, ∃ opening closing,
    Marker.Spells (.opening component.name.toList) opening ∧ Marker.Spells .closing closing ∧
      slice component.start component.stop source.toList =
        opening ++ component.body.toList ++ closing
  /-- No body holds a marker. -/
  bodies_free : ∀ component ∈ extraction.components, Marker.Free component.body.toList
  /-- Nothing that is kept between two ranges holds a marker. -/
  stretches_free : ∀ stretch ∈ keptStretches source.toList 0 extraction.components,
    Marker.Free stretch
  /-- The names are valid. -/
  names_valid : ∀ component ∈ extraction.components,
    Marker.isValidName component.name.toList = true
  /-- No name is used twice. -/
  names_distinct : extraction.names.Nodup

/-- Every extraction divides its source into the blocks and what is kept. -/
theorem partitions (h : extract source filename = .ok extraction) :
    extraction.Partitions source := by
  have hplaces {component : InlineComponent} (hmem : component ∈ extraction.components) :=
    exists_spelled_of_mem h hmem
  obtain ⟨whole, hwhole, hextraction⟩ := map_eq_ok_iff.mp h
  have hsource : whole.flatMap SourcePart.source = source.toList := source_parts hwhole
  have hcomponents : extraction.components = componentsAt filename 0 whole := by
    rw [← hextraction]
    rfl
  have hcleaned : extraction.source.toList = whole.flatMap SourcePart.remainder := by
    rw [← hextraction]
    exact String.toList_ofList
  have hstretches : keptStretches source.toList 0 extraction.components = stretches [] whole := by
    rw [hcomponents, ← hsource]
    exact keptStretches_componentsAt filename [] [] whole
  refine
    { nonempty := fun component hcomponent => start_lt_stop_of_mem h hcomponent
      in_range := fun component hcomponent => ?_
      boundaries := fun component hcomponent => ?_
      ordered := pairwise_of_extract h
      cleaned := by rw [hstretches, flatten_stretches, hcleaned]; rfl
      restored := ?_
      ranges := fun component hcomponent => ?_
      bodies_free := fun component hcomponent => ?_
      stretches_free := fun stretch hstretch => ?_
      names_valid := fun component hcomponent => isValidName_of_mem h hcomponent
      names_distinct := nodup_names h }
  · obtain ⟨front, block, back, htext, -, -, -, -, hstop⟩ := hplaces hcomponent
    rw [hstop, htext, byteLength_append, byteLength_append]
    omega
  · obtain ⟨front, block, back, htext, -, -, -, hstart, hstop⟩ := hplaces hcomponent
    exact ⟨⟨front, _, htext, hstart.symm⟩, ⟨front ++ block.source, back,
      by rw [htext, List.append_assoc], by rw [hstop, byteLength_append]⟩⟩
  · rw [hcomponents, hcleaned, ← hsource]
    exact reinsert_componentsAt filename 0 [] [] whole rfl
  · obtain ⟨front, block, back, htext, hspelled, hname, hbody, hstart, hstop⟩ := hplaces hcomponent
    refine ⟨block.opening, block.closing, hname ▸ hspelled.opening, hspelled.closing, ?_⟩
    rw [hstart, hstop, htext, slice_append, hbody, Block.source]
  · obtain ⟨front, block, back, -, hspelled, -, hbody, -, -⟩ := hplaces hcomponent
    rw [hbody]
    exact Marker.free_of_read?_append hspelled.body
  · rw [hstretches] at hstretch
    obtain ⟨before, after, happ⟩ := exists_of_mem_stretches hstretch
    rw [List.map_nil, List.nil_append, ← (parts_eq_ok_iff.mp hwhole).1] at happ
    exact Marker.free_of_scan happ

/-- Two blocks one right behind the other, between characters of two bytes. -/
theorem partitions_adjacent_blocks : ∃ extraction,
    extract "é\x7b#component A\x7dü\x7b/component\x7d\x7b#component B\x7d\x7b/component\x7dß"
      (.ofString "App.svelte") = .ok extraction ∧
    extraction.components.map (fun component => (component.start, component.stop)) =
      [(2, 30), (30, 56)] ∧
    extraction.Partitions
      "é\x7b#component A\x7dü\x7b/component\x7d\x7b#component B\x7d\x7b/component\x7dß" := by
  have hseen : (extract
      "é\x7b#component A\x7dü\x7b/component\x7d\x7b#component B\x7d\x7b/component\x7dß"
      (.ofString "App.svelte")).toOption.map (fun extraction =>
        extraction.components.map fun component => (component.start, component.stop)) =
      some [(2, 30), (30, 56)] := by decide +kernel
  obtain ⟨extraction, hextract, hranges⟩ := exists_of_map_toOption hseen
  exact ⟨extraction, hextract, hranges, partitions hextract⟩

end Extraction

end InlineComponents
