import InlineComponents.Extraction
import InlineComponents.Proofs.Extraction.Markers

/-!
# The parts of a source

A source is cut into parts exactly when its scan shows them: a kept character as itself, and a block
as its opening marker, the characters of its body and its closing marker. Parts with well-spelled
markers are found again in their own text when what is kept of it holds no marker, so a block can
be deleted from a source and the others are still found.
-/

namespace InlineComponents

open Text

/-- A block whose markers are spelled right and whose body is ended by its closing marker. -/
structure Block.Spelled (block : Block) : Prop where
  opening : Marker.Spells (.opening block.name) block.opening
  closing : Marker.Spells .closing block.closing
  body : ∀ front back, block.body = front ++ back → back ≠ [] →
    Marker.read? (back ++ block.closing) = none

namespace SourcePart

/-- The part as a block, if it is one. -/
def block? : SourcePart → Option Block
  | kept _ => none
  | block b => some b

/-- What a scan shows of a part. -/
def segments : SourcePart → List (Segment Marker)
  | kept c => [.plain c]
  | block b => .phrase b.opening (.opening b.name) ::
      (b.body.map .plain ++ [.phrase b.closing .closing])

end SourcePart

namespace Extraction

/-- The blocks among parts. -/
def blocks (parts : List SourcePart) : List Block := parts.filterMap SourcePart.block?

/-- The blocks among parts have valid names, each used once and none of them before. -/
structure FreshNames (used : List Text) (parts : List SourcePart) : Prop where
  valid : ∀ block ∈ blocks parts, Marker.isValidName block.name = true
  distinct : ((blocks parts).map (·.name)).Nodup
  fresh : ∀ block ∈ blocks parts, block.name ∉ used

namespace FreshNames

variable {used : List Text} {parts : List SourcePart}

/-- A kept character uses no name. -/
theorem kept_iff {c : Char} : FreshNames used (.kept c :: parts) ↔ FreshNames used parts :=
  ⟨fun ⟨hvalid, hdistinct, hfresh⟩ => ⟨hvalid, hdistinct, hfresh⟩,
    fun ⟨hvalid, hdistinct, hfresh⟩ => ⟨hvalid, hdistinct, hfresh⟩⟩

/-- The first block uses its name up. -/
theorem block_iff {block : Block} :
    FreshNames used (.block block :: parts) ↔ Marker.isValidName block.name = true ∧
      block.name ∉ used ∧ FreshNames (block.name :: used) parts := by
  have hblocks : blocks (.block block :: parts) = block :: blocks parts := rfl
  constructor
  · rintro ⟨hvalid, hdistinct, hfresh⟩
    rw [hblocks] at hvalid hdistinct hfresh
    rw [List.map_cons, List.nodup_cons] at hdistinct
    refine ⟨hvalid block List.mem_cons_self, hfresh block List.mem_cons_self,
      fun other hother => hvalid other (List.mem_cons_of_mem _ hother), hdistinct.2,
      fun other hother hused => ?_⟩
    rcases List.mem_cons.mp hused with hsame | hbefore
    · exact hdistinct.1 (hsame ▸ List.mem_map_of_mem hother)
    · exact hfresh other (List.mem_cons_of_mem _ hother) hbefore
  · rintro ⟨hvalid, hfresh, hrest⟩
    refine ⟨?_, ?_, ?_⟩
    · rw [hblocks, List.forall_mem_cons]
      exact ⟨hvalid, hrest.valid⟩
    · rw [hblocks, List.map_cons, List.nodup_cons]
      refine ⟨fun hmem => ?_, hrest.distinct⟩
      obtain ⟨other, hother, hsame⟩ := List.mem_map.mp hmem
      exact hrest.fresh other hother (hsame ▸ List.mem_cons_self)
    · rw [hblocks, List.forall_mem_cons]
      exact ⟨hfresh, fun other hother hused =>
        hrest.fresh other hother (List.mem_cons_of_mem _ hused)⟩

/-- Fewer blocks use fewer names. -/
theorem of_sublist {fewer : List SourcePart} (h : FreshNames used parts)
    (hfewer : fewer.Sublist parts) : FreshNames used fewer := by
  have hblocks : (blocks fewer).Sublist (blocks parts) := hfewer.filterMap _
  exact ⟨fun block hblock => h.valid block (hblocks.subset hblock),
    h.distinct.sublist (hblocks.map _), fun block hblock => h.fresh block (hblocks.subset hblock)⟩

end FreshNames

/-! ### Parts and segments -/

/-- What a scan has shown of an open block. -/
def pendingSegments : Option OpenBlock → List (Segment Marker)
  | none => []
  | some block => .phrase block.opening (.opening block.name) ::
      block.reversedBody.reverse.map .plain

/-- Parts show what was scanned, with what was shown of an open block in front of it. -/
theorem segments_of_partsFrom {used : List Text} {offset : Nat} {current : Option OpenBlock}
    {segments : List (Segment Marker)} {parts : List SourcePart}
    (hcurrent : ∀ block ∈ current, Marker.isValidName block.name = true)
    (h : partsFrom used offset current segments = .ok parts) :
    pendingSegments current ++ segments = parts.flatMap SourcePart.segments ∧
      FreshNames used parts := by
  induction segments generalizing used offset current parts with
  | nil =>
    cases current with
    | none =>
      obtain rfl := Except.ok.inj h
      exact ⟨rfl, ⟨by simp [blocks], by simp [blocks], by simp [blocks]⟩⟩
    | some block => contradiction
  | cons segment rest ih =>
    cases segment with
    | plain c =>
      cases current with
      | none =>
        obtain ⟨inner, hinner, rfl⟩ := map_eq_ok_iff.mp h
        obtain ⟨hsegments, hnames⟩ := ih (by simp) hinner
        exact ⟨congrArg (Segment.plain c :: ·) hsegments, FreshNames.kept_iff.mpr hnames⟩
      | some block =>
        have htaken : ∀ taken ∈ some { block with reversedBody := c :: block.reversedBody },
            Marker.isValidName taken.name = true := by simpa using hcurrent
        obtain ⟨hsegments, hnames⟩ := ih htaken h
        refine ⟨?_, hnames⟩
        rw [← hsegments]
        simp [pendingSegments]
    | phrase text marker =>
      cases marker with
      | opening name =>
        cases current with
        | some outer => contradiction
        | none =>
          rw [partsFrom] at h
          split at h
          · rename_i hvalid
            exact ih (by simpa using hvalid) h
          · contradiction
      | closing =>
        cases current with
        | none => contradiction
        | some block =>
          rw [partsFrom] at h
          split at h
          · contradiction
          · rename_i hunused
            obtain ⟨inner, hinner, rfl⟩ := map_eq_ok_iff.mp h
            obtain ⟨hsegments, hnames⟩ := ih (by simp) hinner
            refine ⟨?_, FreshNames.block_iff.mpr ⟨hcurrent block rfl, by simpa using hunused, hnames⟩⟩
            rw [List.flatMap_cons, ← hsegments]
            simp [pendingSegments, SourcePart.segments]

/-- An open block takes in characters one after the other. -/
theorem partsFrom_body (used : List Text) (offset : Nat) (block : OpenBlock) (body : Text)
    (rest : List (Segment Marker)) :
    partsFrom used offset (some block) (body.map .plain ++ rest) =
      partsFrom used (offset + byteLength body)
        (some { block with reversedBody := body.reverse ++ block.reversedBody }) rest := by
  induction body generalizing offset block with
  | nil => rfl
  | cons c body ih =>
    rw [List.map_cons, List.cons_append, partsFrom, ih]
    simp [Nat.add_assoc]

/-- Parts with fresh names are read off their segments. -/
theorem partsFrom_segments {used : List Text} {parts : List SourcePart}
    (h : FreshNames used parts) (offset : Nat) :
    partsFrom used offset none (parts.flatMap SourcePart.segments) = .ok parts := by
  induction parts generalizing used offset with
  | nil => rfl
  | cons part rest ih =>
    cases part with
    | kept c =>
      rw [List.flatMap_cons, SourcePart.segments, List.singleton_append, partsFrom,
        ih (FreshNames.kept_iff.mp h)]
      rfl
    | block b =>
      obtain ⟨hvalid, hunused, hrest⟩ := FreshNames.block_iff.mp h
      rw [List.flatMap_cons, SourcePart.segments, List.cons_append, partsFrom, if_pos hvalid,
        List.append_assoc, partsFrom_body, List.singleton_append, partsFrom,
        if_neg (by simpa using hunused), ih hrest]
      simp [Except.map]

/-- A source has the parts that its scan shows, when their names are fresh. -/
theorem parts_eq_ok_iff {source : Text} {result : List SourcePart} :
    parts source = .ok result ↔
      scanAll Marker.reader source = result.flatMap SourcePart.segments ∧ FreshNames [] result := by
  constructor
  · exact segments_of_partsFrom (by simp)
  · rintro ⟨hscan, hnames⟩
    rw [parts, hscan]
    exact partsFrom_segments hnames 0

/-! ### Parts and texts -/

/-- A block among parts stands between others. -/
theorem exists_of_mem_blocks {parts : List SourcePart} {block : Block} (h : block ∈ blocks parts) :
    ∃ front back, parts = front ++ .block block :: back := by
  obtain ⟨part, hpart, hblock⟩ := List.mem_filterMap.mp h
  obtain ⟨front, back, rfl⟩ := List.append_of_mem hpart
  cases part with
  | kept c => contradiction
  | block other =>
    obtain rfl := Option.some.inj hblock
    exact ⟨front, back, rfl⟩

/-- A block that stands between other parts is one of the blocks. -/
theorem mem_blocks_append (front back : List SourcePart) (block : Block) :
    block ∈ blocks (front ++ .block block :: back) := by
  rw [blocks, List.filterMap_append]
  exact List.mem_append_right _ List.mem_cons_self

/-- Blocks that a scan has shown are spelled right. -/
theorem spelled_of_scan {lineStart : Bool} {text : Text} {parts : List SourcePart}
    (h : scan Marker.reader lineStart text = parts.flatMap SourcePart.segments) :
    ∀ block ∈ blocks parts, block.Spelled := by
  intro block hblock
  obtain ⟨front, back, rfl⟩ := exists_of_mem_blocks hblock
  have hsegments : (front ++ .block block :: back).flatMap SourcePart.segments =
      front.flatMap SourcePart.segments ++ .phrase block.opening (.opening block.name) ::
        (block.body.map .plain ++
          .phrase block.closing .closing :: back.flatMap SourcePart.segments) := by
    simp [SourcePart.segments]
  rw [hsegments] at h
  have hclosing : Marker.Spells .closing block.closing := by
    rw [← List.cons_append, ← List.append_assoc] at h
    exact Marker.read?_append_iff.mp (read_of_scan Marker.reader_advances h).2
  refine ⟨Marker.read?_append_iff.mp (read_of_scan Marker.reader_advances h).2, hclosing, ?_⟩
  intro before rest hbody hne
  obtain ⟨c, rest, rfl⟩ := List.exists_cons_of_ne_nil hne
  rw [hbody, List.map_append, List.map_cons, List.append_assoc, List.cons_append,
    ← List.cons_append, ← List.append_assoc] at h
  have hrefused := read_of_scan_plain Marker.reader_advances h
  have htext : c :: sources (rest.map .plain ++ .phrase block.closing .closing ::
      back.flatMap SourcePart.segments) =
        c :: rest ++ block.closing ++ sources (back.flatMap SourcePart.segments) := by
    simp [sources, List.flatMap_map, Segment.source]
  rw [htext, Marker.reader, Marker.read?_append_of_brace
    (List.mem_append_right _ hclosing.brace_mem)] at hrefused
  exact Option.map_eq_none_iff.mp hrefused

/-- Where no marker stands once the blocks are deleted, none stands in front of them either. -/
theorem read?_append_sources {parts : List SourcePart} {front : Text} (hne : front ≠ [])
    (hspelled : ∀ block ∈ blocks parts, block.Spelled ∧ block.name ≠ [])
    (h : Marker.read? (front ++ parts.flatMap SourcePart.remainder) = none) :
    Marker.read? (front ++ parts.flatMap SourcePart.source) = none := by
  induction parts generalizing front with
  | nil => exact h
  | cons part rest ih =>
    by_cases hbrace : '}' ∈ front
    · rw [Marker.read?_append_of_brace hbrace, Option.map_eq_none_iff] at h ⊢
      exact h
    · cases part with
      | kept c =>
        have hnext := @ih (front ++ [c]) (by simp) hspelled (by simpa [SourcePart.remainder] using h)
        simpa [SourcePart.source] using hnext
      | block b =>
        obtain ⟨hb, hname⟩ := hspelled b List.mem_cons_self
        rw [List.flatMap_cons, SourcePart.source, Block.source, List.append_assoc,
          List.append_assoc]
        exact Marker.read?_append_opening hne hbrace hb.opening hname _

/-- Spelled blocks are scanned as what they show, if what is kept around them holds no marker. -/
theorem scan_sources {parts : List SourcePart} {lineStart : Bool}
    (hspelled : ∀ block ∈ blocks parts, block.Spelled ∧ block.name ≠ [])
    (hfree : Marker.Free (parts.flatMap SourcePart.remainder)) :
    scan Marker.reader lineStart (parts.flatMap SourcePart.source) =
      parts.flatMap SourcePart.segments := by
  induction parts generalizing lineStart with
  | nil => simp
  | cons part rest ih =>
    rw [Marker.free_iff] at hfree
    cases part with
    | kept c =>
      have hrefused : Marker.reader lineStart (c :: rest.flatMap SourcePart.source) = none :=
        @read?_append_sources rest [c] (by simp) hspelled (hfree [] _ rfl)
      rw [List.flatMap_cons, SourcePart.source, List.singleton_append, scan_cons_of_none hrefused,
        ih hspelled (Marker.free_iff.mpr fun front back happ =>
          hfree (c :: front) back (congrArg (c :: ·) happ))]
      rfl
    | block b =>
      obtain ⟨⟨hopening, hclosing, hbody⟩, -⟩ := hspelled b List.mem_cons_self
      have hbehind (flag : Bool) (before others : Text) (happ : b.body = before ++ others)
          (hne : others ≠ []) :
          Marker.reader flag (others ++ (b.closing ++ rest.flatMap SourcePart.source)) = none := by
        rw [← List.append_assoc, Marker.reader,
          Marker.read?_append_of_brace (List.mem_append_right _ hclosing.brace_mem),
          hbody before others happ hne]
        rfl
      rw [List.flatMap_cons, SourcePart.source, Block.source, List.append_assoc, List.append_assoc,
        scan_of_some hopening.ne_nil (Marker.read?_append_iff.mpr hopening),
        scan_append_of_none hbehind,
        scan_of_some hclosing.ne_nil (Marker.read?_append_iff.mpr hclosing),
        ih (fun other hother => hspelled other (List.mem_cons_of_mem b hother))
          (Marker.free_iff.mpr hfree)]
      simp [SourcePart.segments]

/-- Some of the parts of a source are the parts of their own text, if what is kept of it holds no
marker. -/
theorem parts_of_sublist {source : Text} {result fewer : List SourcePart}
    (h : parts source = .ok result) (hfewer : fewer.Sublist result)
    (hfree : Marker.Free (fewer.flatMap SourcePart.remainder)) :
    parts (fewer.flatMap SourcePart.source) = .ok fewer := by
  obtain ⟨hscan, hnames⟩ := parts_eq_ok_iff.mp h
  have hfresh := hnames.of_sublist hfewer
  have hspelled (block : Block) (hblock : block ∈ blocks fewer) :
      block.Spelled ∧ block.name ≠ [] :=
    ⟨spelled_of_scan hscan block ((hfewer.filterMap _).subset hblock),
      Marker.ne_nil_of_isValidName (hfresh.valid block hblock)⟩
  exact parts_eq_ok_iff.mpr ⟨scan_sources hspelled hfree, hfresh⟩

end Extraction

end InlineComponents
