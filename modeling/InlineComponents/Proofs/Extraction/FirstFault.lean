import InlineComponents.Proofs.Extraction.Partition
import InlineComponents.Proofs.Extraction.Rows
import Mathlib.Data.List.Pairwise

/-!
# The first fault of a source

A source is accepted when its markers form a row of closed blocks. Otherwise the first marker that
does not continue such a row decides the error, or the end of the source if a block is still open
there. In an accepted source every marker that stands anywhere belongs to a block.
-/

namespace InlineComponents

open Text

/-- Whether a marker with its text at a byte offset opens or closes the block of a component: the
block starts with an opening marker that has the name and ends with a closing marker. -/
def InlineComponent.IsDelimitedBy (component : InlineComponent) (offset : Nat) (text : Text) :
    Marker → Prop
  | .opening name => component.start = offset ∧ component.name.toList = name
  | .closing => component.stop = offset + byteLength text

/-! ### Cutting a scanned source into parts -/

namespace Extraction

/-- The state of a row when a source is cut into parts. -/
def rowState (used : List Text) (current : Option OpenBlock) : RowState :=
  ⟨used.reverse, current.map (·.name)⟩

/-- Cutting a source into parts fails exactly as the run over its markers does. -/
theorem partsFrom_eq_error_iff {used : List Text} {offset : Nat} {current : Option OpenBlock}
    {segments : List (Segment Marker)} {fault : ExtractionFault} :
    partsFrom used offset current segments = .error fault ↔
      (rowState used current).run offset (locations segments) = .error fault := by
  induction segments generalizing used offset current with
  | nil => cases current <;> simp [partsFrom, locations, RowState.run, RowState.finish, rowState]
  | cons segment rest ih =>
    cases segment with
    | plain c =>
      have hshift : (rowState used current).run offset (locations (.plain c :: rest)) =
          (rowState used current).run (offset + c.utf8Size) (locations rest) :=
        RowState.run_shift _ _ [c] _
      rw [hshift]
      cases current with
      | none => rw [← ih, partsFrom, map_eq_error_iff]
      | some block => rw [partsFrom, ih]; rfl
    | phrase text marker =>
      have hshift (state : RowState) :
          state.run offset ((locations rest).map (.shift text)) =
            state.run (offset + byteLength text) (locations rest) :=
        RowState.run_shift state offset text _
      rw [locations, RowState.run]
      simp only [hshift]
      change _ ↔ ((rowState used current).step offset marker >>= fun next =>
        next.run (offset + byteLength text) (locations rest)) = .error fault
      simp only [rowState]
      cases marker with
      | opening name =>
        cases current with
        | some outer => simp [partsFrom, RowState.step, bind_eq_error_iff]
        | none =>
          rw [partsFrom]
          split
          · rename_i hvalid
            rw [ih]
            simp [RowState.step, bind_eq_error_iff, hvalid, rowState]
          · rename_i hinvalid
            simp [RowState.step, bind_eq_error_iff, hinvalid]
      | closing =>
        cases current with
        | none => simp [partsFrom, RowState.step, bind_eq_error_iff]
        | some block =>
          rw [partsFrom]
          split
          · rename_i hused
            have hmem : block.name ∈ used := by simpa using hused
            simp [RowState.step, bind_eq_error_iff, hmem]
          · rename_i hunused
            have hmem : block.name ∉ used := by simpa using hunused
            rw [map_eq_error_iff, ih]
            simp [RowState.step, bind_eq_error_iff, hmem, rowState]

/-! ### Markers and components -/

variable {filename : FilePath} {parts : List SourcePart} {source : String}
  {extraction : Extraction} {marker : Marker} {front taken back : Text}

/-- Parts show the two markers of each block. -/
theorem phraseValues_segments (parts : List SourcePart) :
    phraseValues (parts.flatMap SourcePart.segments) =
      (blocks parts).flatMap fun block => [.opening block.name, .closing] := by
  induction parts with
  | nil => rfl
  | cons part rest ih =>
    cases part with
    | kept c => exact ih
    | block b =>
      rw [List.flatMap_cons, SourcePart.segments, phraseValues_append, ih,
        ← List.singleton_append, phraseValues_append, phraseValues_append, phraseValues_map_plain]
      rfl

/-- The markers of a source that was accepted form a row of the blocks of its components. -/
theorem isRow_of_extract (h : extract source filename = .ok extraction) :
    IsRow ((locations (scanAll Marker.reader source.toList)).map (·.value))
      ⟨extraction.names.map String.toList, none⟩ := by
  obtain ⟨whole, hwhole, rfl⟩ := map_eq_ok_iff.mp h
  obtain ⟨hscan, hfresh⟩ := parts_eq_ok_iff.mp hwhole
  have hnames : (ofParts filename whole).names.map String.toList = (blocks whole).map (·.name) := by
    rw [names_ofParts, List.map_map]
    exact (List.map_congr_left fun name _ => String.toList_ofList).trans (List.map_id _)
  rw [map_value_locations, hscan, phraseValues_segments, hnames]
  refine ⟨by simp [List.flatMap_map], fun name hname => ?_, hfresh.distinct⟩
  simp only [Option.toList_none, List.append_nil] at hname
  obtain ⟨block, hblock, rfl⟩ := List.mem_map.mp hname
  exact hfresh.valid block hblock

/-- A marker among the segments of parts belongs to a component. -/
theorem exists_delimited {before after : List (Segment Marker)} {text : Text}
    (h : parts.flatMap SourcePart.segments = before ++ .phrase text marker :: after)
    (filename : FilePath) (offset : Nat) :
    ∃ component ∈ componentsAt filename offset parts,
      component.IsDelimitedBy (offset + byteLength (sources before)) text marker := by
  induction parts generalizing before offset with
  | nil => exact absurd h (by simp)
  | cons part rest ih =>
    rw [List.flatMap_cons] at h
    cases part with
    | kept c =>
      cases before with
      | nil => exact absurd (List.cons.inj h).1 (by simp)
      | cons segment before =>
        obtain ⟨rfl, hrest⟩ := List.cons.inj h
        obtain ⟨component, hcomponent, hdelimited⟩ := ih hrest (offset + c.utf8Size)
        refine ⟨component, hcomponent, ?_⟩
        rwa [Nat.add_assoc] at hdelimited
    | block b =>
      let first : InlineComponent := ⟨String.ofList b.name, String.ofList b.body,
        syntheticFilename filename b.name, offset, offset + byteLength b.source⟩
      cases before with
      | nil =>
        obtain ⟨hphrase, -⟩ := List.cons.inj h
        obtain ⟨rfl, rfl⟩ := Segment.phrase.inj hphrase
        exact ⟨first, List.mem_cons_self, rfl, String.toList_ofList⟩
      | cons segment before =>
        obtain ⟨rfl, hrow⟩ := List.cons.inj h
        have hbehind : b.body.map .plain ++
            (.phrase b.closing .closing :: rest.flatMap SourcePart.segments) =
              before ++ .phrase text marker :: after :=
          (List.append_assoc _ [_] _).symm.trans hrow
        rcases append_cut hbehind with ⟨tail, hne, rfl, htail⟩ | ⟨tail, hbody, htail⟩
        · obtain ⟨segment, tail, rfl⟩ := List.exists_cons_of_ne_nil hne
          obtain ⟨rfl, hrest⟩ := List.cons.inj htail
          obtain ⟨component, hcomponent, hdelimited⟩ := ih hrest (offset + byteLength b.source)
          refine ⟨component, List.mem_cons_of_mem _ hcomponent, ?_⟩
          have hsources : sources (.phrase b.opening (.opening b.name) ::
              (b.body.map .plain ++ .phrase b.closing .closing :: tail)) =
                b.source ++ sources tail := by
            simp [sources, Segment.source, List.flatMap_map, Block.source]
          rwa [hsources, byteLength_append, ← Nat.add_assoc]
        · cases tail with
          | nil =>
            obtain ⟨hphrase, -⟩ := List.cons.inj htail
            obtain ⟨rfl, rfl⟩ := Segment.phrase.inj hphrase
            rw [List.append_nil] at hbody
            have hsources : sources (.phrase b.opening (.opening b.name) :: before) =
                b.opening ++ b.body := by
              rw [← hbody]
              exact congrArg (b.opening ++ ·) (sources_map_plain b.body)
            refine ⟨first, List.mem_cons_self, ?_⟩
            change offset + byteLength b.source = _
            rw [hsources, Nat.add_assoc, ← byteLength_append]
            rfl
          | cons segment tail =>
            obtain ⟨rfl, -⟩ := List.cons.inj htail
            have hmem : Segment.phrase text marker ∈ b.body.map .plain := by
              rw [hbody]
              simp
            exact absurd hmem (by simp)

/-- A marker at any place of a source that was accepted belongs to a component: none starts within
another one, since no name holds an opening brace. -/
theorem exists_delimited_of_spells (h : extract source filename = .ok extraction)
    (htext : source.toList = front ++ (taken ++ back)) (hspells : Marker.Spells marker taken) :
    ∃ component ∈ extraction.components,
      component.IsDelimitedBy (byteLength front) taken marker := by
  obtain ⟨whole, hwhole, hextraction⟩ := map_eq_ok_iff.mp h
  have hcomponents : extraction.components = componentsAt filename 0 whole := by
    rw [← hextraction]
    rfl
  have hscan := (parts_eq_ok_iff.mp hwhole).1
  have hread : Marker.reader (startsLine true front) (taken ++ back) = some (marker, back) :=
    Marker.read?_append_iff.mpr hspells
  rw [htext] at hscan
  rcases exists_phrase_of_read Marker.reader_advances hread with ⟨before, after, hfound, hbefore⟩ |
    ⟨before, found, other, after, inner, rest, hfound, -, hwithin, hinner, hrest, htaken⟩
  · rw [scanAll, hfound] at hscan
    have hdelimited := exists_delimited hscan.symm filename 0
    rwa [hbefore, Nat.zero_add, ← hcomponents] at hdelimited
  · exfalso
    have hother : Marker.Spells other found :=
      Marker.read?_append_iff.mp (read_of_scan Marker.reader_advances hfound).2
    rw [scanAll, hfound] at hscan
    obtain ⟨component, hcomponent, hdelimited⟩ := exists_delimited hscan.symm filename 0
    rw [← hcomponents] at hcomponent
    have hname (name : Text) (hopening : other = .opening name) : '\x7b' ∉ name := by
      intro hmem
      subst hopening
      rw [← hdelimited.2] at hmem
      exact absurd (Marker.isAlphanum_of_isValidName (isValidName_of_mem h hcomponent) _ hmem)
        (by decide)
    -- The marker at the place starts with a brace, which is then in the rest of the other one.
    obtain ⟨c, inner, rfl⟩ := List.exists_cons_of_ne_nil hinner
    obtain ⟨d, rest, rfl⟩ := List.exists_cons_of_ne_nil hrest
    obtain ⟨tail, rfl⟩ := hspells.exists_cons
    obtain ⟨rfl, -⟩ := List.cons.inj htaken
    refine hother.not_mem_tail hname ?_
    rw [hwithin]
    simp

/-- The ranges of two components do not overlap. -/
theorem disjoint_of_mem (h : extract source filename = .ok extraction)
    {first second : InlineComponent} (hfirst : first ∈ extraction.components)
    (hsecond : second ∈ extraction.components) (hne : first ≠ second) :
    first.stop ≤ second.start ∨ second.stop ≤ first.start := by
  have hapart : extraction.components.Pairwise fun first second =>
      first.stop ≤ second.start ∨ second.stop ≤ first.start :=
    (pairwise_of_extract h).imp Or.inl
  have hsymm : Std.Symm fun first second : InlineComponent =>
      first.stop ≤ second.start ∨ second.stop ≤ first.start := ⟨fun _ _ => Or.symm⟩
  exact hapart.forall hfirst hsecond hne

/-- A marker belongs to one component only. -/
theorem eq_of_delimited (h : extract source filename = .ok extraction)
    {first second : InlineComponent} {offset : Nat} (hfirst : first ∈ extraction.components)
    (hsecond : second ∈ extraction.components) (hdelimits : first.IsDelimitedBy offset taken marker)
    (hdelimits' : second.IsDelimitedBy offset taken marker) : first = second := by
  by_contra hne
  have hrange := start_lt_stop_of_mem h hfirst
  have hrange' := start_lt_stop_of_mem h hsecond
  have hdisjoint := disjoint_of_mem h hfirst hsecond hne
  cases marker with
  | opening name =>
    have hstart : first.start = second.start := hdelimits.1.trans hdelimits'.1.symm
    omega
  | closing =>
    have hstop : first.stop = second.stop := Eq.trans hdelimits (Eq.symm hdelimits')
    omega

/-- How the markers of a source decide what becomes of it. -/
structure DecidedByMarkers (source : String) (filename : FilePath) : Prop where
  /-- It is accepted exactly when its markers are a row of closed blocks. -/
  accepted_iff : (∃ extraction, extract source filename = .ok extraction) ↔
    ∃ names, IsRow ((locations (scanAll Marker.reader source.toList)).map Located.value)
      ⟨names, none⟩
  /-- The blocks are then those of the components. -/
  row : ∀ extraction, extract source filename = .ok extraction →
    IsRow ((locations (scanAll Marker.reader source.toList)).map Located.value)
      ⟨extraction.names.map String.toList, none⟩
  /-- Every marker at any place of it then opens or closes the block of exactly one component. -/
  delimiters : ∀ extraction, extract source filename = .ok extraction →
    ∀ front taken back marker, source.toList = front ++ (taken ++ back) →
      Marker.Spells marker taken →
        ∃! component, component ∈ extraction.components ∧
          component.IsDelimitedBy (byteLength front) taken marker
  /-- It is refused exactly for its first fault. -/
  refused_iff : ∀ fault, extract source filename = .error fault ↔
    FirstFault (locations (scanAll Marker.reader source.toList)) fault

/-- Every source is accepted for the row of blocks that its markers form, or refused for the first
marker that does not continue such a row. -/
theorem decidedByMarkers (source : String) (filename : FilePath) :
    DecidedByMarkers source filename := by
  have hrefused (fault : ExtractionFault) : extract source filename = .error fault ↔
      FirstFault (locations (scanAll Marker.reader source.toList)) fault := by
    rw [extract, map_eq_error_iff, parts, partsFrom_eq_error_iff, ← RowState.run_eq_error_iff]
    rfl
  refine
    { accepted_iff := ?_
      row := fun extraction h => isRow_of_extract h
      delimiters := fun extraction h front taken back marker htext hspells => ?_
      refused_iff := hrefused }
  · constructor
    · rintro ⟨extraction, h⟩
      exact ⟨_, isRow_of_extract h⟩
    rintro ⟨names, hrow⟩
    cases h : extract source filename with
    | ok extraction => exact ⟨extraction, rfl⟩
    | error fault =>
      -- The run over the markers would both succeed and fail.
      have herror := RowState.run_eq_error_iff.mpr ((hrefused fault).mp h)
      rw [RowState.run_eq_ok_iff.mpr ⟨hrow, rfl⟩] at herror
      contradiction
  · obtain ⟨component, hcomponent, hdelimited⟩ := exists_delimited_of_spells h htext hspells
    exact ⟨component, ⟨hcomponent, hdelimited⟩, fun other hother =>
      eq_of_delimited h hother.1 hcomponent hother.2 hdelimited⟩

-- A name goes on to the next brace, so it may swallow the marker behind it.
example : extract "\x7b#component A\x7b/component\x7d" ⟨[]⟩ =
    .error (.invalidName "A\x7b/component") := by decide +kernel

end Extraction

end InlineComponents
