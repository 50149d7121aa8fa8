import InlineComponents.Proofs.Extraction.Partition

/-!
# Markers across seams

Where a block is deleted, the stretches around it are joined. No stretch holds a marker, so the
cleaned source holds one exactly when a marker starts in one stretch and ends in a later one. It
takes a brace that is left open in front of a block, and a second extraction finds such a marker.
-/

namespace InlineComponents

open Text

/-! ### Joined pieces -/

section Joined

variable {α : Type} {pieces : List (List α)} {front middle back : List α}

/-- A front of joined pieces ends within one of them. -/
theorem exists_of_flatten_eq_append (hne : front ≠ []) (h : pieces.flatten = front ++ back) :
    ∃ before closed trail after, pieces = before ++ (closed ++ trail) :: after ∧ closed ≠ [] ∧
      front = before.flatten ++ closed := by
  induction pieces generalizing front with
  | nil => exact absurd (List.append_eq_nil_iff.mp h.symm).1 hne
  | cons piece rest ih =>
    rw [List.flatten_cons] at h
    rcases List.append_eq_append_iff.mp h with ⟨left, rfl, hrest⟩ | ⟨left, rfl, -⟩
    · by_cases hleft : left = []
      · subst hleft
        rw [List.append_nil] at hne ⊢
        exact ⟨[], piece, [], rest, by simp, hne, rfl⟩
      · obtain ⟨before, closed, trail, after, rfl, hclosed, rfl⟩ := ih hleft hrest
        exact ⟨piece :: before, closed, trail, after, rfl, hclosed, by simp⟩
    · exact ⟨[], front, left, rest, rfl, hne, rfl⟩

/-- A stretch of joined pieces lies within one of them, or starts in one and ends in a later one. -/
theorem exists_of_flatten_eq (hne : middle ≠ [])
    (h : pieces.flatten = front ++ (middle ++ back)) :
    (∃ piece ∈ pieces, ∃ lead trail, piece = lead ++ (middle ++ trail)) ∨
      ∃ before lead opened between closed trail after,
        pieces = before ++ (lead ++ opened) :: (between ++ (closed ++ trail) :: after) ∧
          opened ≠ [] ∧ closed ≠ [] ∧ middle = opened ++ (between.flatten ++ closed) := by
  induction pieces generalizing front with
  | nil =>
    have hmiddle := (List.append_eq_nil_iff.mp h.symm).2
    exact absurd (List.append_eq_nil_iff.mp hmiddle).1 hne
  | cons piece rest ih =>
    have hbehind {front : List α} (hrest : rest.flatten = front ++ (middle ++ back)) :
        (∃ other ∈ piece :: rest, ∃ lead trail, other = lead ++ (middle ++ trail)) ∨
          ∃ before lead opened between closed trail after,
            piece :: rest =
                before ++ (lead ++ opened) :: (between ++ (closed ++ trail) :: after) ∧
              opened ≠ [] ∧ closed ≠ [] ∧ middle = opened ++ (between.flatten ++ closed) := by
      rcases ih hrest with ⟨other, hother, hwithin⟩ |
        ⟨before, lead, opened, between, closed, trail, after, hpieces, hacross⟩
      · exact Or.inl ⟨other, List.mem_cons_of_mem piece hother, hwithin⟩
      · exact Or.inr ⟨piece :: before, lead, opened, between, closed, trail, after,
          congrArg (piece :: ·) hpieces, hacross⟩
    rw [List.flatten_cons] at h
    rcases List.append_eq_append_iff.mp h with ⟨left, -, hrest⟩ | ⟨opened, rfl, hrest⟩
    · exact hbehind hrest
    · by_cases hopened : opened = []
      · subst hopened
        exact @hbehind [] hrest.symm
      · rcases List.append_eq_append_iff.mp hrest with ⟨trail, rfl, -⟩ | ⟨across, rfl, hacross⟩
        · exact Or.inl ⟨_, List.mem_cons_self, front, trail, rfl⟩
        · by_cases hnil : across = []
          · subst hnil
            exact Or.inl ⟨_, List.mem_cons_self, front, [], by simp⟩
          · obtain ⟨between, closed, trail, after, rfl, hclosed, rfl⟩ :=
              exists_of_flatten_eq_append hnil hacross
            exact Or.inr ⟨[], front, opened, between, closed, trail, after, rfl, hopened, hclosed,
              rfl⟩

end Joined

/-! ### Markers across seams -/

namespace Marker

variable {stretches : List Text}

/-- A marker arises when stretches are joined: it starts in one of them and ends in a later one. -/
def Arises (stretches : List Text) : Prop :=
  ∃ before lead opened between closed trail after,
    stretches = before ++ (lead ++ opened) :: (between ++ (closed ++ trail) :: after) ∧
      opened ≠ [] ∧ closed ≠ [] ∧ ∃ marker, Spells marker (opened ++ (between.flatten ++ closed))

/-- A text that holds a marker is not free of markers. -/
theorem not_free_append {marker : Marker} {taken front back : Text} (h : Spells marker taken) :
    ¬ Free (front ++ (taken ++ back)) := by
  intro hfree
  have hnone := free_iff.mp hfree front (taken ++ back) rfl
  rw [read?_append_iff.mpr h] at hnone
  contradiction

/-- Stretches without markers are joined to a text without markers unless one arises. -/
theorem free_flatten_iff (h : ∀ stretch ∈ stretches, Free stretch) :
    Free stretches.flatten ↔ ¬ Arises stretches := by
  constructor
  · rintro hfree ⟨before, lead, opened, between, closed, trail, after, rfl, -, -, marker, hspells⟩
    have htext : (before ++ (lead ++ opened) :: (between ++ (closed ++ trail) :: after)).flatten =
        (before.flatten ++ lead) ++
          ((opened ++ (between.flatten ++ closed)) ++ (trail ++ after.flatten)) := by
      simp only [List.flatten_append, List.flatten_cons, List.append_assoc]
    rw [htext] at hfree
    exact not_free_append hspells hfree
  · intro harises
    refine free_iff.mpr fun front back happ => ?_
    cases hread : read? back with
    | none => rfl
    | some found =>
      obtain ⟨taken, hspells, rfl⟩ := read?_eq_some_iff.mp hread
      exfalso
      rcases exists_of_flatten_eq hspells.ne_nil happ with
        ⟨stretch, hstretch, lead, trail, rfl⟩ |
        ⟨before, lead, opened, between, closed, trail, after, hstretches, hopened, hclosed, rfl⟩
      · exact not_free_append hspells (h _ hstretch)
      · exact harises ⟨before, lead, opened, between, closed, trail, after, hstretches, hopened,
          hclosed, found.1, hspells⟩

/-- A text leaves no brace open: behind each opening brace stands a closing one. -/
def ClosesBraces (text : Text) : Prop :=
  ∀ front back, text = front ++ '\x7b' :: back → '}' ∈ back

/-- No marker arises behind stretches that leave no brace open. -/
theorem not_arises_of_closesBraces (h : ∀ stretch ∈ stretches.dropLast, ClosesBraces stretch) :
    ¬ Arises stretches := by
  rintro ⟨before, lead, opened, between, closed, trail, after, rfl, hopened, hclosed, marker,
    hspells⟩
  have hmem : lead ++ opened ∈
      (before ++ (lead ++ opened) :: (between ++ (closed ++ trail) :: after)).dropLast := by
    rw [List.dropLast_append_of_ne_nil (by simp), List.dropLast_cons_of_ne_nil (by simp)]
    simp
  obtain ⟨c, inside, rfl⟩ := List.exists_cons_of_ne_nil hopened
  obtain ⟨rest, hrest⟩ := hspells.exists_cons
  obtain ⟨init, hinit, hbrace⟩ := hspells.exists_brace
  obtain rfl : c = '\x7b' := (List.cons.inj hrest).1
  -- The brace that the stretch closes would end the marker within the stretch.
  obtain ⟨left, d, hlast⟩ : ∃ left d, closed = left ++ [d] := by
    rcases List.eq_nil_or_concat closed with hnil | ⟨left, d, hconcat⟩
    · exact absurd hnil hclosed
    · exact ⟨left, d, by rw [hconcat, List.concat_eq_append]⟩
  rw [hlast, ← List.append_assoc, ← List.append_assoc] at hinit
  have hcut := (List.append_inj' hinit rfl).1
  refine hbrace ?_
  rw [← hcut]
  have hinside := h _ hmem lead inside rfl
  simp [hinside]

end Marker

/-! ### A second extraction -/

namespace Extraction

/-- A source without markers is scanned as its characters. -/
theorem scanAll_of_free {text : Text} (h : Marker.Free text) :
    scanAll Marker.reader text = text.map .plain := by
  have hnone (flag : Bool) (before rest : Text) (happ : text = before ++ rest) (_ : rest ≠ []) :
      Marker.reader flag (rest ++ []) = none := by
    rw [List.append_nil]
    exact Marker.free_iff.mp h before rest happ
  have hscan := @scan_append_of_none _ Marker.reader true text [] hnone
  rwa [List.append_nil, scan_nil, List.append_nil] at hscan

/-- Nothing is taken out of kept characters. -/
theorem componentsAt_map_kept (filename : FilePath) (offset : Nat) (text : Text) :
    componentsAt filename offset (text.map .kept) = [] := by
  induction text generalizing offset with
  | nil => rfl
  | cons c rest ih => exact ih _

/-- Kept characters remain. -/
theorem flatMap_remainder_map_kept (text : Text) :
    (text.map SourcePart.kept).flatMap SourcePart.remainder = text := by
  rw [List.flatMap_map]
  exact List.flatMap_singleton' text

/-- A source without markers is kept as it is. -/
theorem extract_of_free {source : String} (h : Marker.Free source.toList) (filename : FilePath) :
    extract source filename = .ok ⟨source, []⟩ := by
  have hparts : parts source.toList = .ok (source.toList.map .kept) := by
    refine parts_eq_ok_iff.mpr ⟨?_, ?_⟩
    · rw [scanAll_of_free h, List.flatMap_map]
      exact List.map_eq_flatMap
    · have hblocks : blocks (source.toList.map .kept) = [] := by
        rw [blocks, List.filterMap_map]
        exact List.filterMap_eq_nil_iff.mpr fun _ _ => rfl
      exact ⟨by simp [hblocks], by simp [hblocks], by simp [hblocks]⟩
  rw [extract, hparts]
  simp only [Except.map, ofParts, flatMap_remainder_map_kept, componentsAt_map_kept,
    String.ofList_toList]

/-- Nothing is taken out of a source exactly when it holds no marker. -/
theorem extract_eq_self_iff {source : String} {filename : FilePath} :
    extract source filename = .ok ⟨source, []⟩ ↔ Marker.Free source.toList := by
  constructor
  · intro h
    refine (partitions h).stretches_free _ ?_
    exact List.mem_singleton.mpr (dropBytes_append [] source.toList).symm
  · exact fun h => extract_of_free h filename

variable {source : String} {filename : FilePath} {extraction : Extraction}

/-- The cleaned source holds no marker exactly when none arises across a seam. -/
theorem free_source_iff (h : extract source filename = .ok extraction) :
    Marker.Free extraction.source.toList ↔
      ¬ Marker.Arises (keptStretches source.toList 0 extraction.components) := by
  have hpartition := partitions h
  rw [hpartition.cleaned]
  exact Marker.free_flatten_iff hpartition.stretches_free

end Extraction

end InlineComponents
