import InlineComponents.Extraction
import Mathlib.Data.List.Induction
import Mathlib.Data.List.Nodup

/-!
# Rows of blocks

The markers of a source form a row of blocks when each opening marker with a valid name is followed
by a closing marker, and no name is used twice. A run over markers goes on as long as they form such
a row, and the first one that does not continue it is the first fault. If all of them do, it is a
fault that a block is still open at the end.
-/

namespace InlineComponents

open Text

/-- How far a row of blocks has come: the names of the closed blocks, in order, and that of the open
one. -/
structure RowState where
  names : List Text
  current : Option Text
  deriving DecidableEq, Repr

/-- Whether markers form a row of blocks that comes to a state. -/
structure IsRow (markers : List Marker) (state : RowState) : Prop where
  markers_eq : markers = state.names.flatMap (fun name => [.opening name, .closing]) ++
    state.current.toList.map .opening
  valid : ∀ name ∈ state.names ++ state.current.toList, Marker.isValidName name = true
  distinct : state.names.Nodup

/-- What is wrong with a marker at a byte offset behind a row of blocks. -/
inductive IsFault (state : RowState) (offset : Nat) : Marker → ExtractionFault → Prop where
  /-- A block is opened within another, whatever its name is. -/
  | nested {outer inner : Text} : state.current = some outer →
      IsFault state offset (.opening inner)
        (.nestedBlock (String.ofList outer) (String.ofList inner))
  /-- A block is opened with a name that is not valid. -/
  | invalid {name : Text} : state.current = none → Marker.isValidName name = false →
      IsFault state offset (.opening name) (.invalidName (String.ofList name))
  /-- No block is open that could be closed. -/
  | unmatched : state.current = none → IsFault state offset .closing (.unmatchedClose offset)
  /-- The block that is closed has the name of one before. -/
  | duplicate {name : Text} : state.current = some name → name ∈ state.names →
      IsFault state offset .closing (.duplicateName (String.ofList name))

/-- The first fault of markers at their places. -/
inductive FirstFault (places : List (Located Marker)) : ExtractionFault → Prop where
  /-- The markers in front of the faulty one form a row of blocks. -/
  | at_marker {before after : List (Located Marker)} {place : Located Marker} {state : RowState}
      {fault : ExtractionFault} : places = before ++ place :: after →
      IsRow (before.map (·.value)) state → IsFault state place.start place.value fault →
      FirstFault places fault
  /-- All markers form a row of blocks of which the last one is open. -/
  | at_end {names : List Text} {name : Text} : IsRow (places.map (·.value)) ⟨names, some name⟩ →
      FirstFault places (.unterminatedBlock (String.ofList name))

/-! ### Rows, one marker after the other -/

section

variable {markers : List Marker} {names : List Text} {name : Text}

/-- No markers are a row of no blocks. -/
theorem isRow_nil_iff {state : RowState} : IsRow [] state ↔ state = ⟨[], none⟩ := by
  constructor
  · rintro ⟨hmarkers, -, -⟩
    obtain ⟨names, current⟩ := state
    obtain ⟨hnames, hcurrent⟩ := List.append_eq_nil_iff.mp hmarkers.symm
    cases current with
    | some name => contradiction
    | none =>
      cases names with
      | nil => rfl
      | cons name rest => contradiction
  · rintro rfl
    exact ⟨rfl, by simp, List.nodup_nil⟩

/-- An opening marker with a valid name opens a block where none is open. -/
theorem isRow_opening_iff :
    IsRow (markers ++ [.opening name]) ⟨names, some name⟩ ↔
      IsRow markers ⟨names, none⟩ ∧ Marker.isValidName name = true := by
  constructor
  · rintro ⟨hmarkers, hvalid, hdistinct⟩
    refine ⟨⟨?_, fun other hother => hvalid other ?_, hdistinct⟩, hvalid name (by simp)⟩
    · rw [List.append_cancel_right hmarkers]
      simp
    · simpa using Or.inl hother
  · rintro ⟨⟨hmarkers, hvalid, hdistinct⟩, hname⟩
    refine ⟨by simp [hmarkers], fun other hother => ?_, hdistinct⟩
    rcases List.mem_append.mp hother with hbefore | hlast
    · exact hvalid other (by simpa using hbefore)
    · rwa [List.mem_singleton.mp hlast]

/-- A closing marker closes the open block, the name of which was not used before. -/
theorem isRow_closing_iff :
    IsRow (markers ++ [.closing]) ⟨names ++ [name], none⟩ ↔
      IsRow markers ⟨names, some name⟩ ∧ name ∉ names := by
  constructor
  · rintro ⟨hmarkers, hvalid, hdistinct⟩
    obtain ⟨hbefore, -, hfresh⟩ := List.nodup_append.mp hdistinct
    refine ⟨⟨?_, by simpa using hvalid, hbefore⟩, fun hmem => hfresh name hmem name (by simp) rfl⟩
    have happ : markers ++ [.closing] =
        names.flatMap (fun name => [.opening name, .closing]) ++ [.opening name] ++ [.closing] := by
      simpa using hmarkers
    exact List.append_cancel_right happ
  · rintro ⟨⟨hmarkers, hvalid, hdistinct⟩, hname⟩
    refine ⟨by simp [hmarkers], by simpa using hvalid, ?_⟩
    refine List.nodup_append.mpr
      ⟨hdistinct, List.nodup_singleton name, fun other hother last hlast => ?_⟩
    rintro rfl
    exact hname (List.mem_singleton.mp hlast ▸ hother)

end

namespace RowState

variable {state reached : RowState} {offset : Nat} {marker : Marker} {markers : List Marker}
  {fault : ExtractionFault}

/-- The state behind one more marker, which stands at a byte offset. -/
def step (state : RowState) (offset : Nat) : Marker → Except ExtractionFault RowState
  | .opening name => match state.current with
    | some outer => .error (.nestedBlock (String.ofList outer) (String.ofList name))
    | none =>
      if Marker.isValidName name then .ok ⟨state.names, some name⟩
      else .error (.invalidName (String.ofList name))
  | .closing => match state.current with
    | none => .error (.unmatchedClose offset)
    | some name =>
      if state.names.contains name then .error (.duplicateName (String.ofList name))
      else .ok ⟨state.names ++ [name], none⟩

/-- A step fails with what is wrong with the marker. -/
theorem step_eq_error_iff :
    state.step offset marker = .error fault ↔ IsFault state offset marker fault := by
  constructor
  · intro h
    obtain ⟨names, current⟩ := state
    cases marker with
    | opening name =>
      cases current with
      | some outer =>
        obtain rfl := Except.error.inj h
        exact .nested rfl
      | none =>
        simp only [step] at h
        split at h
        · contradiction
        · rename_i hinvalid
          obtain rfl := Except.error.inj h
          exact .invalid rfl (by simpa using hinvalid)
    | closing =>
      cases current with
      | none =>
        obtain rfl := Except.error.inj h
        exact .unmatched rfl
      | some name =>
        simp only [step] at h
        split at h
        · rename_i hused
          obtain rfl := Except.error.inj h
          exact .duplicate rfl (by simpa using hused)
        · contradiction
  · intro h
    cases h with
    | nested hcurrent => simp only [step, hcurrent]
    | invalid hcurrent hinvalid => simp [step, hcurrent, hinvalid]
    | unmatched hcurrent => simp only [step, hcurrent]
    | duplicate hcurrent hused => simp [step, hcurrent, hused]

/-- A step that succeeds carries a row on. -/
theorem isRow_of_step (hrow : IsRow markers state) (h : state.step offset marker = .ok reached) :
    IsRow (markers ++ [marker]) reached := by
  obtain ⟨names, current⟩ := state
  cases marker with
  | opening name =>
    cases current with
    | some outer => contradiction
    | none =>
      simp only [step] at h
      split at h
      · rename_i hvalid
        obtain rfl := Except.ok.inj h
        exact isRow_opening_iff.mpr ⟨hrow, hvalid⟩
      · contradiction
  | closing =>
    cases current with
    | none => contradiction
    | some name =>
      simp only [step] at h
      split at h
      · contradiction
      · rename_i hunused
        obtain rfl := Except.ok.inj h
        exact isRow_closing_iff.mpr ⟨hrow, by simpa using hunused⟩

/-- The last marker of a row was reached by a step. -/
theorem exists_step_of_isRow (offset : Nat) (h : IsRow (markers ++ [marker]) reached) :
    ∃ state, IsRow markers state ∧ state.step offset marker = .ok reached := by
  obtain ⟨names, current⟩ := reached
  cases current with
  | some name =>
    obtain ⟨-, hlast⟩ := List.append_inj' h.markers_eq rfl
    obtain rfl := List.singleton_inj.mp hlast
    obtain ⟨hrow, hvalid⟩ := isRow_opening_iff.mp h
    exact ⟨⟨names, none⟩, hrow, if_pos hvalid⟩
  | none =>
    rcases List.eq_nil_or_concat' names with rfl | ⟨init, name, rfl⟩
    · exact absurd h.markers_eq (by simp)
    · have happ : markers ++ [marker] =
          init.flatMap (fun name => [.opening name, .closing]) ++ [.opening name] ++
            [.closing] := by
        simpa using h.markers_eq
      obtain ⟨-, hlast⟩ := List.append_inj' happ rfl
      obtain rfl := List.singleton_inj.mp hlast
      obtain ⟨hrow, hunused⟩ := isRow_closing_iff.mp h
      exact ⟨⟨init, some name⟩, hrow, if_neg (by simpa using hunused)⟩

/-- The state at the end of a source, where no block may be open. -/
def finish (state : RowState) : Except ExtractionFault RowState :=
  match state.current with
  | none => .ok state
  | some name => .error (.unterminatedBlock (String.ofList name))

/-- The state behind all markers of a source, at places counted from a byte offset. -/
def run (state : RowState) (offset : Nat) : List (Located Marker) → Except ExtractionFault RowState
  | [] => state.finish
  | place :: rest => do
    let next ← state.step (offset + place.start) place.value
    next.run offset rest

variable {front back places : List (Located Marker)}

/-- A run passes over a row to the state that the row comes to. -/
theorem run_append (h : IsRow (front.map (·.value)) state) (offset : Nat)
    (back : List (Located Marker)) :
    run ⟨[], none⟩ offset (front ++ back) = state.run offset back := by
  induction front using List.reverseRecOn generalizing state back with
  | nil => rw [isRow_nil_iff.mp h, List.nil_append]
  | append_singleton init place ih =>
    rw [List.map_append, List.map_singleton] at h
    obtain ⟨before, hbefore, hstep⟩ := exists_step_of_isRow (offset + place.start) h
    rw [List.append_assoc, ih hbefore, List.singleton_append, run, hstep]
    rfl

/-- A run that started with a row behind it ends with a longer row or with the first fault. -/
theorem run_spec (h : IsRow (front.map (·.value)) state) :
    match state.run 0 back with
    | .ok reached => IsRow ((front ++ back).map (·.value)) reached ∧ reached.current = none
    | .error fault => FirstFault (front ++ back) fault := by
  induction back generalizing front state with
  | nil =>
    obtain ⟨names, current⟩ := state
    rw [List.append_nil]
    cases current with
    | none => exact ⟨h, rfl⟩
    | some name => exact .at_end h
  | cons place rest ih =>
    rw [run, Nat.zero_add]
    cases hstep : state.step place.start place.value with
    | error fault => exact .at_marker rfl h (step_eq_error_iff.mp hstep)
    | ok next =>
      have hnext : IsRow ((front ++ [place]).map (·.value)) next := by
        rw [List.map_append]
        exact isRow_of_step h hstep
      have hrest := ih hnext
      rwa [List.append_assoc] at hrest

/-- A run from the front ends without an open block exactly on a row of closed blocks. -/
theorem run_eq_ok_iff :
    run ⟨[], none⟩ 0 places = .ok state ↔
      IsRow (places.map (·.value)) state ∧ state.current = none := by
  constructor
  · intro h
    have hspec := @run_spec ⟨[], none⟩ [] places (isRow_nil_iff.mpr rfl)
    rwa [h] at hspec
  · rintro ⟨hrow, hcurrent⟩
    have hrun := run_append hrow 0 []
    rw [List.append_nil] at hrun
    rw [hrun, run, finish, hcurrent]

/-- A run from the front fails with the first fault. -/
theorem run_eq_error_iff : run ⟨[], none⟩ 0 places = .error fault ↔ FirstFault places fault := by
  constructor
  · intro h
    have hspec := @run_spec ⟨[], none⟩ [] places (isRow_nil_iff.mpr rfl)
    rwa [h] at hspec
  · intro h
    cases h with
    | at_marker happ hrow hfault =>
      rw [happ, run_append hrow, run, Nat.zero_add, step_eq_error_iff.mpr hfault]
      rfl
    | at_end hrow =>
      have hrun := run_append hrow 0 []
      rw [List.append_nil] at hrun
      rw [hrun]
      rfl

/-- A run over places with a text in front of them starts behind that text. -/
theorem run_shift (state : RowState) (offset : Nat) (text : Text) (places : List (Located Marker)) :
    state.run offset (places.map (.shift text)) = state.run (offset + byteLength text) places := by
  induction places generalizing state with
  | nil => rfl
  | cons place rest ih =>
    have hstart : offset + (place.shift text).start = offset + byteLength text + place.start := by
      simp only [Located.start, Located.shift, byteLength_append, Nat.add_assoc]
    rw [List.map_cons, run, run, hstart]
    simp only [ih]
    rfl

end RowState

end InlineComponents
