import InlineComponents.Text.Scan
import Mathlib.Data.List.Induction

/-!
# Where a scan can be cut

A scan is determined by what its reader answers at each place. When the answers before some place
do not depend on the text after it, the scan of the whole is the scan of the two parts, one after
the other. A scan without phrases is one whose reader refuses every place.
-/

namespace InlineComponents.Text

variable {α : Type} {read : PhraseReader α}

/-- Whether the place after a text starts a line, given whether the text itself does. -/
def startsLine (lineStart : Bool) (text : Text) : Bool :=
  match text.getLast? with
  | none => lineStart
  | some c => c == '\n'

/-- A reader advances when every phrase it reads has a text, and the rest is what follows it. -/
def Advances (read : PhraseReader α) : Prop :=
  ∀ lineStart text value after, read lineStart text = some (value, after) →
    ∃ taken, taken ≠ [] ∧ text = taken ++ after

/-- Before any text, the place is the one that was given. -/
@[simp] theorem startsLine_nil (lineStart : Bool) : startsLine lineStart [] = lineStart := rfl

/-- After one character only that character counts. -/
@[simp] theorem startsLine_singleton (lineStart : Bool) (c : Char) :
    startsLine lineStart [c] = (c == '\n') := rfl

/-- Only the end of a text that is not empty counts. -/
theorem startsLine_append (lineStart : Bool) (front back : Text) :
    startsLine lineStart (front ++ back) = startsLine (startsLine lineStart front) back := by
  cases hb : back.getLast? with
  | none =>
    obtain rfl := List.getLast?_eq_none_iff.mp hb
    simp
  | some c => simp [startsLine, List.getLast?_append, hb]

/-- The start of a line after a text that is not empty does not depend on where the text began. -/
theorem startsLine_of_ne_nil (lineStart : Bool) {text : Text} (h : text ≠ []) :
    startsLine lineStart text = endsLine text := by
  cases hl : text.getLast? with
  | none => exact absurd (List.getLast?_eq_none_iff.mp hl) h
  | some c => simp [startsLine, endsLine, hl]

/-- Behind a text that is not empty only that text counts. -/
theorem startsLine_append_of_ne_nil (lineStart : Bool) (front : Text) {back : Text}
    (h : back ≠ []) : startsLine lineStart (front ++ back) = endsLine back := by
  rw [startsLine_append, startsLine_of_ne_nil _ h]

/-- Where a line starts, one starts behind every end of the text in front. -/
theorem startsLine_true_of_append {lineStart : Bool} {front back : Text}
    (h : startsLine lineStart (front ++ back) = true) : startsLine true back = true := by
  by_cases hback : back = []
  · subst hback
    rfl
  · rwa [startsLine_append_of_ne_nil _ _ hback, ← startsLine_of_ne_nil true hback] at h

/-- No line starts behind a text without line feeds. -/
theorem startsLine_append_of_no_lineFeed {back : Text} (hne : back ≠ []) (hback : '\n' ∉ back)
    (lineStart : Bool) (front : Text) : startsLine lineStart (front ++ back) = false := by
  rcases List.eq_nil_or_concat back with rfl | ⟨init, c, rfl⟩
  · contradiction
  · rw [List.concat_eq_append] at hback ⊢
    rw [← List.append_assoc, startsLine_append, startsLine_singleton, beq_eq_false_iff_ne]
    rintro rfl
    exact hback (by simp)

/-- A line that starts within a text does not start within a stretch without line feeds. -/
theorem line_outside {lead middle trail front back : Text} {lineStart : Bool}
    (hmiddle : '\n' ∉ middle) (h : lead ++ (middle ++ trail) = front ++ back)
    (hline : startsLine lineStart front = true) :
    (∃ left, lead = front ++ left ∧ back = left ++ (middle ++ trail)) ∨
      ∃ left, front = lead ++ (middle ++ left) ∧ trail = left ++ back := by
  rcases List.append_eq_append_iff.mp h with ⟨inMiddle, rfl, hcut⟩ | ⟨left, rfl, rfl⟩
  · rcases List.append_eq_append_iff.mp hcut with ⟨left, rfl, rfl⟩ | ⟨left, rfl, rfl⟩
    · exact Or.inr ⟨left, rfl, rfl⟩
    · by_cases hnil : inMiddle = []
      · subst hnil
        exact Or.inl ⟨[], by simp, by simp⟩
      · rw [startsLine_append_of_no_lineFeed hnil fun hmem =>
          hmiddle (List.mem_append_left left hmem)] at hline
        contradiction
  · exact Or.inl ⟨left, rfl, rfl⟩

/-- A line starts after a text that is empty or ends with a line feed. -/
theorem startsLine_true_iff {text : Text} :
    startsLine true text = true ↔ text = [] ∨ ∃ front, text = front ++ ['\n'] := by
  constructor
  · intro h
    rcases List.eq_nil_or_concat text with rfl | ⟨front, c, rfl⟩
    · exact Or.inl rfl
    · right
      have hc : c = '\n' := by simpa [startsLine_append] using h
      exact ⟨front, by simp [hc]⟩
  · rintro (rfl | ⟨front, rfl⟩)
    · rfl
    · simp [startsLine_append]

/-- Nothing is scanned in an empty text. -/
@[simp] theorem scan_nil (read : PhraseReader α) (lineStart : Bool) :
    scan read lineStart [] = [] := by
  unfold scan
  rfl

/-- Where the reader refuses, the character belongs to no phrase. -/
theorem scan_cons_of_none {lineStart : Bool} {c : Char} {rest : Text}
    (h : read lineStart (c :: rest) = none) :
    scan read lineStart (c :: rest) = .plain c :: scan read (c == '\n') rest := by
  rw [scan, h]

/-- A phrase is taken whole, and the scan goes on after it. -/
theorem scan_of_some {lineStart : Bool} {taken after : Text} {value : α} (htaken : taken ≠ [])
    (h : read lineStart (taken ++ after) = some (value, after)) :
    scan read lineStart (taken ++ after) =
      .phrase taken value :: scan read (endsLine taken) after := by
  obtain ⟨c, rest, rfl⟩ := List.exists_cons_of_ne_nil htaken
  rw [List.cons_append] at h ⊢
  rw [scan, h]
  have hlt : after.length < (rest ++ after).length + 1 := by simp only [List.length_append]; omega
  have hlen : (rest ++ after).length + 1 - after.length = (c :: rest).length := by simp; omega
  simp only [hlt, ↓reduceIte, hlen]
  rw [← List.cons_append, List.take_left]

/-- A reader that advances returns less than it was given. -/
theorem Advances.keepsSuffix (hread : Advances read) : KeepsSuffix read := by
  intro lineStart text value after h
  obtain ⟨taken, -, rfl⟩ := hread lineStart text value after h
  exact List.suffix_append taken after

/-- Nothing is read from an empty text. -/
theorem Advances.read_nil (hread : Advances read) (lineStart : Bool) :
    read lineStart [] = none := by
  cases h : read lineStart [] with
  | none => rfl
  | some found =>
    obtain ⟨taken, hne, happ⟩ := hread lineStart [] found.1 found.2 h
    exact absurd (List.append_eq_nil_iff.mp happ.symm).1 hne

/-- Induction along a scan: over a refused character, and over a phrase. -/
theorem scan_induction (hread : Advances read) {motive : Bool → Text → Prop}
    (nil : ∀ lineStart, motive lineStart [])
    (plain : ∀ lineStart c rest, read lineStart (c :: rest) = none → motive (c == '\n') rest →
      motive lineStart (c :: rest))
    (phrase : ∀ lineStart taken after value, taken ≠ [] →
      read lineStart (taken ++ after) = some (value, after) → motive (endsLine taken) after →
      motive lineStart (taken ++ after))
    (lineStart : Bool) (text : Text) : motive lineStart text := by
  induction hn : text.length using Nat.strongRecOn generalizing lineStart text with
  | ind n ih =>
    subst hn
    cases text with
    | nil => exact nil lineStart
    | cons c rest =>
      cases hr : read lineStart (c :: rest) with
      | none => exact plain lineStart c rest hr (ih rest.length (by simp) _ rest rfl)
      | some found =>
        obtain ⟨value, after⟩ := found
        obtain ⟨taken, hne, happ⟩ := hread _ _ _ _ hr
        rw [happ] at hr ⊢
        refine phrase lineStart taken after value hne hr (ih after.length ?_ _ after rfl)
        rw [happ, List.length_append]
        have := List.length_pos_iff.mpr hne
        omega

/-- A scan can be cut where the reader, before the cut, answers the same whatever follows it. -/
theorem scan_append (hread : Advances read) {lineStart : Bool} {front back : Text}
    (hcut : ∀ flag rest, rest <:+ front → rest ≠ [] →
      read flag (rest ++ back) = (read flag rest).map fun found => (found.1, found.2 ++ back)) :
    scan read lineStart (front ++ back) =
      scan read lineStart front ++ scan read (startsLine lineStart front) back := by
  induction lineStart, front using scan_induction hread with
  | nil lineStart => simp
  | plain lineStart c rest hr ih =>
    have hrb : read lineStart (c :: (rest ++ back)) = none := by
      simpa [hr] using hcut lineStart (c :: rest) List.suffix_rfl (List.cons_ne_nil c rest)
    rw [List.cons_append, scan_cons_of_none hrb, scan_cons_of_none hr, List.cons_append,
      ih fun flag tail ht hne => hcut flag tail (ht.trans (List.suffix_cons c rest)) hne]
    rw [← List.singleton_append (l := rest), startsLine_append, startsLine_singleton]
  | phrase lineStart taken after value hne hr ih =>
    have hrb : read lineStart (taken ++ (after ++ back)) = some (value, after ++ back) := by
      rw [← List.append_assoc, hcut lineStart (taken ++ after) List.suffix_rfl (by simp [hne]), hr]
      rfl
    rw [List.append_assoc, scan_of_some hne hrb, scan_of_some hne hr, List.cons_append,
      ih fun flag tail ht hne => hcut flag tail (ht.trans (List.suffix_append taken after)) hne,
      startsLine_append, startsLine_of_ne_nil lineStart hne]

/-- A scan passes a place that no phrase from before reaches across. -/
theorem exists_scan_append (hread : Advances read) {lineStart : Bool} {front back : Text}
    (hcut : ∀ flag rest value after, rest <:+ front → rest ≠ [] →
      read flag (rest ++ back) = some (value, after) → back <:+ after) :
    ∃ segments, sources segments = front ∧
      scan read lineStart (front ++ back) =
        segments ++ scan read (startsLine lineStart front) back := by
  induction hn : front.length using Nat.strongRecOn generalizing lineStart front with
  | ind n ih =>
    subst hn
    cases front with
    | nil => exact ⟨[], rfl, rfl⟩
    | cons c rest =>
      cases hr : read lineStart (c :: (rest ++ back)) with
      | none =>
        obtain ⟨segments, hsources, hscan⟩ := @ih rest.length (by simp) (c == '\n') rest
          (fun flag tail value after ht =>
            hcut flag tail value after (ht.trans (List.suffix_cons c rest)))
          rfl
        refine ⟨.plain c :: segments, by rw [← hsources]; rfl, ?_⟩
        rw [List.cons_append, scan_cons_of_none hr, hscan, ← List.singleton_append (l := rest),
          startsLine_append]
        rfl
      | some found =>
        obtain ⟨value, after⟩ := found
        obtain ⟨kept, rfl⟩ := hcut lineStart (c :: rest) value after List.suffix_rfl
          (List.cons_ne_nil c rest) hr
        obtain ⟨taken, hne, happ⟩ := hread _ _ _ _ hr
        have hfront : c :: rest = taken ++ kept := by
          rw [← List.append_assoc, ← List.cons_append] at happ
          exact List.append_cancel_right happ
        have hlen : kept.length < (c :: rest).length := by
          rw [hfront, List.length_append]
          have := List.length_pos_iff.mpr hne
          omega
        obtain ⟨segments, hsources, hscan⟩ := @ih kept.length hlen (endsLine taken) kept
          (fun flag tail value after ht =>
            hcut flag tail value after (ht.trans (hfront ▸ List.suffix_append taken kept))) rfl
        refine ⟨.phrase taken value :: segments, by rw [hfront, ← hsources]; rfl, ?_⟩
        rw [← List.cons_append, hfront, List.append_assoc] at hr
        rw [hfront, List.append_assoc, scan_of_some hne hr, hscan, startsLine_append,
          startsLine_of_ne_nil lineStart hne]
        rfl

/-- Each part of a scan is the scan of the text it stands for, at its place. -/
theorem scan_eq_append (hread : Advances read) {lineStart : Bool} {text : Text}
    {front back : List (Segment α)} (h : scan read lineStart text = front ++ back) :
    text = sources front ++ sources back ∧
      back = scan read (startsLine lineStart (sources front)) (sources back) := by
  have hsources (flag : Bool) (rest : Text) : sources (scan read flag rest) = rest :=
    sources_scan hread.keepsSuffix flag rest
  induction lineStart, text using scan_induction hread generalizing front with
  | nil lineStart =>
    rw [scan_nil] at h
    obtain ⟨rfl, rfl⟩ := List.append_eq_nil_iff.mp h.symm
    exact ⟨rfl, by simp [sources]⟩
  | plain lineStart c rest hr ih =>
    rw [scan_cons_of_none hr] at h
    cases front with
    | nil =>
      rw [List.nil_append, ← scan_cons_of_none hr] at h
      rw [← h, hsources]
      exact ⟨rfl, rfl⟩
    | cons segment front =>
      obtain ⟨rfl, hrest⟩ := List.cons.inj h
      obtain ⟨htext, hback⟩ := ih hrest
      refine ⟨by rw [htext]; rfl, ?_⟩
      change back = scan read (startsLine lineStart ([c] ++ sources front)) (sources back)
      rw [startsLine_append, startsLine_singleton]
      exact hback
  | phrase lineStart taken after value hne hr ih =>
    rw [scan_of_some hne hr] at h
    cases front with
    | nil =>
      rw [List.nil_append, ← scan_of_some hne hr] at h
      rw [← h, hsources]
      exact ⟨rfl, rfl⟩
    | cons segment front =>
      obtain ⟨rfl, hrest⟩ := List.cons.inj h
      obtain ⟨htext, hback⟩ := ih hrest
      refine ⟨?_, ?_⟩
      · rw [htext, ← List.append_assoc]
        rfl
      · change back = scan read (startsLine lineStart (taken ++ sources front)) (sources back)
        rw [startsLine_append, startsLine_of_ne_nil lineStart hne]
        exact hback

/-- A phrase that was found is what the reader takes at its place. -/
theorem read_of_scan (hread : Advances read) {lineStart : Bool} {text found : Text} {value : α}
    {front back : List (Segment α)}
    (h : scan read lineStart text = front ++ .phrase found value :: back) :
    found ≠ [] ∧ read (startsLine lineStart (sources front)) (found ++ sources back) =
      some (value, sources back) := by
  obtain ⟨-, hback⟩ := scan_eq_append hread h
  have hplace : sources (.phrase found value :: back) = found ++ sources back := rfl
  rw [hplace] at hback
  generalize startsLine lineStart (sources front) = flag at hback ⊢
  generalize hrest : found ++ sources back = rest at hback
  cases hr : read flag rest with
  | none =>
    cases rest with
    | nil => simp at hback
    | cons c tail => simp [scan_cons_of_none hr] at hback
  | some answer =>
    obtain ⟨said, after⟩ := answer
    obtain ⟨taken, hne, rfl⟩ := hread _ _ _ _ hr
    rw [scan_of_some hne hr] at hback
    obtain ⟨hphrase, -⟩ := List.cons.inj hback
    obtain ⟨rfl, rfl⟩ := Segment.phrase.inj hphrase
    obtain rfl := List.append_cancel_left hrest
    exact ⟨hne, rfl⟩

/-- A character that belongs to no phrase stands where the reader refuses. -/
theorem read_of_scan_plain (hread : Advances read) {lineStart : Bool} {text : Text} {c : Char}
    {front back : List (Segment α)}
    (h : scan read lineStart text = front ++ .plain c :: back) :
    read (startsLine lineStart (sources front)) (c :: sources back) = none := by
  obtain ⟨-, hback⟩ := scan_eq_append hread h
  have hplace : sources (.plain c :: back) = c :: sources back := rfl
  rw [hplace] at hback
  cases hr : read (startsLine lineStart (sources front)) (c :: sources back) with
  | none => rfl
  | some answer =>
    obtain ⟨said, after⟩ := answer
    obtain ⟨taken, hne, happ⟩ := hread _ _ _ _ hr
    rw [happ] at hr hback
    rw [scan_of_some hne hr] at hback
    exact absurd (List.cons.inj hback).1 (by simp)

/-- A stretch that the reader refuses everywhere is scanned as its characters. -/
theorem scan_append_of_none {lineStart : Bool} {front back : Text}
    (h : ∀ flag before rest, front = before ++ rest → rest ≠ [] → read flag (rest ++ back) = none) :
    scan read lineStart (front ++ back) =
      front.map .plain ++ scan read (startsLine lineStart front) back := by
  induction front generalizing lineStart with
  | nil => rfl
  | cons c front ih =>
    have hrest (flag : Bool) (before rest : Text) (happ : front = before ++ rest)
        (hne : rest ≠ []) : read flag (rest ++ back) = none :=
      h flag (c :: before) rest (by rw [happ]; rfl) hne
    have hrefused : read lineStart (c :: (front ++ back)) = none :=
      h lineStart [] (c :: front) rfl (List.cons_ne_nil c front)
    rw [List.cons_append, scan_cons_of_none hrefused, ih hrest,
      ← List.singleton_append (l := front), startsLine_append]
    rfl

/-- Every located phrase cuts the pieces of a scan in three. -/
theorem exists_of_mem_locations {segments : List (Segment α)} {place : Located α}
    (h : place ∈ locations segments) :
    ∃ front back, segments = front ++ .phrase place.text place.value :: back ∧
      place.before = sources front ∧ place.after = sources back := by
  induction segments generalizing place with
  | nil => simp [locations] at h
  | cons segment rest ih =>
    cases segment with
    | plain c =>
      obtain ⟨inner, hin, rfl⟩ := List.mem_map.mp h
      obtain ⟨front, back, rfl, hbefore, hafter⟩ := ih hin
      exact ⟨.plain c :: front, back, rfl, by rw [Located.shift, hbefore]; rfl, hafter⟩
    | phrase text value =>
      rcases List.mem_cons.mp h with rfl | hin
      · exact ⟨[], rest, rfl, rfl, rfl⟩
      · obtain ⟨inner, hinner, rfl⟩ := List.mem_map.mp hin
        obtain ⟨front, back, rfl, hbefore, hafter⟩ := ih hinner
        exact ⟨.phrase text value :: front, back, rfl, by rw [Located.shift, hbefore]; rfl, hafter⟩

/-- The text of two parts is the texts of both. -/
@[simp] theorem sources_append (front back : List (Segment α)) :
    sources (front ++ back) = sources front ++ sources back :=
  List.flatMap_append

/-- The phrases of two parts are those of the first and, further on, those of the second. -/
theorem locations_append (front back : List (Segment α)) :
    locations (front ++ back) =
      ((locations front).map fun place => { place with after := place.after ++ sources back }) ++
        (locations back).map (Located.shift (sources front)) := by
  induction front with
  | nil =>
    have hshift : Located.shift ([] : Text) = (id : Located α → Located α) := rfl
    simp [locations, sources, hshift]
  | cons segment rest ih =>
    cases segment with
    | plain c =>
      simp only [List.cons_append, locations, ih, List.map_append, List.map_map]
      rfl
    | phrase text value =>
      have hshift : Located.shift text ∘ Located.shift (sources rest) =
          (Located.shift (sources (.phrase text value :: rest)) : Located α → Located α) := by
        funext place
        simp only [Function.comp_apply, Located.shift, ← List.append_assoc]
        rfl
      simp only [List.cons_append, locations, ih, List.map_append, List.map_map, List.map_cons,
        sources_append, hshift]
      rfl

/-- A phrase between two parts is located between their texts. -/
theorem mem_locations_append (front back : List (Segment α)) (text : Text) (value : α) :
    ⟨sources front, text, sources back, value⟩ ∈
      locations (front ++ .phrase text value :: back) := by
  rw [locations_append, List.mem_append]
  refine Or.inr (List.mem_map.mpr ⟨⟨[], text, sources back, value⟩, List.mem_cons_self, ?_⟩)
  simp [Located.shift]

/-- A scan comes to a place when no phrase that it found reaches across it. -/
def ComesTo (read : PhraseReader α) (code before : Text) : Prop :=
  ∃ front back, scanAll read code = front ++ back ∧ sources front = before

/-- Where a scan comes to a phrase, it is found. -/
theorem ComesTo.mem_locations (hread : Advances read) {before taken after : Text} {value : α}
    (h : ComesTo read (before ++ (taken ++ after)) before) (hne : taken ≠ [])
    (hr : read (startsLine true before) (taken ++ after) = some (value, after)) :
    ⟨before, taken, after, value⟩ ∈ locations (scanAll read (before ++ (taken ++ after))) := by
  obtain ⟨front, back, hscan, rfl⟩ := h
  obtain ⟨htext, hback⟩ := scan_eq_append hread hscan
  rw [← List.append_cancel_left htext, scan_of_some hne hr] at hback
  have hmem := mem_locations_append front (scan read (endsLine taken) after) taken value
  rwa [sources_scan hread.keepsSuffix, ← hback, ← hscan] at hmem

/-- The phrases of a scan are located one behind the other. -/
theorem pairwise_locations (hread : Advances read) (lineStart : Bool) (text : Text) :
    (locations (scan read lineStart text)).Pairwise fun first second =>
      first.before.length < second.before.length := by
  induction lineStart, text using scan_induction hread with
  | nil lineStart => simp [locations]
  | plain lineStart c rest hr ih =>
    rw [scan_cons_of_none hr, locations, List.pairwise_map]
    exact ih.imp fun hlt => by simpa [Located.shift] using hlt
  | phrase lineStart taken after value hne hr ih =>
    rw [scan_of_some hne hr, locations, List.pairwise_cons, List.pairwise_map]
    refine ⟨fun place hplace => ?_, ih.imp fun hlt => by simpa [Located.shift] using hlt⟩
    obtain ⟨inner, -, rfl⟩ := List.mem_map.mp hplace
    have := List.length_pos_iff.mpr hne
    simp only [Located.shift, List.length_nil, List.length_append]
    omega

/-- The last phrase of a scan, cut out of its text. -/
theorem last_location (hread : Advances read) {lineStart : Bool} {text : Text}
    {place : Located α} (h : (locations (scan read lineStart text)).getLast? = some place) :
    text = place.before ++ place.text ++ place.after ∧ place.text ≠ [] ∧
      read (startsLine lineStart place.before) (place.text ++ place.after) =
        some (place.value, place.after) ∧
      locations (scan read (endsLine place.text) place.after) = [] := by
  obtain ⟨front, back, hscan, hbefore, hafter⟩ :=
    exists_of_mem_locations (List.mem_of_getLast? h)
  obtain ⟨hne, hr⟩ := read_of_scan hread hscan
  obtain ⟨htext, hback⟩ := scan_eq_append hread hscan
  rw [hbefore, hafter]
  have hrest : back = scan read (endsLine place.text) (sources back) := by
    change _ = scan read _ (place.text ++ sources back) at hback
    rw [scan_of_some hne hr] at hback
    exact (List.cons.inj hback).2
  refine ⟨by rw [htext, List.append_assoc]; rfl, hne, hr, ?_⟩
  rw [← hrest]
  rw [hscan, locations_append, locations] at h
  -- A phrase behind this one would be found last, with a longer text in front of it.
  rcases List.eq_nil_or_concat (locations back) with hnil | ⟨init, last, hlast⟩
  · exact hnil
  · exfalso
    rw [hlast] at h
    have hlast? (places first : List (Located α)) (x y : Located α) :
        (places ++ x :: (first ++ [y])).getLast? = some y := by
      rw [← List.cons_append, ← List.append_assoc, List.getLast?_concat]
    simp only [List.concat_eq_append, List.map_append, List.map_cons, List.map_nil, hlast?] at h
    have hplace := Option.some.inj h
    have hlen := congrArg (fun p : Located α => p.before.length) hplace
    simp only [Located.shift, List.length_append, hbefore] at hlen
    have := List.length_pos_iff.mpr hne
    omega

/-- When the reader takes a phrase after a cut and nothing later, that phrase is the last one. -/
theorem getLast?_locations {front found after : Text} {value : α} {segments : List (Segment α)}
    {lineStart : Bool} (hsegments : sources segments = front) (hne : found ≠ [])
    (hr : read lineStart (found ++ after) = some (value, after))
    (hlast : locations (scan read (endsLine found) after) = [])
    (hread : Advances read) :
    (locations (segments ++ scan read lineStart (found ++ after))).getLast? =
      some ⟨front, found, after, value⟩ := by
  rw [locations_append, scan_of_some hne hr, locations, hlast,
    sources_scan hread.keepsSuffix]
  simp [Located.shift, hsegments]

/-- A scan holds no phrase exactly when the reader refuses every place of the text. -/
theorem locations_scan_eq_nil_iff (hread : Advances read) {lineStart : Bool} {text : Text} :
    locations (scan read lineStart text) = [] ↔
      ∀ front back, text = front ++ back → read (startsLine lineStart front) back = none := by
  induction lineStart, text using scan_induction hread with
  | nil lineStart =>
    simp only [scan_nil, locations, true_iff]
    intro front back happ
    obtain ⟨rfl, rfl⟩ := List.append_eq_nil_iff.mp happ.symm
    exact hread.read_nil lineStart
  | plain lineStart c rest hr ih =>
    rw [scan_cons_of_none hr, locations, List.map_eq_nil_iff, ih]
    constructor
    · intro h front back happ
      cases front with
      | nil => rw [← hr, happ]; rfl
      | cons d front =>
        obtain ⟨rfl, rfl⟩ := List.cons.inj happ
        rw [← List.singleton_append, startsLine_append, startsLine_singleton]
        exact h front back rfl
    · rintro h front back rfl
      have := h (c :: front) back rfl
      rwa [← List.singleton_append, startsLine_append, startsLine_singleton] at this
  | phrase lineStart taken after value hne hr ih =>
    rw [scan_of_some hne hr]
    simp only [locations, reduceCtorEq, false_iff]
    intro h
    have := h [] (taken ++ after) rfl
    rw [startsLine_nil, hr] at this
    contradiction

/-- Of two cuts of a list, the first is within the front of the second, or behind it. -/
theorem append_cut {β : Type} {front back first second : List β}
    (h : front ++ back = first ++ second) :
    (∃ rest, rest ≠ [] ∧ first = front ++ rest ∧ back = rest ++ second) ∨
      ∃ rest, front = first ++ rest ∧ second = rest ++ back := by
  rcases List.append_eq_append_iff.mp h with ⟨rest, hfirst, hback⟩ | hbehind
  · by_cases hrest : rest = []
    · subst hrest
      exact Or.inr ⟨[], by rw [hfirst, List.append_nil, List.append_nil], hback.symm⟩
    · exact Or.inl ⟨rest, hrest, hfirst, hback⟩
  · exact Or.inr hbehind

/-- A phrase that the reader takes at some place of a text was found there, unless it starts within
a phrase that was found. -/
theorem exists_phrase_of_read (hread : Advances read) {lineStart : Bool}
    {front taken back : Text} {value : α}
    (h : read (startsLine lineStart front) (taken ++ back) = some (value, back)) :
    (∃ before after, scan read lineStart (front ++ (taken ++ back)) =
        before ++ .phrase taken value :: after ∧ sources before = front) ∨
      ∃ before found other after inner rest, scan read lineStart (front ++ (taken ++ back)) =
        before ++ .phrase found other :: after ∧ front = sources before ++ inner ∧
          found = inner ++ rest ∧ inner ≠ [] ∧ rest ≠ [] ∧
          taken ++ back = rest ++ sources after := by
  generalize htext : front ++ (taken ++ back) = text
  induction lineStart, text using scan_induction hread generalizing front with
  | nil lineStart =>
    obtain ⟨rfl, happ⟩ := List.append_eq_nil_iff.mp htext
    rw [happ, hread.read_nil] at h
    contradiction
  | plain lineStart c rest hr ih =>
    rw [scan_cons_of_none hr]
    cases front with
    | nil =>
      rw [List.nil_append] at htext
      rw [htext, startsLine_nil, hr] at h
      contradiction
    | cons d front =>
      obtain ⟨rfl, htail⟩ := List.cons.inj htext
      rw [← List.singleton_append, startsLine_append, startsLine_singleton] at h
      rcases ih h htail with ⟨before, after, hscan, hbefore⟩ |
        ⟨before, found, other, after, inner, rest, hscan, hfront, hrest⟩
      · exact Or.inl ⟨.plain d :: before, after, by rw [hscan]; rfl, by rw [← hbefore]; rfl⟩
      · exact Or.inr ⟨.plain d :: before, found, other, after, inner, rest, by rw [hscan]; rfl,
          by rw [hfront]; rfl, hrest⟩
  | phrase lineStart found after other hne hr ih =>
    rw [scan_of_some hne hr]
    by_cases hnil : front = []
    · subst hnil
      rw [List.nil_append] at htext
      rw [startsLine_nil, htext, hr] at h
      obtain ⟨rfl, rfl⟩ := Prod.mk.inj (Option.some.inj h)
      obtain rfl := List.append_cancel_right htext
      exact Or.inl ⟨[], _, rfl, rfl⟩
    · rcases append_cut htext with ⟨rest, hrest, rfl, happ⟩ | ⟨front, rfl, happ⟩
      · refine Or.inr ⟨[], _, other, _, front, rest, rfl, rfl, rfl, hnil, hrest, ?_⟩
        rw [happ, sources_scan hread.keepsSuffix]
      · rw [startsLine_append, startsLine_of_ne_nil _ hne] at h
        rcases ih h happ.symm with ⟨before, behind, hscan, hbefore⟩ |
          ⟨before, second, third, behind, inner, rest, hscan, hfront, hrest⟩
        · exact Or.inl ⟨.phrase found other :: before, behind, by rw [hscan]; rfl,
            by rw [← hbefore]; rfl⟩
        · exact Or.inr ⟨.phrase found other :: before, second, third, behind, inner, rest,
            by rw [hscan]; rfl, by rw [hfront, ← List.append_assoc]; rfl, hrest⟩
/-- What is left of two parts is left of both. -/
theorem withoutPhrases_append (front back : List (Segment α)) :
    withoutPhrases (front ++ back) = withoutPhrases front ++ withoutPhrases back :=
  List.flatMap_append

/-- Characters outside phrases have no places of phrases. -/
theorem locations_map_plain (text : Text) :
    locations (text.map (Segment.plain (α := α))) = [] := by
  induction text with
  | nil => rfl
  | cons c rest ih => rw [List.map_cons, locations, ih]; rfl

/-- What the phrases at their places say is what the phrases say. -/
theorem map_value_locations (segments : List (Segment α)) :
    (locations segments).map Located.value = phraseValues segments := by
  induction segments with
  | nil => rfl
  | cons segment rest ih =>
    have hshift (text : Text) : ((locations rest).map (Located.shift text)).map Located.value =
        phraseValues rest := by
      rw [List.map_map, ← ih]
      rfl
    cases segment with
    | plain c => exact hshift [c]
    | phrase text value => exact congrArg (value :: ·) (hshift text)

/-- The phrases of two parts are those of both. -/
theorem phraseValues_append (front back : List (Segment α)) :
    phraseValues (front ++ back) = phraseValues front ++ phraseValues back :=
  List.filterMap_append

/-- Characters outside phrases say nothing. -/
theorem phraseValues_map_plain (text : Text) :
    phraseValues (text.map (Segment.plain (α := α))) = [] := by
  rw [← map_value_locations, locations_map_plain]
  rfl

/-- Nothing is left out where there are no phrases. -/
theorem withoutPhrases_map_plain (text : Text) :
    withoutPhrases (text.map (Segment.plain (α := α))) = text := by
  rw [withoutPhrases, List.flatMap_map]
  exact List.flatMap_singleton' text

/-- The text of characters outside phrases. -/
theorem sources_map_plain (text : Text) : sources (text.map (Segment.plain (α := α))) = text := by
  rw [sources, List.flatMap_map]
  exact List.flatMap_singleton' text

/-- A cut of what is left without the phrases is a cut between two pieces. -/
theorem exists_of_withoutPhrases_eq {segments : List (Segment α)} {before after : Text}
    (h : withoutPhrases segments = before ++ after) :
    ∃ front back, segments = front ++ back ∧ withoutPhrases front = before ∧
      withoutPhrases back = after := by
  induction segments generalizing before with
  | nil =>
    obtain ⟨rfl, rfl⟩ := List.append_eq_nil_iff.mp h.symm
    exact ⟨[], [], rfl, rfl, rfl⟩
  | cons segment rest ih =>
    cases segment with
    | plain c =>
      cases before with
      | nil => exact ⟨[], .plain c :: rest, rfl, rfl, h⟩
      | cons d before =>
        obtain ⟨rfl, hrest⟩ := List.cons.inj h
        obtain ⟨front, back, rfl, rfl, rfl⟩ := ih hrest
        exact ⟨.plain c :: front, back, rfl, rfl, rfl⟩
    | phrase found value =>
      obtain ⟨front, back, rfl, rfl, rfl⟩ := ih h
      exact ⟨.phrase found value :: front, back, rfl, rfl, rfl⟩

/-- A reader of lines reads nothing within a line. -/
def ReadsLines (read : PhraseReader α) : Prop := ∀ text, read false text = none

/-- Without the phrases of a line reader, lines start where they did, and where a phrase was. -/
theorem startsLine_withoutPhrases_iff (hread : Advances read) (hlines : ReadsLines read)
    {text : Text} {front back : List (Segment α)} (h : scan read true text = front ++ back) :
    startsLine true (withoutPhrases front) = true ↔ startsLine true (sources front) = true ∨
      ∃ init found value, front = init ++ [.phrase found value] := by
  induction front using List.reverseRecOn generalizing back with
  | nil => simp [withoutPhrases, sources]
  | append_singleton init segment ih =>
    rw [List.append_assoc] at h
    have hinit := ih h
    cases segment with
    | plain c =>
      have hleft : withoutPhrases (init ++ [.plain c]) = withoutPhrases init ++ [c] :=
        withoutPhrases_append init [.plain c]
      have hsource : sources (init ++ [.plain c]) = sources init ++ [c] :=
        sources_append init [.plain c]
      rw [hleft, hsource, startsLine_append, startsLine_append, startsLine_singleton,
        startsLine_singleton]
      simp
    | phrase found value =>
      have hleft : withoutPhrases (init ++ [.phrase found value]) = withoutPhrases init := by
        rw [withoutPhrases_append]
        exact List.append_nil _
      -- The phrase was read at the start of a line, and nothing of it is left.
      have hline : startsLine true (sources init) = true := by
        obtain ⟨-, hfound⟩ := read_of_scan hread h
        cases hflag : startsLine true (sources init) with
        | true => rfl
        | false =>
          rw [hflag, hlines] at hfound
          contradiction
      rw [hleft]
      exact iff_of_true (hinit.mpr (Or.inl hline)) (Or.inr ⟨init, found, value, rfl⟩)

end InlineComponents.Text
