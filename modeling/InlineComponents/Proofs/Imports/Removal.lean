import InlineComponents.Proofs.Imports.Recognition

/-!
# A module without its static imports

Static imports are taken out of a module from left to right: where a line starts and a static import
stands there, the longest one is taken, and the next line starts behind it. Every other character is
left where it is. What linking moves and what it leaves in a child is this sifting.
-/

namespace InlineComponents.ImportStatement

open Text

/-- A text behind a front, sifted into its static imports and what is left without them. -/
inductive Sifts : Text → Text → List Text → Text → Prop where
  | done (front : Text) : Sifts front [] [] []
  | keep {front : Text} {c : Char} {rest : Text} {found : List Text} {left : Text}
      (hplain : startsLine true front = true → ∀ statement, IsStaticImport statement →
        ¬ statement <+: c :: rest)
      (hrest : Sifts (front ++ [c]) rest found left) : Sifts front (c :: rest) found (c :: left)
  | take {front statement rest : Text} {found : List Text} {left : Text}
      (hline : startsLine true front = true)
      (hstatic : StartsWithStatic (statement ++ rest) statement)
      (hrest : Sifts (front ++ statement) rest found left) :
      Sifts front (statement ++ rest) (statement :: found) left

/-- The texts of the phrases among some pieces. -/
def phraseTexts (segments : List (Segment Unit)) : List Text :=
  (locations segments).map Located.text

/-- A character that belongs to no phrase adds no text. -/
theorem phraseTexts_plain (c : Char) (segments : List (Segment Unit)) :
    phraseTexts (.plain c :: segments) = phraseTexts segments := by
  rw [phraseTexts, locations, List.map_map]
  rfl

/-- A phrase adds its text. -/
theorem phraseTexts_phrase (text : Text) (segments : List (Segment Unit)) :
    phraseTexts (.phrase text () :: segments) = text :: phraseTexts segments := by
  rw [phraseTexts, locations, List.map_cons, List.map_map]
  rfl

/-- No static import is read where no line starts, or where none stands. -/
theorem staticImport_eq_none_iff {front text : Text} :
    staticImport (startsLine true front) text = none ↔
      (startsLine true front = true → ∀ statement, IsStaticImport statement →
        ¬ statement <+: text) := by
  cases startsLine true front with
  | false => simp [staticImport]
  | true => simp [staticImport, readStaticImport?_eq_none_iff]

/-- A scan for static imports sifts the text. -/
theorem sifts_scan (front text : Text) :
    Sifts front text (phraseTexts (scan staticImport (startsLine true front) text))
      (withoutPhrases (scan staticImport (startsLine true front) text)) := by
  generalize hflag : startsLine true front = flag
  induction flag, text using scan_induction staticImport_advances generalizing front with
  | nil flag =>
    rw [scan_nil]
    exact .done front
  | plain flag c rest hread ih =>
    subst hflag
    rw [scan_cons_of_none hread, phraseTexts_plain]
    exact .keep (staticImport_eq_none_iff.mp hread)
      (ih (front ++ [c]) (by rw [startsLine_append, startsLine_singleton]))
  | phrase flag taken after value hne hread ih =>
    subst hflag
    obtain ⟨hline, hstatic⟩ := staticImport_eq_some_iff.mp hread
    rw [scan_of_some hne hread, phraseTexts_phrase]
    exact .take hline hstatic
      (ih (front ++ taken) (by rw [startsLine_append, startsLine_of_ne_nil _ hne]))

/-- A text is sifted in one way only. -/
theorem Sifts.eq_scan {front text left : Text} {found : List Text}
    (h : Sifts front text found left) :
    found = phraseTexts (scan staticImport (startsLine true front) text) ∧
      left = withoutPhrases (scan staticImport (startsLine true front) text) := by
  induction h with
  | done front =>
    rw [scan_nil]
    exact ⟨rfl, rfl⟩
  | keep hplain hrest ih =>
    rename_i front c rest found left
    rw [startsLine_append, startsLine_singleton] at ih
    rw [scan_cons_of_none (staticImport_eq_none_iff.mpr hplain), phraseTexts_plain]
    exact ⟨ih.1, congrArg (c :: ·) ih.2⟩
  | take hline hstatic hrest ih =>
    rename_i front statement rest found left
    have hne := hstatic.isStatic.ne_nil
    rw [startsLine_append, startsLine_of_ne_nil _ hne] at ih
    rw [scan_of_some hne (staticImport_eq_some_iff.mpr ⟨hline, hstatic⟩), phraseTexts_phrase]
    exact ⟨congrArg (statement :: ·) ih.1, ih.2⟩

/-- The static imports of a module and what is left of it are what sifting it gives. -/
theorem sifts_iff {code left : Text} {found : List Text} :
    Sifts [] code found left ↔
      found = staticImportTexts code ∧ left = withoutStaticImports code :=
  ⟨Sifts.eq_scan, by
    rintro ⟨rfl, rfl⟩
    exact sifts_scan [] code⟩

end InlineComponents.ImportStatement
