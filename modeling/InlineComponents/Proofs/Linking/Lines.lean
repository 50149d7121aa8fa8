import InlineComponents.Proofs.Linking.WrappedImports

/-!
# Modules read line by line

A generated module is a row of lines, and linking only puts further lines between them. What is read
off such a text is read off its lines one after the other: the import statements and the default
export start at the front of a line, and a line that starts with neither word holds none of them.

`Yields f front image` says that a function of texts takes the front of any text to the image and
goes on behind it. It holds of a row of lines when it holds of each.
-/

namespace InlineComponents

open Text Instantiation

/-- A row of no lines. -/
theorem statementLines_nil : statementLines [] = [] := rfl

/-- Rows of lines, one after the other. -/
theorem statementLines_append (first second : List Text) :
    statementLines (first ++ second) = statementLines first ++ statementLines second :=
  List.flatMap_append

/-- A line in front of a row of lines. -/
theorem statementLines_cons (line : Text) (lines : List Text) :
    statementLines (line :: lines) = line ++ '\n' :: statementLines lines := by
  rw [statementLines, List.flatMap_cons, List.append_assoc]
  rfl

namespace Text

/-- The function takes the front to the image, whatever follows. -/
def Yields {β : Type} (f : Text → List β) (front : Text) (image : List β) : Prop :=
  ∀ back, f (front ++ back) = image ++ f back

namespace Yields

variable {β : Type} {f : Text → List β}

/-- Nothing is taken to nothing. -/
theorem nil (f : Text → List β) : Yields f [] [] := fun _ => rfl

/-- Two fronts, one after the other. -/
theorem append {first second : Text} {image other : List β} (hfirst : Yields f first image)
    (hsecond : Yields f second other) : Yields f (first ++ second) (image ++ other) := fun back => by
  rw [List.append_assoc, hfirst, hsecond, List.append_assoc]

/-- A row of pieces. -/
theorem flatMap {α : Type} {pieces : List α} {piece : α → Text} {image : α → List β}
    (h : ∀ x ∈ pieces, Yields f (piece x) (image x)) :
    Yields f (pieces.flatMap piece) (pieces.flatMap image) := by
  induction pieces with
  | nil => exact nil f
  | cons first rest ih =>
    exact (h first List.mem_cons_self).append (ih fun x hx => h x (List.mem_cons_of_mem _ hx))

/-- A row of lines that yield nothing. -/
theorem lines_nil {lines : List Text} (h : ∀ line ∈ lines, Yields f (line ++ ['\n']) []) :
    Yields f (statementLines lines) [] := by
  have hflat := flatMap h
  rwa [List.flatMap_eq_nil_iff.mpr fun _ _ => rfl] at hflat

/-- The image of the whole text, for a function that finds nothing in the empty text. -/
theorem eq {text : Text} {image : List β} (h : Yields f text image) (hnil : f [] = []) :
    f text = image := by
  simpa [hnil] using h []

end Yields

/-! ### The lines of a text -/

/-- A text that ends its line is the row of its lines. -/
theorem statementLines_splitAll (text : Text) :
    statementLines (splitAll '\n' text) = text ++ ['\n'] := by
  induction text with
  | nil => rfl
  | cons c rest ih =>
    rw [splitAll]
    split
    · rename_i hc
      rw [statementLines_cons, ih, hc]
      rfl
    · cases hrest : splitAll '\n' rest with
      | nil => exact absurd hrest (splitAll_ne_nil '\n' rest)
      | cons piece pieces =>
        rw [hrest, statementLines_cons] at ih
        rw [statementLines_cons, List.cons_append, ih, List.cons_append]

/-- The lines of a text in which a word occurs. -/
def linesWith (word text : Text) : List Text := (splitAll '\n' text).filter (occursIn word)

/-- The lines of a text that end in a word. -/
def linesEnding (word text : Text) : List Text := (splitAll '\n' text).filter (word <:+ ·)

/-- A word does not occur where one of its characters is missing. -/
theorem occursIn_eq_false {word text : Text} {c : Char} (hc : c ∈ word) (h : c ∉ text) :
    occursIn word text = false := by
  induction text with
  | nil => cases word <;> simp_all [occursIn]
  | cons d rest ih =>
    have hstart : startsWith word (d :: rest) = false := by
      refine Bool.eq_false_iff.mpr fun hstart => ?_
      obtain ⟨behind, hbehind⟩ := Option.isSome_iff_exists.mp hstart
      rw [dropWord?_eq_some_iff] at hbehind
      exact h (hbehind ▸ List.mem_append_left _ hc)
    rw [occursIn, hstart, ih fun hmem => h (List.mem_cons_of_mem _ hmem), Bool.or_self]

/-- A word does occur where it stands. -/
theorem occursIn_append (front word back : Text) : occursIn word (front ++ (word ++ back)) = true := by
  induction front with
  | nil =>
    cases h : word ++ back with
    | nil => simp_all [occursIn]
    | cons c rest =>
      have hstart : startsWith word (c :: rest) = true := by
        rw [← h, startsWith, dropWord?_append, Option.isSome_some]
      rw [List.nil_append, occursIn, hstart, Bool.true_or]
  | cons c rest ih => rw [List.cons_append, occursIn, ih, Bool.or_true]

/-- The lines that end in a word are among those that it occurs in. -/
theorem linesEnding_eq_filter (word text : Text) :
    linesEnding word text = (linesWith word text).filter (word <:+ ·) := by
  rw [linesEnding, linesWith, List.filter_filter]
  refine List.filter_congr fun line _ => ?_
  by_cases h : word <:+ line
  · obtain ⟨front, rfl⟩ := h
    have hoccurs := occursIn_append front word []
    rw [List.append_nil] at hoccurs
    simp [hoccurs]
  · simp [h]

/-- Behind a line end the lines are those of the two texts. -/
theorem linesEnding_append_cons (word front back : Text) :
    linesEnding word (front ++ '\n' :: back) = linesEnding word front ++ linesEnding word back := by
  rw [linesEnding, splitAll_append_cons, List.filter_append]
  rfl

/-- A single line that does not end in a word does not count. -/
theorem linesEnding_eq_nil {word line : Text} (hline : '\n' ∉ line) (hends : ¬ word <:+ line) :
    linesEnding word line = [] := by
  rw [linesEnding, splitAll_of_not_mem hline, List.filter_eq_nil_iff]
  intro other hother hdecide
  exact hends (List.mem_singleton.mp hother ▸ of_decide_eq_true hdecide)

variable {word : Text} {c : Char}

/-- No line of the empty text holds the word. -/
theorem linesWith_nil (hc : c ∈ word) : linesWith word [] = [] := by
  rw [linesWith, splitAll, List.filter_cons, occursIn_eq_false hc (by simp)]
  rfl

/-- Lines that lack a character of the word do not count. -/
theorem yields_linesWith_nil (hc : c ∈ word) {front : Text} (h : c ∉ front) :
    Yields (linesWith word) (front ++ ['\n']) [] := fun back => by
  have hnone : (splitAll '\n' front).filter (occursIn word) = [] :=
    List.filter_eq_nil_iff.mpr fun piece hpiece => by
      simp [occursIn_eq_false hc (not_mem_of_mem_splitAll h hpiece)]
  rw [List.append_assoc, List.singleton_append, linesWith, splitAll_append_cons, List.filter_append,
    hnone]
  rfl

/-- A line that holds the word counts. -/
theorem yields_linesWith_singleton {line : Text} (hline : '\n' ∉ line)
    (h : occursIn word line = true) : Yields (linesWith word) (line ++ ['\n']) [line] := fun back => by
  rw [List.append_assoc, List.singleton_append, linesWith, splitAll_append hline,
    List.filter_cons_of_pos h]
  rfl

/-! ### Lines without phrases -/

section Phrases

variable {α : Type} {read : PhraseReader α}

/-- No phrase starts at the front of the line, whatever follows. -/
structure Silent (read : PhraseReader α) (line : Text) : Prop where
  lineFeed : '\n' ∉ line
  passed : ∀ back, read true (line ++ '\n' :: back) = none

/-- Behind the start of a line nothing is found up to its end. -/
theorem scan_behind_start (hlines : ReadsLines read) {line : Text} (hline : '\n' ∉ line)
    (back : Text) :
    scan read false (line ++ '\n' :: back) = (line ++ ['\n']).map .plain ++ scanAll read back := by
  induction line with
  | nil => rw [List.nil_append, scan_cons_of_none (hlines _)]; rfl
  | cons c rest ih =>
    have hc : (c == '\n') = false := beq_false_of_ne fun h => hline (h ▸ List.mem_cons_self)
    rw [List.cons_append, scan_cons_of_none (hlines _), hc,
      ih fun hmem => hline (List.mem_cons_of_mem _ hmem)]
    rfl

/-- A silent line is passed over. -/
theorem Silent.yields {line : Text} (hlines : ReadsLines read) (h : Silent read line) :
    Yields (scanAll read) (line ++ ['\n']) ((line ++ ['\n']).map .plain) := fun back => by
  cases line with
  | nil => rw [List.nil_append, List.singleton_append, scanAll, scan_cons_of_none (h.passed back)]; rfl
  | cons c rest =>
    have hc : (c == '\n') = false := beq_false_of_ne fun heq => h.lineFeed (heq ▸ List.mem_cons_self)
    have hnone : read true (c :: (rest ++ '\n' :: back)) = none := h.passed back
    rw [List.append_assoc, List.singleton_append, List.cons_append, scanAll,
      scan_cons_of_none hnone, hc,
      scan_behind_start hlines fun hmem => h.lineFeed (List.mem_cons_of_mem _ hmem)]
    rfl

/-- Silent lines are passed over. -/
theorem yields_of_silent {lines : List Text} (hlines : ReadsLines read)
    (h : ∀ line ∈ lines, Silent read line) :
    Yields (scanAll read) (statementLines lines) ((statementLines lines).map .plain) := by
  have hflat := Yields.flatMap fun line hline => (h line hline).yields hlines
  rwa [← List.map_flatMap] at hflat

/-- The place of the only phrase. -/
theorem locations_phrase (front text back : Text) (value : α) :
    locations (front.map .plain ++ (.phrase text value :: back.map .plain)) =
      [⟨front, text, back, value⟩] := by
  simp [locations_append, locations_map_plain, locations, sources_map_plain, Located.shift]

end Phrases

/-- A word without the separator is not completed behind the separator. -/
theorem startsWith_append_cons {word front : Text} {separator : Char} (hword : separator ∉ word)
    (h : startsWith word front = false) (back : Text) :
    dropWord? word (front ++ separator :: back) = none := by
  induction word generalizing front with
  | nil => simp [startsWith, dropWord?] at h
  | cons w word ih =>
    cases front with
    | nil =>
      have hne : w ≠ separator := fun heq => hword (heq ▸ List.mem_cons_self)
      simp [dropWord?, hne]
    | cons c rest =>
      rw [List.cons_append, dropWord?]
      split
      · rename_i heq
        refine ih (fun hmem => hword (List.mem_cons_of_mem _ hmem)) ?_
        simpa [startsWith, dropWord?, heq] using h
      · rfl

end Text

/-! ### Lines that start no statement -/

namespace ImportStatement

/-- The static imports of a text are those of its front and those behind. -/
theorem yields_staticImportTexts {front : Text} {segments : List (Segment Unit)}
    (h : Yields (scanAll staticImport) front segments) :
    Yields staticImportTexts front ((locations segments).map Located.text) := fun back => by
  rw [staticImportTexts, h, locations_append, List.map_append, List.map_map, List.map_map,
    staticImportTexts]
  rfl

/-- The empty text holds no static import. -/
theorem staticImportTexts_nil : staticImportTexts [] = [] := by
  rw [staticImportTexts, scanAll, scan_nil]
  rfl

/-- Spaces are skipped within the line. -/
theorem skipSpaces_append (line back : Text) :
    skipSpaces (line ++ '\n' :: back) = skipSpaces line ++ '\n' :: back := by
  obtain ⟨spaces, rest, rfl, hspaces, hrest⟩ := exists_stretch isSpaceOrTab line
  have hbehind : Stops isSpaceOrTab (rest ++ '\n' :: back) := by
    cases rest with
    | nil => exact stops_cons.mpr (by decide)
    | cons c tail => exact stops_cons.mpr (stops_cons.mp hrest)
  rw [skipSpaces, skipSpaces, List.append_assoc, dropWhile_stretch hspaces hbehind,
    dropWhile_stretch hspaces hrest]

end ImportStatement

/-- A default export is read at the start of a line only. -/
theorem DefaultExport.readsLines_reader : ReadsLines reader := fun _ => rfl

/-- A named import is read at the start of a line only. -/
theorem ImportStatement.readsLines_namedImport : ReadsLines namedImport := fun _ => rfl

namespace ImportStatement

variable {line : Text}

/-- No first word of an import is read. -/
theorem afterImportWord?_eq_none (h : startsWith "import".toList (skipSpaces line) = false)
    (back : Text) : afterImportWord? (line ++ '\n' :: back) = none := by
  rw [afterImportWord?, skipSpaces_append]
  exact startsWith_append_cons (by decide) h back

/-- A line that does not start with the first word of an import holds no static import. -/
theorem silent_staticImport (hline : '\n' ∉ line)
    (h : startsWith "import".toList (skipSpaces line) = false) : Silent staticImport line where
  lineFeed := hline
  passed back := by
    rw [staticImport, if_pos rfl, readStaticImport?, afterImportWord?_eq_none h]
    rfl

/-- Such a line has no text of a static import. -/
theorem yields_staticImportTexts_nil (hline : '\n' ∉ line)
    (h : startsWith "import".toList (skipSpaces line) = false) :
    Yields staticImportTexts (line ++ ['\n']) [] := by
  have hyields := yields_staticImportTexts
    ((silent_staticImport hline h).yields readsLines_staticImport)
  rwa [locations_map_plain] at hyields

/-- A line that does not start with the first word of an import holds no named import. -/
theorem silent_namedImport (hline : '\n' ∉ line)
    (h : startsWith "import".toList (skipSpaces line) = false) : Silent namedImport line where
  lineFeed := hline
  passed back := by
    rw [namedImport, if_pos rfl, readNamedImport?, afterImportWord?_eq_none h]
    rfl

end ImportStatement

/-- A line that does not start with the first word of an export holds no default export. -/
theorem DefaultExport.silent_reader {line : Text} (hline : '\n' ∉ line)
    (h : startsWith "export".toList (ImportStatement.skipSpaces line) = false) :
    Silent DefaultExport.reader line where
  lineFeed := hline
  passed back := by
    rw [DefaultExport.reader, if_pos rfl, DefaultExport.read?, ImportStatement.skipSpaces_append,
      startsWith_append_cons (by decide) h]
    rfl

end InlineComponents
