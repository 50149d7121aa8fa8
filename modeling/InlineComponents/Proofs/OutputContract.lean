import InlineComponents.OutputContract
import InlineComponents.Proofs.Linking.Qualification

/-!
# The form of a default export

A default export is read from two words between blanks and an expression, which reaches to the end
of its line or to a semicolon. Whether one is read depends on no more than the first character of
the expression, so qualifying a module neither adds a default export nor takes one away.
-/

namespace InlineComponents

open Text

namespace DefaultExport

/-- The words of a default export, with blanks in front of the first that are no line ends. -/
inductive Words : Text → Prop where
  | intro {indent gap : Text} (hindent : indent.all isSpaceOrTab = true)
      (hgap : isBlankText gap = true) (hne : gap ≠ []) :
      Words (indent ++ ("export".toList ++ (gap ++ "default".toList)))

/-- A default export starts on its line, with a space or with its first word. -/
theorem Words.exists_cons {words : Text} (h : Words words) :
    ∃ c rest, words = c :: rest ∧ (isSpaceOrTab c = true ∨ c = 'e') := by
  obtain ⟨hindent, -, -⟩ := h
  rename_i indent gap
  cases indent with
  | nil => exact ⟨'e', _, rfl, Or.inr rfl⟩
  | cons c indent =>
    exact ⟨c, _, rfl, Or.inl (List.all_eq_true.mp hindent c List.mem_cons_self)⟩

/-- Reading takes the words, and then an expression behind blanks. -/
theorem read?_eq_some_iff {text value after : Text} :
    read? text = some (value, after) ↔
      ∃ words rest tail, Words words ∧ text = words ++ rest ∧
        readExpression? rest = some (value, tail) ∧
        after = ImportStatement.dropOptional ';' tail := by
  constructor
  · intro h
    obtain ⟨afterExport, hexport, h⟩ := Option.bind_eq_some_iff.mp h
    obtain ⟨afterGap, hgap, h⟩ := Option.bind_eq_some_iff.mp h
    obtain ⟨rest, hdefault, h⟩ := Option.bind_eq_some_iff.mp h
    obtain ⟨⟨value, tail⟩, hexpression, h⟩ := Option.bind_eq_some_iff.mp h
    obtain ⟨rfl, rfl⟩ := Prod.mk.inj (Option.some.inj h)
    obtain ⟨⟨gap, hblank, hne, rfl⟩, -⟩ := skipSomeBlanks?_eq_some_iff.mp hgap
    obtain rfl := dropWord?_eq_some_iff.mp hdefault
    have hskip := dropWord?_eq_some_iff.mp hexport
    refine ⟨text.takeWhile isSpaceOrTab ++ ("export".toList ++ (gap ++ "default".toList)), rest,
      tail, .intro List.all_takeWhile hblank hne, ?_, hexpression, rfl⟩
    rw [List.append_assoc, List.append_assoc, List.append_assoc, ← hskip]
    exact List.takeWhile_append_dropWhile.symm
  · rintro ⟨words, rest, tail, ⟨hindent, hgap, hne⟩, rfl, hexpression, rfl⟩
    rename_i indent gap
    have hskip : ImportStatement.skipSpaces (indent ++ ("export".toList ++ (gap ++
        ("default".toList ++ rest)))) = "export".toList ++ (gap ++ ("default".toList ++ rest)) :=
      dropWhile_stretch hindent (stops_cons.mpr (by decide))
    have hsome : skipSomeBlanks? (gap ++ ("default".toList ++ rest)) =
        some ("default".toList ++ rest) :=
      skipSomeBlanks?_eq_some_iff.mpr ⟨⟨gap, hgap, hne, rfl⟩, stops_cons.mpr (by decide)⟩
    simp only [List.append_assoc]
    simp only [read?, bind, hskip, dropWord?_append, hsome, hexpression, Option.bind_some]

/-- The last character of a stretch that is no line feed is one of its characters. -/
theorem lastInLine?_eq_some {text after : Text} {c : Char}
    (h : lastInLine? text = some (c, after)) : ∃ before, text = before ++ c :: after := by
  induction text with
  | nil => contradiction
  | cons d rest ih =>
    rw [lastInLine?] at h
    split at h
    · rename_i found hfound
      obtain rfl := Option.some.inj h
      obtain ⟨before, rfl⟩ := ih hfound
      exact ⟨d :: before, rfl⟩
    · split at h
      · obtain ⟨rfl, rfl⟩ := Prod.mk.inj (Option.some.inj h)
        exact ⟨[], rfl⟩
      · contradiction

/-- Behind blanks the expression reaches to the end of the line or to a semicolon. An empty one is
taken from the blanks. -/
theorem readExpression?_blanks {c : Char} {blanks rest : Text}
    (hblanks : isBlankText (c :: blanks) = true) (hrest : Stops isBlank rest) :
    readExpression? (c :: blanks ++ rest) =
      match rest.takeWhile isExpressionCharacter with
      | [] => (lastInLine? blanks).map fun found => ([found.1], found.2 ++ rest)
      | expression => some (expression, rest.dropWhile isExpressionCharacter) := by
  have htake : (c :: blanks ++ rest).takeWhile isBlank = c :: blanks :=
    takeWhile_stretch hblanks hrest
  have hdrop : (c :: blanks ++ rest).dropWhile isBlank = rest := dropWhile_stretch hblanks hrest
  cases hexpression : rest.takeWhile isExpressionCharacter with
  | nil => simp only [readExpression?, htake, hdrop, hexpression]
  | cons d expression => simp only [readExpression?, htake, hdrop, hexpression]

/-- An expression is read behind at least one blank. -/
theorem exists_blanks_of_readExpression? {text value tail : Text}
    (h : readExpression? text = some (value, tail)) :
    ∃ c blanks rest, text = c :: blanks ++ rest ∧ isBlankText (c :: blanks) = true ∧
      Stops isBlank rest := by
  obtain ⟨blanks, rest, rfl, hblanks, hrest⟩ := exists_stretch isBlank text
  cases blanks with
  | nil =>
    unfold readExpression? at h
    have htake : ([] ++ rest).takeWhile isBlank = [] := takeWhile_stretch hblanks hrest
    rw [htake] at h
    contradiction
  | cons c blanks => exact ⟨c, blanks, rest, rfl, hblanks, hrest⟩

/-- What is left behind an expression is an end of the text. -/
theorem readExpression?_suffix {text value tail : Text}
    (h : readExpression? text = some (value, tail)) : tail <:+ text := by
  obtain ⟨c, blanks, rest, rfl, hblanks, hrest⟩ := exists_blanks_of_readExpression? h
  rw [readExpression?_blanks hblanks hrest] at h
  split at h
  · obtain ⟨⟨d, after⟩, hlast, he⟩ := Option.map_eq_some_iff.mp h
    obtain ⟨rfl, rfl⟩ := Prod.mk.inj he
    obtain ⟨before, rfl⟩ := lastInLine?_eq_some hlast
    exact ⟨c :: before ++ [d], by simp⟩
  · obtain ⟨rfl, rfl⟩ := Prod.mk.inj (Option.some.inj h)
    exact (List.dropWhile_suffix _).trans (List.suffix_append _ _)

/-- Default exports are read one after the other. -/
theorem reader_advances : Advances reader := by
  intro lineStart text value after h
  simp only [reader] at h
  split at h
  · obtain ⟨words, rest, tail, hwords, rfl, hexpression, rfl⟩ := read?_eq_some_iff.mp h
    obtain ⟨taken, htaken⟩ :=
      (ImportStatement.dropOptional_suffix ';' tail).trans (readExpression?_suffix hexpression)
    refine ⟨words ++ taken, ?_, by rw [List.append_assoc, htaken]⟩
    cases hwords
    simp
  · contradiction

/-- Whether an expression is read behind blanks depends on the first character of the rest. -/
theorem readExpression?_isSome_congr {c : Char} {blanks rest other : Text}
    (hblanks : isBlankText (c :: blanks) = true) (hrest : Stops isBlank rest)
    (hhead : other.head? = rest.head?) :
    (readExpression? (c :: blanks ++ other)).isSome =
      (readExpression? (c :: blanks ++ rest)).isSome := by
  have hother : Stops isBlank other := by
    intro d hd
    exact hrest d (hhead ▸ hd)
  rw [readExpression?_blanks hblanks hrest, readExpression?_blanks hblanks hother]
  cases rest with
  | nil =>
    obtain rfl := List.head?_eq_none_iff.mp hhead
    rfl
  | cons d rest =>
    obtain ⟨tail, rfl⟩ := List.head?_eq_some_iff.mp hhead
    by_cases hd : isExpressionCharacter d = true
    · simp [hd]
    · simp [hd]

/-- The words of a default export hold nothing but letters and blanks. -/
theorem Words.not_mem {words : Text} (h : Words words) {c : Char} (hblank : isBlank c = false)
    (hplain : isPlainCharacter c = false) : c ∉ words := by
  obtain ⟨hindent, hgap, -⟩ := h
  rename_i indent gap
  have hspaces : c ∉ indent := fun hmem => by
    have := List.all_eq_true.mp (isBlankText_of_spaces hindent).1 c hmem
    rw [hblank] at this
    contradiction
  have hblanks : c ∉ gap := fun hmem => by
    have := List.all_eq_true.mp hgap c hmem
    rw [hblank] at this
    contradiction
  have hword {word : Text} (hall : word.all isPlainCharacter = true) : c ∉ word := fun hmem => by
    have := List.all_eq_true.mp hall c hmem
    rw [hplain] at this
    contradiction
  have hexport : c ∉ "export".toList := hword (by decide)
  have hdefault : c ∉ "default".toList := hword (by decide)
  simp only [List.mem_append, hspaces, hblanks, hexport, hdefault, or_self, not_false_eq_true]

variable {binding : Text} {names : List Text}

/-- A default export at the front of a qualified text was there before. -/
theorem isSome_read?_of_qualifyAll {text : Text}
    (h : (read? (Instantiation.qualifyAll binding names text)).isSome = true) :
    (read? text).isSome = true := by
  obtain ⟨⟨value, after⟩, hread⟩ := Option.isSome_iff_exists.mp h
  obtain ⟨words, rest, tail, hwords, hqualified, hexpression, -⟩ := read?_eq_some_iff.mp hread
  obtain ⟨c, blanks, other, rfl, hblanks, hother⟩ := exists_blanks_of_readExpression? hexpression
  have hequals : '=' ∉ words ++ (c :: blanks) := by
    have : '=' ∉ c :: blanks := fun hmem =>
      absurd (List.all_eq_true.mp hblanks _ hmem) (by decide)
    simp only [List.mem_append, hwords.not_mem (c := '=') (by decide) (by decide), this, or_self,
      not_false_eq_true]
  rw [← List.append_assoc] at hqualified
  obtain ⟨original, rfl, rfl⟩ := Instantiation.exists_of_qualifyAll_eq hequals hqualified
  have hsome : (readExpression? (c :: blanks ++ original)).isSome = true := by
    rw [readExpression?_isSome_congr hblanks hother (Instantiation.head?_qualifyAll original).symm,
      hexpression]
    rfl
  obtain ⟨⟨found, left⟩, hfound⟩ := Option.isSome_iff_exists.mp hsome
  rw [read?_eq_some_iff.mpr ⟨words, _, left, hwords, List.append_assoc _ _ _, hfound, rfl⟩]
  rfl

/-- No default export starts in front of a binding that was put into an instantiation. -/
theorem read?_of_insertedAt {text : Text} (hbinding : isPlainIdentifier binding = true)
    (h : Instantiation.InsertedAt binding text) : read? text = none := by
  cases hread : read? text with
  | none => rfl
  | some found =>
    obtain ⟨words, rest, tail, ⟨hindent, hgap, hne⟩, htext, -⟩ := read?_eq_some_iff.mp hread
    rename_i indent gap
    obtain ⟨hblank, hdot⟩ := isBlankText_of_spaces hindent
    have hparts : text = indent ++ "export".toList ++ (gap ++ ("default".toList ++ rest)) := by
      rw [htext]
      simp
    obtain ⟨c, tail, happ, hc⟩ := h.continues hbinding hblank (by decide) (by decide) hdot hparts
    have hstops := stops_cons.mp (happ ▸ Stops.of_stretch hne hgap
      (fun _ => isPlainCharacter_of_isBlank) ("default".toList ++ rest))
    obtain ⟨d, gap, rfl⟩ := List.exists_cons_of_ne_nil hne
    obtain ⟨rfl, -⟩ := List.cons.inj happ
    rcases hc with hc | rfl
    · rw [hstops] at hc
      contradiction
    · exact absurd (List.all_eq_true.mp hgap '.' List.mem_cons_self) (by decide)

/-- Qualifying adds no default export. -/
theorem locations_qualifyAll (hbinding : isPlainIdentifier binding = true) {lineStart : Bool}
    {text : Text} (h : locations (scan reader lineStart text) = []) :
    locations (scan reader lineStart (Instantiation.qualifyAll binding names text)) = [] := by
  rw [locations_scan_eq_nil_iff reader_advances] at h ⊢
  intro front back happ
  cases hflag : startsLine lineStart front with
  | false => rfl
  | true =>
    have hline : startsLine true front = true := by
      cases front with
      | nil => rfl
      | cons c rest =>
        rwa [startsLine_of_ne_nil _ (List.cons_ne_nil c rest)] at hflag ⊢
    rcases Instantiation.exists_of_line hbinding happ hline with
      ⟨before, after, rfl, rfl, hflags⟩ | hinserted
    · have hnone := h before after rfl
      rw [hflags, hflag] at hnone
      change read? after = none at hnone
      change read? (Instantiation.qualifyAll binding names after) = none
      cases hread : read? (Instantiation.qualifyAll binding names after) with
      | none => rfl
      | some found =>
        have := isSome_read?_of_qualifyAll (by rw [hread]; rfl)
        rw [hnone] at this
        contradiction
    · exact read?_of_insertedAt hbinding hinserted

/-- An optional character is dropped once, if it comes first. -/
theorem exists_of_dropOptional {c : Char} {text after : Text}
    (h : after = ImportStatement.dropOptional c text) :
    ∃ dropped, text = dropped ++ after ∧
      (dropped = [c] ∨ dropped = [] ∧ Stops (· = c) after) := by
  cases text with
  | nil =>
    exact ⟨[], by simpa [ImportStatement.dropOptional] using h,
      Or.inr ⟨rfl, by simp_all [ImportStatement.dropOptional]⟩⟩
  | cons d rest =>
    by_cases hd : d = c
    · subst hd
      exact ⟨[d], by simp [h, ImportStatement.dropOptional], Or.inl rfl⟩
    · simp only [ImportStatement.dropOptional, hd, ↓reduceIte] at h
      subst h
      exact ⟨[], rfl, Or.inr ⟨rfl, by simpa using hd⟩⟩

/-- The characters of a text that is an identifier between blanks. -/
theorem plain_or_blank_of_trim {text : Text} (h : isPlainIdentifier (trim text) = true) :
    ∀ c ∈ text, isPlainCharacter c = true ∨ isBlank c = true := by
  intro c hc
  obtain ⟨tail, happ, htail⟩ := dropEndWhile_append_exists isBlank (skipBlanks text)
  have htext : text = text.takeWhile isBlank ++ (trim text ++ tail) := by
    rw [trim, trimEnd, happ]
    exact List.takeWhile_append_dropWhile.symm
  rw [htext, List.mem_append, List.mem_append] at hc
  rcases hc with hc | hc | hc
  · exact Or.inr (List.all_eq_true.mp List.all_takeWhile c hc)
  · exact Or.inl (List.all_eq_true.mp (isPlainIdentifier_iff.mp h).2 c hc)
  · exact Or.inr (List.all_eq_true.mp htail c hc)

/-- A default export of an identifier is read in front of any text that starts like the one it was
found in front of. -/
theorem read?_identifier {text value after : Text} (h : read? (text ++ after) = some (value, after))
    (hvalue : isPlainIdentifier (trim value) = true) :
    '=' ∉ text ∧ ∀ other : Text, other.head? = after.head? →
      read? (text ++ other) = some (value, other) := by
  obtain ⟨words, rest, tail, hwords, htext, hexpression, hafter⟩ := read?_eq_some_iff.mp h
  obtain ⟨c, blanks, inner, rfl, hblanks, hinner⟩ := exists_blanks_of_readExpression? hexpression
  rw [readExpression?_blanks hblanks hinner] at hexpression
  split at hexpression
  · -- A blank that was taken for the expression is no identifier.
    exfalso
    obtain ⟨⟨d, left⟩, hlast, he⟩ := Option.map_eq_some_iff.mp hexpression
    obtain ⟨rfl, -⟩ := Prod.mk.inj he
    obtain ⟨before, rfl⟩ := lastInLine?_eq_some hlast
    have hd : isBlank d = true := List.all_eq_true.mp hblanks d (by simp)
    simp [trim, trimEnd, skipBlanks, hd, dropEndWhile, isPlainIdentifier] at hvalue
  · rename_i expression hne
    obtain ⟨rfl, rfl⟩ := Prod.mk.inj (Option.some.inj hexpression)
    obtain ⟨dropped, htail, hdropped⟩ := exists_of_dropOptional hafter
    generalize hexp : inner.takeWhile isExpressionCharacter = expression at *
    have hinnerEq : inner = expression ++ (dropped ++ after) := by
      rw [← htail, ← hexp]
      exact List.takeWhile_append_dropWhile.symm
    have hall : expression.all isExpressionCharacter = true := hexp ▸ List.all_takeWhile
    have htextEq : text = words ++ (c :: blanks ++ (expression ++ dropped)) := by
      rw [hinnerEq] at htext
      have hafter : text ++ after = words ++ (c :: blanks ++ (expression ++ dropped)) ++ after := by
        rw [htext]
        simp
      exact List.append_cancel_right hafter
    have hequals : '=' ∉ expression := fun hmem => by
      rcases plain_or_blank_of_trim hvalue _ hmem with h | h <;> exact absurd h (by decide)
    have hequalsBlanks : '=' ∉ c :: blanks := fun hmem =>
      absurd (List.all_eq_true.mp hblanks _ hmem) (by decide)
    have hequalsDropped : '=' ∉ dropped := by
      rcases hdropped with rfl | ⟨rfl, -⟩ <;> simp
    refine ⟨?_, fun other hother => ?_⟩
    · rw [htextEq]
      simp only [List.mem_append, hwords.not_mem (c := '=') (by decide) (by decide), hequals,
        hequalsBlanks, hequalsDropped, or_self, not_false_eq_true]
    · have hstops : Stops isExpressionCharacter (dropped ++ other) := by
        rcases hdropped with rfl | ⟨rfl, -⟩
        · exact stops_cons.mpr (by decide)
        · rw [List.nil_append] at htail ⊢
          intro d hd
          exact stops_dropWhile d (htail ▸ hother ▸ hd)
      have hblank : Stops isBlank (expression ++ (dropped ++ other)) := by
        obtain ⟨d, expression, rfl⟩ := List.exists_cons_of_ne_nil hne
        exact stops_cons.mpr (stops_cons.mp (hinnerEq ▸ hinner))
      refine read?_eq_some_iff.mpr
        ⟨words, c :: blanks ++ (expression ++ (dropped ++ other)), dropped ++ other, hwords,
          by rw [htextEq]; simp, ?_, ?_⟩
      · rw [readExpression?_blanks hblanks hblank, takeWhile_stretch hall hstops,
          dropWhile_stretch hall hstops]
        split
        · contradiction
        · rfl
      · rcases hdropped with rfl | ⟨rfl, hsemicolon⟩
        · rfl
        · cases other with
          | nil => rfl
          | cons d other =>
            have hd : d ≠ ';' := by simpa using hsemicolon d (hother ▸ rfl)
            simp [ImportStatement.dropOptional, hd]

/-- The rest of a line and what follows it are left when a stretch within a line is dropped. -/
theorem suffix_dropWhile {p : Char → Bool} {c : Char} (hc : p c = false) (front back : Text) :
    c :: back <:+ (front ++ c :: back).dropWhile p := by
  induction front with
  | nil => simp [hc]
  | cons d front ih =>
    rw [List.cons_append, List.dropWhile_cons]
    split
    · exact ih
    · exact List.suffix_append (d :: front) (c :: back)

/-- Dropping an optional character drops no more than one. -/
theorem suffix_dropOptional {c d : Char} {back text : Text} (h : c :: back <:+ text) :
    back <:+ ImportStatement.dropOptional d text := by
  obtain ⟨front, rfl⟩ := h
  cases front with
  | nil =>
    simp only [List.nil_append, ImportStatement.dropOptional]
    split
    · exact List.suffix_rfl
    · exact List.suffix_cons c back
  | cons e front =>
    simp only [List.cons_append, ImportStatement.dropOptional]
    split
    · exact ⟨front ++ [c], by simp⟩
    · exact ⟨e :: front ++ [c], by simp⟩

/-- No default export that starts in front of a slash and two line ends reaches behind them. -/
theorem suffix_of_read?_slash {front rest value back after : Text}
    (hrest : rest <:+ front ++ ['/', '\n', '\n']) (hne : rest ≠ [])
    (h : read? (rest ++ back) = some (value, after)) : back <:+ after := by
  obtain ⟨words, inner, tail, hwords, htext, hexpression, rfl⟩ := read?_eq_some_iff.mp h
  obtain ⟨c, blanks, expression, rfl, hblanks, hstops⟩ :=
    exists_blanks_of_readExpression? hexpression
  have hslash : '/' ∉ words ++ (c :: blanks) := by
    have : '/' ∉ c :: blanks := fun hmem =>
      absurd (List.all_eq_true.mp hblanks _ hmem) (by decide)
    simp only [List.mem_append, hwords.not_mem (c := '/') (by decide) (by decide), this, or_self,
      not_false_eq_true]
  obtain ⟨before, hbefore⟩ := hrest
  rcases List.append_eq_append_iff.mp hbefore with ⟨inner, -, rfl⟩ | ⟨left, -, hleft⟩
  · -- The expression starts no later than at the slash, so it ends with the line of the slash.
    have hcut : inner ++ '/' :: '\n' :: '\n' :: back = (words ++ (c :: blanks)) ++ expression := by
      rw [List.append_assoc, ← htext]
      simp
    obtain ⟨kept, rfl⟩ : ∃ kept, expression = kept ++ '/' :: '\n' :: '\n' :: back := by
      rcases List.append_eq_append_iff.mp hcut with ⟨left, hfront, hback⟩ | ⟨left, -, rfl⟩
      · cases left with
        | nil => exact ⟨[], hback.symm⟩
        | cons d left =>
          obtain ⟨rfl, -⟩ := List.cons.inj hback
          exact absurd (hfront ▸ by simp) hslash
      · exact ⟨left, rfl⟩
    rw [readExpression?_blanks hblanks hstops] at hexpression
    have hline : '\n' :: '\n' :: back <:+ tail := by
      split at hexpression
      · obtain ⟨⟨d, left⟩, -, he⟩ := Option.map_eq_some_iff.mp hexpression
        obtain ⟨-, rfl⟩ := Prod.mk.inj he
        exact ⟨left ++ kept ++ ['/'], by simp⟩
      · obtain ⟨-, rfl⟩ := Prod.mk.inj (Option.some.inj hexpression)
        have := suffix_dropWhile (p := isExpressionCharacter) (c := '\n') (by decide)
          (kept ++ ['/']) ('\n' :: back)
        rwa [List.append_assoc] at this
    exact (List.suffix_cons '\n' back).trans (suffix_dropOptional hline)
  · -- A default export does not start with a line end.
    obtain ⟨d, rest, rfl⟩ := List.exists_cons_of_ne_nil hne
    have hd : d ∈ ['/', '\n', '\n'] := hleft ▸ List.mem_append_right left List.mem_cons_self
    obtain ⟨e, words, rfl, he⟩ := hwords.exists_cons
    obtain ⟨rfl, -⟩ := List.cons.inj htext
    rcases he with he | rfl
    · simp only [List.mem_cons, List.not_mem_nil, or_false, or_self] at hd
      rcases hd with rfl | rfl <;> exact absurd he (by decide)
    · exact absurd hd (by decide)

/-- A default export that was found is the last one of the text, starts a line and exports a plain
identifier. -/
theorem defaultExport_eq_ok {code : Text} {exported : DefaultExport}
    (h : OutputContract.defaultExport code = .ok exported) :
    code = exported.place.before ++ (exported.place.text ++ exported.place.after) ∧
      startsLine true exported.place.before = true ∧ exported.place.text ≠ [] ∧
      read? (exported.place.text ++ exported.place.after) =
        some (exported.place.value, exported.place.after) ∧
      locations (scan reader (endsLine exported.place.text) exported.place.after) = [] ∧
      exported.binding = trim exported.place.value ∧
      isPlainIdentifier exported.binding = true := by
  unfold OutputContract.defaultExport at h
  split at h
  · contradiction
  · rename_i place hlast
    simp only at h
    split at h
    · rename_i hident
      obtain rfl := Except.ok.inj h
      obtain ⟨htext, hne, hread, hafter⟩ := last_location reader_advances hlast
      simp only [reader] at hread
      split at hread
      · rename_i hline
        exact ⟨by rw [htext, List.append_assoc], hline, hne, hread, hafter, rfl, hident⟩
      · contradiction
    · contradiction

/-- The default export of a text is still the last one, and binds the same name, when the text in
front of it is replaced by one that ends with a slash and two line ends, and the text behind it is
qualified. -/
theorem defaultExport_of_qualified {code front : Text} {exported : DefaultExport}
    (h : OutputContract.defaultExport code = .ok exported)
    (hbinding : isPlainIdentifier binding = true) :
    OutputContract.defaultExport (front ++ ['/', '\n', '\n'] ++
      Instantiation.qualifyAll binding names (exported.place.text ++ exported.place.after)) =
        .ok ⟨⟨front ++ ['/', '\n', '\n'], exported.place.text,
          Instantiation.qualifyAll binding names exported.place.after, exported.place.value⟩,
          exported.binding⟩ := by
  obtain ⟨-, -, hne, hread, hafter, hvalue, hident⟩ := defaultExport_eq_ok h
  obtain ⟨hequals, hother⟩ := read?_identifier hread (hvalue ▸ hident)
  rw [Instantiation.qualifyAll_append_of_no_equals hequals]
  generalize hqualified : Instantiation.qualifyAll binding names exported.place.after = after
  have hhead : after.head? = exported.place.after.head? :=
    hqualified ▸ Instantiation.head?_qualifyAll exported.place.after
  have hnone : locations (scan reader (endsLine exported.place.text) after) = [] :=
    hqualified ▸ locations_qualifyAll hbinding hafter
  have hline : startsLine true (front ++ ['/', '\n', '\n']) = true := by
    rw [startsLine_append_of_ne_nil _ _ (List.cons_ne_nil _ _)]
    rfl
  have hreader : reader true (exported.place.text ++ after) = some (exported.place.value, after) :=
    hother after hhead
  have hcut : ∀ flag rest value left, rest <:+ front ++ ['/', '\n', '\n'] → rest ≠ [] →
      reader flag (rest ++ (exported.place.text ++ after)) = some (value, left) →
        exported.place.text ++ after <:+ left := by
    intro flag rest value left hrest hne hread
    simp only [reader] at hread
    split at hread
    · exact suffix_of_read?_slash hrest hne hread
    · contradiction
  obtain ⟨segments, hsources, hscan⟩ :=
    @exists_scan_append _ _ reader_advances true _ _ hcut
  rw [hline] at hscan
  have hlast := getLast?_locations hsources hne hreader hnone reader_advances
  rw [← hscan] at hlast
  unfold OutputContract.defaultExport
  rw [scanAll, hlast]
  simp only [← hvalue, hident, ↓reduceIte]

end DefaultExport

end InlineComponents
