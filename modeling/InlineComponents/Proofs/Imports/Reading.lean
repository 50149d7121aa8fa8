import InlineComponents.Imports.Phrase
import InlineComponents.Proofs.Text.Spans

/-!
# The forms of import statements

Every reader of import statements looks for a quoted source behind a head without quotes. What each
of them asks of the head is stated here, so that a reader accepts exactly the texts of its form.
-/

namespace InlineComponents

open Text

namespace ImportStatement

/-- A text cut at its first quoted source: the head in front of it, the source and what follows. -/
inductive IsQuoted : (text head source after : Text) → Prop where
  | intro {head source after : Text} {opening closing : Char} (hopening : isQuote opening = true)
      (hclosing : isQuote closing = true) (hhead : ∀ c ∈ head, isQuote c = false)
      (hne : source ≠ []) (hsource : ∀ c ∈ source, isQuote c = false) :
      IsQuoted (head ++ opening :: (source ++ closing :: after)) head source after

/-- A quote is no blank. -/
theorem isBlank_of_isQuote {c : Char} (h : isQuote c = true) : isBlank c = false := by
  simp only [isQuote, Bool.or_eq_true, decide_eq_true_eq] at h
  rcases h with rfl | rfl <;> decide

/-- No quote stands in a blank text. -/
theorem isQuote_eq_false_of_isBlankText {blanks : Text} (h : isBlankText blanks = true) :
    ∀ c ∈ blanks, isQuote c = false := fun _ hc =>
  Bool.eq_false_iff.mpr fun hquote =>
    not_mem_of_isBlankText (isBlank_of_isQuote hquote) h hc

/-- A text without quotes is taken up to the first quote. -/
theorem all_not_quote {text : Text} (h : ∀ c ∈ text, isQuote c = false) :
    text.all (fun c => !isQuote c) = true :=
  List.all_eq_true.mpr fun c hc => by rw [h c hc]; rfl

/-- A text that starts with a quoted source is cut there. -/
theorem isQuoted_nil {source after : Text} {opening closing : Char}
    (hopening : isQuote opening = true) (hclosing : isQuote closing = true) (hne : source ≠ [])
    (hsource : ∀ c ∈ source, isQuote c = false) :
    IsQuoted (opening :: (source ++ closing :: after)) [] source after := by
  have hnil : ∀ c ∈ ([] : Text), isQuote c = false := by simp
  exact IsQuoted.intro hopening hclosing hnil hne hsource

/-- Reading a source takes the text between two quotes. -/
theorem readSource?_eq_some_iff {text source after : Text} :
    readSource? text = some (source, after) ↔ IsQuoted text [] source after := by
  constructor
  · intro h
    cases text with
    | nil => contradiction
    | cons c rest =>
      rw [readSource?] at h
      split at h
      · rename_i hopening
        split at h
        · contradiction
        · contradiction
        · rename_i d tail hdrop hne
          obtain ⟨rfl, rfl⟩ := Prod.mk.inj (Option.some.inj h)
          have hclosing : (!isQuote d) = false := by
            have hstops : Stops (fun c => !isQuote c) (rest.dropWhile fun c => !isQuote c) :=
              stops_dropWhile
            rw [hdrop] at hstops
            exact stops_cons.mp hstops
          have hrest : rest = (rest.takeWhile fun c => !isQuote c) ++ d :: tail := by
            rw [← hdrop]
            exact List.takeWhile_append_dropWhile.symm
          have hsource : ∀ e ∈ rest.takeWhile (fun c => !isQuote c), isQuote e = false :=
            fun e he => by simpa using List.all_eq_true.mp List.all_takeWhile e he
          have hclosing' : isQuote d = true := by simpa using hclosing
          have hquoted := @isQuoted_nil _ tail _ _ hopening hclosing' hne hsource
          rwa [← hrest] at hquoted
      · contradiction
  · rintro ⟨hopening, hclosing, -, hne, hsource⟩
    rename_i opening closing
    have hstops : Stops (fun c => !isQuote c) (closing :: after) :=
      stops_cons.mpr (by rw [hclosing]; rfl)
    have htake := takeWhile_stretch (all_not_quote hsource) hstops
    have hdrop := dropWhile_stretch (all_not_quote hsource) hstops
    obtain ⟨c, rest, rfl⟩ := List.exists_cons_of_ne_nil hne
    simp only [List.nil_append, readSource?, hopening, ↓reduceIte, htake, hdrop]

/-- A text has a quoted source exactly when one is read behind the characters that are no quotes. -/
theorem isQuoted_iff {text head source after : Text} :
    IsQuoted text head source after ↔
      text.takeWhile (fun c => !isQuote c) = head ∧
        readSource? (text.dropWhile fun c => !isQuote c) = some (source, after) := by
  constructor
  · rintro ⟨hopening, hclosing, hhead, hne, hsource⟩
    rename_i opening closing
    have hstops : Stops (fun c => !isQuote c) (opening :: (source ++ closing :: after)) :=
      stops_cons.mpr (by rw [hopening]; rfl)
    refine ⟨takeWhile_stretch (all_not_quote hhead) hstops, ?_⟩
    rw [dropWhile_stretch (all_not_quote hhead) hstops]
    exact readSource?_eq_some_iff.mpr (isQuoted_nil hopening hclosing hne hsource)
  · rintro ⟨rfl, hread⟩
    have hhead : ∀ c ∈ text.takeWhile (fun c => !isQuote c), isQuote c = false :=
      fun c hc => by simpa using List.all_eq_true.mp List.all_takeWhile c hc
    have htext : text = text.takeWhile (fun c => !isQuote c) ++
        text.dropWhile (fun c => !isQuote c) := List.takeWhile_append_dropWhile.symm
    generalize text.takeWhile (fun c => !isQuote c) = head at *
    generalize text.dropWhile (fun c => !isQuote c) = rest at *
    subst htext
    obtain ⟨hopening, hclosing, -, hne, hsource⟩ := readSource?_eq_some_iff.mp hread
    exact .intro hopening hclosing hhead hne hsource

/-- The word in front of the source may be followed by blanks only. -/
theorem beforeFrom?_eq_some_iff {head clause : Text} :
    beforeFrom? head = some clause ↔
      ∃ blanks, isBlankText blanks = true ∧ head = clause ++ ("from".toList ++ blanks) := by
  have hword : beforeFrom? head = some clause ↔ trimEnd head = clause ++ "from".toList := by
    rw [beforeFrom?, Option.map_eq_some_iff]
    constructor
    · rintro ⟨rest, hrest, rfl⟩
      rw [← List.reverse_reverse (trimEnd head), dropWord?_eq_some_iff.mp hrest]
      simp
    · intro h
      exact ⟨clause.reverse, by rw [h, List.reverse_append, dropWord?_append],
        List.reverse_reverse clause⟩
  rw [hword]
  constructor
  · intro h
    obtain ⟨blanks, happ, hblanks⟩ := dropEndWhile_append_exists isBlank head
    refine ⟨blanks, hblanks, ?_⟩
    rw [← happ, ← List.append_assoc]
    exact congrArg (· ++ blanks) h
  · rintro ⟨blanks, hblanks, rfl⟩
    have hstops : Stops isBlank (clause ++ "from".toList).reverse := by
      rw [List.reverse_append]
      exact stops_cons.mpr (by decide)
    rw [← List.append_assoc]
    exact dropEndWhile_stretch hblanks hstops

/-- What a head says of the bindings: none when it is blank, and otherwise those of the clause in
front of the word `from`, which may hold no semicolon. -/
inductive HeadBinds : (head : Text) → List ImportBinding → Prop where
  | blank {head : Text} (h : isBlankText head = true) : HeadBinds head []
  | clause {head clause : Text} (hblank : isBlankText head = false)
      (hfrom : beforeFrom? head = some clause) (hsemicolon : ';' ∉ clause) :
      HeadBinds head (readClause (trim clause))

/-- What a statement with a quoted source is read as. -/
theorem parse?_of_isQuoted {blanks rest head source after : Text}
    (hblanks : isBlankText blanks = true) (hquoted : IsQuoted rest head source after) :
    parse? (blanks ++ ("import".toList ++ rest)) =
      if isBlankText head then some ⟨source, []⟩
      else match beforeFrom? head with
        | none => none
        | some clause => if ';' ∈ clause then none else some ⟨source, readClause (trim clause)⟩ := by
  obtain ⟨hhead, hsource⟩ := isQuoted_iff.mp hquoted
  have hskip : skipBlanks (blanks ++ ("import".toList ++ rest)) = "import".toList ++ rest :=
    skipBlanks_stretch hblanks (stops_cons.mpr (by decide))
  cases hfrom : beforeFrom? head with
  | none => simp only [parse?, hskip, dropWord?_append, hhead, hsource, hfrom]
  | some clause => simp only [parse?, hskip, dropWord?_append, hhead, hsource, hfrom]

/-- Reading a statement takes its first word and a quoted source, whose head says what is bound. -/
theorem parse?_eq_some_iff {text source : Text} {bindings : List ImportBinding} :
    parse? text = some ⟨source, bindings⟩ ↔
      ∃ blanks rest head after, isBlankText blanks = true ∧
        text = blanks ++ ("import".toList ++ rest) ∧ IsQuoted rest head source after ∧
        HeadBinds head bindings := by
  constructor
  · intro h
    unfold parse? at h
    split at h
    · contradiction
    · rename_i rest hword
      simp only at h
      split at h
      · contradiction
      · rename_i found after hsource
        obtain ⟨⟨blanks, hblanks, rfl⟩, -⟩ := skipBlanks_eq_iff.mp (dropWord?_eq_some_iff.mp hword)
        have hquoted := isQuoted_iff.mpr ⟨rfl, hsource⟩
        split at h
        · rename_i hblank
          obtain ⟨rfl, rfl⟩ := ImportStatement.mk.inj (Option.some.inj h)
          exact ⟨blanks, rest, _, after, hblanks, rfl, hquoted, .blank hblank⟩
        · rename_i hblank
          split at h
          · contradiction
          · rename_i clause hfrom
            split at h
            · contradiction
            · rename_i hsemicolon
              obtain ⟨rfl, rfl⟩ := ImportStatement.mk.inj (Option.some.inj h)
              exact ⟨blanks, rest, _, after, hblanks, rfl, hquoted,
                .clause (Bool.not_eq_true _ ▸ hblank) hfrom hsemicolon⟩
  · rintro ⟨blanks, rest, head, after, hblanks, rfl, hquoted, hbinds⟩
    rw [parse?_of_isQuoted hblanks hquoted]
    cases hbinds with
    | blank hblank => rw [if_pos hblank]
    | clause hblank hfrom hsemicolon =>
      simp only [hblank, hfrom, hsemicolon, Bool.false_eq_true, ↓reduceIte]

/-- The front of a statement that starts on its line: spaces and the first word. -/
theorem afterImportWord?_eq_some_iff {text rest : Text} :
    afterImportWord? text = some rest ↔
      ∃ spaces, spaces.all isSpaceOrTab = true ∧ text = spaces ++ ("import".toList ++ rest) := by
  constructor
  · intro h
    have hskip := dropWord?_eq_some_iff.mp h
    refine ⟨text.takeWhile isSpaceOrTab, List.all_takeWhile, ?_⟩
    rw [← hskip]
    exact List.takeWhile_append_dropWhile.symm
  · rintro ⟨spaces, hspaces, rfl⟩
    have hskip : skipSpaces (spaces ++ ("import".toList ++ rest)) = "import".toList ++ rest :=
      dropWhile_stretch hspaces (stops_cons.mpr (by decide))
    rw [afterImportWord?, hskip, dropWord?_append]

/-- A static import is recognised by its quoted source and the head in front of it. -/
theorem isSome_readStaticImport?_iff {text : Text} :
    (readStaticImport? text).isSome = true ↔
      ∃ rest head source after, afterImportWord? text = some rest ∧
        IsQuoted rest head source after ∧ isStaticClause head = true := by
  unfold readStaticImport?
  cases hword : afterImportWord? text with
  | none => simp
  | some rest =>
    by_cases hclause : isStaticClause (rest.takeWhile fun c => !isQuote c) = true
    · simp only [hclause, ↓reduceIte, Option.isSome_map]
      constructor
      · intro h
        obtain ⟨⟨source, after⟩, hsource⟩ := Option.isSome_iff_exists.mp h
        exact ⟨rest, _, source, after, rfl, isQuoted_iff.mpr ⟨rfl, hsource⟩, hclause⟩
      · rintro ⟨other, head, source, after, hother, hquoted, -⟩
        obtain rfl := Option.some.inj hother
        rw [(isQuoted_iff.mp hquoted).2]
        rfl
    · simp only [hclause, Bool.false_eq_true, ↓reduceIte, Option.isSome_none, false_iff]
      rintro ⟨other, head, source, after, hother, hquoted, h⟩
      obtain rfl := Option.some.inj hother
      rw [(isQuoted_iff.mp hquoted).1] at hclause
      exact hclause h

/-- The braces of a named import, the word `from` and the text behind it. -/
theorem afterBraces?_eq_some_iff {text after : Text} :
    afterBraces? text = some after ↔
      (∃ gap space, isBlankText gap = true ∧ isBlankText space = true ∧
        text = '}' :: (gap ++ ("from".toList ++ (space ++ after)))) ∧ Stops isBlank after := by
  constructor
  · intro h
    unfold afterBraces? at h
    split at h
    · rename_i rest
      obtain ⟨behind, hword, hskip⟩ := Option.map_eq_some_iff.mp h
      obtain ⟨⟨gap, hgap, rfl⟩, -⟩ := skipBlanks_eq_iff.mp (dropWord?_eq_some_iff.mp hword)
      obtain ⟨⟨space, hspace, rfl⟩, hstops⟩ := skipBlanks_eq_iff.mp hskip
      exact ⟨⟨gap, space, hgap, hspace, rfl⟩, hstops⟩
    · contradiction
  · rintro ⟨⟨gap, space, hgap, hspace, rfl⟩, hstops⟩
    have hword : skipBlanks (gap ++ ("from".toList ++ (space ++ after))) =
        "from".toList ++ (space ++ after) :=
      skipBlanks_stretch hgap (stops_cons.mpr (by decide))
    simp only [afterBraces?, hword, dropWord?_append, Option.map_some,
      skipBlanks_stretch hspace hstops]

/-- A named import at the start of a line, cut at its braces and its quotes: what it says and what
follows the end of it. -/
inductive IsNamedImport : (text : Text) → NamedImport → (after : Text) → Prop where
  | intro {spaces blanks names gap space source behind : Text} {opening closing : Char}
      (hspaces : spaces.all isSpaceOrTab = true) (hblanks : isBlankText blanks = true)
      (hnames : '}' ∉ names) (hgap : isBlankText gap = true) (hspace : isBlankText space = true)
      (hopening : isQuote opening = true) (hclosing : isQuote closing = true)
      (hne : source ≠ []) (hsource : ∀ c ∈ source, isQuote c = false) :
      IsNamedImport (spaces ++ ("import".toList ++ (blanks ++ '\x7b' :: (names ++ '\x7d' ::
          (gap ++ ("from".toList ++ (space ++ opening :: (source ++ closing :: behind))))))))
        ⟨names, source⟩ (dropOptional ';' (skipSpaces behind))

/-- Reading a named import takes the braces, the word `from` and the quoted source. -/
theorem readNamedImport?_eq_some_iff {text after : Text} {value : NamedImport} :
    readNamedImport? text = some (value, after) ↔ IsNamedImport text value after := by
  constructor
  · intro h
    unfold readNamedImport? at h
    split at h
    · rename_i inner hopen
      obtain ⟨rest, hrest, hskip⟩ := Option.map_eq_some_iff.mp hopen
      obtain ⟨spaces, hspaces, rfl⟩ := afterImportWord?_eq_some_iff.mp hrest
      obtain ⟨⟨blanks, hblanks, rfl⟩, -⟩ := skipBlanks_eq_iff.mp hskip
      split at h
      · rename_i source tail hsource
        obtain ⟨quoted, hbraces, hread⟩ := Option.bind_eq_some_iff.mp hsource
        obtain ⟨rfl, rfl⟩ := Prod.mk.inj (Option.some.inj h)
        have hinner : inner = inner.takeWhile (· ≠ '}') ++ inner.dropWhile (· ≠ '}') :=
          List.takeWhile_append_dropWhile.symm
        have hnames : '}' ∉ inner.takeWhile (· ≠ '}') := fun hmem =>
          absurd (List.all_eq_true.mp List.all_takeWhile _ hmem) (by decide)
        obtain ⟨⟨gap, space, hgap, hspace, hbehind⟩, -⟩ := afterBraces?_eq_some_iff.mp hbraces
        obtain ⟨hopening, hclosing, -, hne, hquotes⟩ := readSource?_eq_some_iff.mp hread
        rw [hbehind] at hinner
        have hnamed := @IsNamedImport.intro _ _ _ _ _ _ tail _ _ hspaces hblanks hnames hgap hspace
          hopening hclosing hne hquotes
        rw [List.nil_append] at hinner
        rwa [← hinner] at hnamed
      · contradiction
    · contradiction
  · rintro ⟨hspaces, hblanks, hnames, hgap, hspace, hopening, hclosing, hne, hsource⟩
    rename_i spaces blanks names gap space source behind opening closing
    have hword (rest : Text) : afterImportWord? (spaces ++ ("import".toList ++ rest)) = some rest :=
      afterImportWord?_eq_some_iff.mpr ⟨spaces, hspaces, rfl⟩
    have hskip (rest : Text) : skipBlanks (blanks ++ '{' :: rest) = '{' :: rest :=
      skipBlanks_stretch hblanks (stops_cons.mpr (by decide))
    have hall : names.all (· ≠ '}') = true :=
      List.all_eq_true.mpr fun c hc => decide_eq_true fun heq => hnames (heq ▸ hc)
    have hstops (rest : Text) : Stops (fun c => decide (c ≠ '}')) ('}' :: rest) :=
      stops_cons.mpr (by decide)
    have hbraces (rest : Text) :
        afterBraces? ('}' :: (gap ++ ("from".toList ++ (space ++ opening :: rest)))) =
          some (opening :: rest) :=
      afterBraces?_eq_some_iff.mpr ⟨⟨gap, space, hgap, hspace, rfl⟩,
        stops_cons.mpr (isBlank_of_isQuote hopening)⟩
    have hread : readSource? (opening :: (source ++ closing :: behind)) = some (source, behind) :=
      readSource?_eq_some_iff.mpr (isQuoted_nil hopening hclosing hne hsource)
    rw [readNamedImport?, hword, Option.map_some, hskip]
    simp only []
    rw [dropWhile_stretch hall (hstops _), takeWhile_stretch hall (hstops _), hbraces,
      Option.bind_some, hread]

/-- A named import is recognised by its braces, the word `from` and its quoted source. -/
theorem isSome_readNamedImport?_iff {text : Text} :
    (readNamedImport? text).isSome = true ↔
      ∃ rest blanks names behind source after, afterImportWord? text = some rest ∧
        isBlankText blanks = true ∧ '}' ∉ names ∧
        rest = blanks ++ '{' :: (names ++ '}' :: behind) ∧
        ∃ quoted, afterBraces? ('}' :: behind) = some quoted ∧ IsQuoted quoted [] source after := by
  constructor
  · intro h
    obtain ⟨⟨value, after⟩, hread⟩ := Option.isSome_iff_exists.mp h
    obtain ⟨hspaces, hblanks, hnames, hgap, hspace, hopening, hclosing, hne, hsource⟩ :=
      readNamedImport?_eq_some_iff.mp hread
    exact ⟨_, _, _, _, _, _, afterImportWord?_eq_some_iff.mpr ⟨_, hspaces, rfl⟩, hblanks, hnames,
      rfl, _, afterBraces?_eq_some_iff.mpr ⟨⟨_, _, hgap, hspace, rfl⟩,
        stops_cons.mpr (isBlank_of_isQuote hopening)⟩, isQuoted_nil hopening hclosing hne hsource⟩
  · rintro ⟨rest, blanks, names, behind, source, after, hrest, hblanks, hnames, rfl, quoted,
      hbraces, hquoted⟩
    obtain ⟨spaces, hspaces, rfl⟩ := afterImportWord?_eq_some_iff.mp hrest
    obtain ⟨⟨gap, space, hgap, hspace, hbehind⟩, -⟩ := afterBraces?_eq_some_iff.mp hbraces
    obtain ⟨hopening, hclosing, -, hne, hsource⟩ := hquoted
    have hnamed := readNamedImport?_eq_some_iff.mpr
      (@IsNamedImport.intro _ _ _ _ _ _ after _ _ hspaces hblanks hnames hgap hspace hopening hclosing
        hne hsource)
    rw [hbehind]
    rw [List.nil_append, hnamed]
    rfl

/-- A clause is recognised in a static import when it stands between two blanks and holds no
semicolon, and so is a blank head. -/
theorem isStaticClause_iff {head : Text} :
    isStaticClause head = true ↔
      isBlankText head = true ∨ ∃ first middle last, isBlank first = true ∧ isBlank last = true ∧
        beforeFrom? head = some (first :: (middle ++ [last])) ∧
        ';' ∉ first :: (middle ++ [last]) := by
  unfold isStaticClause
  cases hfrom : beforeFrom? head with
  | none => simp
  | some clause =>
    simp only [Bool.or_eq_true, Bool.and_eq_true, decide_eq_true_eq, Option.some.injEq]
    refine or_congr_right ⟨?_, ?_⟩
    · rintro ⟨⟨⟨hlength, hfirst⟩, hlast⟩, hsemicolon⟩
      obtain ⟨c, rest, rfl⟩ : ∃ c rest, clause = c :: rest := by
        cases clause with
        | nil => contradiction
        | cons c rest => exact ⟨c, rest, rfl⟩
      rcases List.eq_nil_or_concat rest with rfl | ⟨middle, d, rfl⟩
      · simp at hlength
      · rw [List.concat_eq_append] at hlast hsemicolon ⊢
        rw [← List.cons_append, List.getLast?_concat] at hlast
        refine ⟨c, middle, d, by simpa using hfirst, by simpa using hlast, rfl, ?_⟩
        simpa using hsemicolon
    · rintro ⟨c, middle, d, hfirst, hlast, rfl, hsemicolon⟩
      refine ⟨⟨⟨by simp, by simpa using hfirst⟩, ?_⟩, by simpa using hsemicolon⟩
      rw [← List.cons_append, List.getLast?_concat]
      simpa using hlast

/-- Specifiers are read from a list that holds more than blanks and commas. -/
theorem specifiers_ne_nil_iff {list : Text} :
    specifiers list ≠ [] ↔ ∃ c ∈ list, isBlank c = false ∧ c ≠ ',' := by
  have hpiece : specifiers list ≠ [] ↔ ∃ piece ∈ splitAll ',' list, trim piece ≠ [] := by
    unfold specifiers
    rw [ne_eq, List.filter_eq_nil_iff]
    simp
  rw [hpiece]
  constructor
  · rintro ⟨piece, hmem, hne⟩
    obtain ⟨c, hc, hblank⟩ := trim_ne_nil_iff.mp hne
    obtain ⟨hlist, hcomma⟩ := exists_mem_splitAll_iff.mp ⟨piece, hmem, hc⟩
    exact ⟨c, hlist, hblank, hcomma⟩
  · rintro ⟨c, hc, hblank, hcomma⟩
    obtain ⟨piece, hmem, hpiece⟩ := exists_mem_splitAll_iff.mpr ⟨hc, hcomma⟩
    exact ⟨piece, hmem, trim_ne_nil_iff.mpr ⟨c, hpiece, hblank⟩⟩

/-- The local name of a specifier between the braces of a named import: what stands behind its last
` as `. -/
def lastLocalName (specifier : Text) : Text :=
  match splitLast aliasWord specifier with
  | some (_, localName) => trim localName
  | none => specifier

/-- The local names of a list are those of its specifiers, each once. -/
theorem localNames_eq (list : Text) :
    localNames list = ((specifiers list).map lastLocalName).eraseDups := rfl

/-- The bindings up to a closing brace are those of the specifiers in front of it. -/
theorem readBraces_concat (inner : Text) :
    readBraces (inner ++ ['}']) = (specifiers inner).map readSpecifier := by
  have hreverse : (inner ++ ['}']).reverse = '}' :: inner.reverse := by simp
  have htrim : trimEnd (inner ++ ['}']) = inner ++ ['}'] := by
    have hstops : Stops isBlank (inner ++ ['}']).reverse := by
      rw [hreverse]
      exact stops_cons.mpr (by decide)
    have hdrop := dropEndWhile_stretch isBlankText_nil hstops
    rwa [List.append_nil] at hdrop
  rw [readBraces, htrim, hreverse]
  simp only [List.reverse_reverse]

/-- Bindings are read from the text behind an opening brace when the brace is closed at its end and
holds more than blanks and commas. -/
theorem readBraces_trimEnd_ne_nil_iff {rest : Text} :
    readBraces (trimEnd rest) ≠ [] ↔
      ∃ inner blanks, rest = inner ++ '}' :: blanks ∧ isBlankText blanks = true ∧
        ∃ c ∈ inner, isBlank c = false ∧ c ≠ ',' := by
  constructor
  · intro h
    unfold readBraces at h
    split at h
    · rename_i inner hreverse
      obtain ⟨first, hfirst, hfirstBlank⟩ := dropEndWhile_append_exists isBlank rest
      obtain ⟨second, hsecond, hsecondBlank⟩ := dropEndWhile_append_exists isBlank (trimEnd rest)
      change trimEnd rest ++ first = rest at hfirst
      change trimEnd (trimEnd rest) ++ second = trimEnd rest at hsecond
      have hinner : trimEnd (trimEnd rest) = inner.reverse ++ ['}'] := by
        rw [← List.reverse_reverse (trimEnd (trimEnd rest)), hreverse, List.reverse_cons]
      refine ⟨inner.reverse, second ++ first, ?_,
        isBlankText_append.mpr ⟨hsecondBlank, hfirstBlank⟩, ?_⟩
      · rw [← hfirst, ← hsecond, hinner]
        simp only [List.append_assoc, List.cons_append, List.nil_append]
      · exact specifiers_ne_nil_iff.mp fun hnil => h (by rw [hnil]; rfl)
    · contradiction
  · rintro ⟨inner, blanks, rfl, hblanks, hinner⟩
    have hreverse : (inner ++ ['}']).reverse = '}' :: inner.reverse := by simp
    have hstops : Stops isBlank (inner ++ ['}']).reverse := by
      rw [hreverse]
      exact stops_cons.mpr (by decide)
    have hfirst : trimEnd (inner ++ '}' :: blanks) = inner ++ ['}'] := by
      have hdrop := dropEndWhile_stretch hblanks hstops
      rwa [List.append_assoc] at hdrop
    rw [hfirst, readBraces_concat, ne_eq, List.map_eq_nil_iff]
    exact specifiers_ne_nil_iff.mpr hinner

/-- A clause binds a name unless it is blank, or has braces that are not closed at its end or hold
nothing but blanks and commas. -/
theorem readClause_trim_ne_nil_iff {clause : Text} :
    readClause (trim clause) ≠ [] ↔
      ∃ front c rest, clause = front ++ c :: rest ∧ isBlankText front = true ∧
        isBlank c = false ∧ (c = '{' → ∃ inner blanks, rest = inner ++ '}' :: blanks ∧
          isBlankText blanks = true ∧ ∃ d ∈ inner, isBlank d = false ∧ d ≠ ',') := by
  have hcons {front rest : Text} {c : Char} (hfront : isBlankText front = true)
      (hc : isBlank c = false) : trim (front ++ c :: rest) = c :: trimEnd rest := by
    rw [trim, skipBlanks_stretch hfront (stops_cons.mpr hc), trimEnd_cons hc]
  constructor
  · intro h
    obtain ⟨front, back, rfl, hfront, hback⟩ := exists_stretch isBlank clause
    cases back with
    | nil =>
      rw [List.append_nil] at h
      rw [trim_eq_nil_iff.mpr (List.all_eq_true.mp hfront)] at h
      exact absurd rfl h
    | cons c rest =>
      have hc := stops_cons.mp hback
      refine ⟨front, c, rest, rfl, hfront, hc, ?_⟩
      rintro rfl
      rw [hcons hfront hc] at h
      exact readBraces_trimEnd_ne_nil_iff.mp h
  · rintro ⟨front, c, rest, rfl, hfront, hc, hbraces⟩
    rw [hcons hfront hc]
    by_cases hopen : c = '{'
    · subst hopen
      exact readBraces_trimEnd_ne_nil_iff.mpr (hbraces rfl)
    · unfold readClause
      split
      · contradiction
      · rename_i heq
        exact absurd (List.cons.inj heq).1 hopen
      · rename_i heq
        obtain ⟨rfl, rfl⟩ := List.cons.inj heq
        exact List.cons_ne_nil _ _
      · exact List.cons_ne_nil _ _

end ImportStatement

end InlineComponents
