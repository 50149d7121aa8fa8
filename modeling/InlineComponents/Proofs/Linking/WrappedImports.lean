import InlineComponents.Proofs.Linking.Provision

/-!
# Import statements that stay in initializers

The static imports of a child are taken out of its body in one pass, each with the end of its line.
What is left can still start a line with an import statement: one that only the other recogniser
accepts, one that stood behind another on its line, or one that the removal itself has joined. The
places to look at are the line starts of the body and the ends of the removed statements, and an
initializer has no others than its body.
-/

namespace InlineComponents

open Text Instantiation

namespace ImportStatement

/-- Whether one of the recognisers accepts an import statement at the front of a text. -/
def startsImport (text : Text) : Bool :=
  (readStaticImport? text).isSome || (readNamedImport? text).isSome

/-- Whether a text holds no import statement for either recogniser. -/
def ImportFree (text : Text) : Prop :=
  locations (scanAll staticImport text) = [] ∧ locations (scanAll namedImport text) = []

instance (text : Text) : Decidable (ImportFree text) := inferInstanceAs (Decidable (_ ∧ _))

/-- A text holds no import statement when none stands at the start of a line. -/
theorem importFree_iff {text : Text} :
    ImportFree text ↔
      ∀ front back, text = front ++ back → startsLine true front = true →
        startsImport back = false := by
  rw [ImportFree, scanAll, scanAll, locations_scan_eq_nil_iff staticImport_advances,
    locations_scan_eq_nil_iff namedImport_advances]
  constructor
  · rintro ⟨hstatic, hnamed⟩ front back happ hline
    have hnoStatic := hstatic front back happ
    have hnoNamed := hnamed front back happ
    rw [hline] at hnoStatic hnoNamed
    rw [startsImport, Bool.or_eq_false_iff, Option.isSome_eq_false_iff,
      Option.isSome_eq_false_iff, Option.isNone_iff_eq_none, Option.isNone_iff_eq_none]
    exact ⟨Option.map_eq_none_iff.mp hnoStatic, hnoNamed⟩
  · intro h
    have hplace {front back : Text} (happ : text = front ++ back)
        (hline : startsLine true front = true) :
        readStaticImport? back = none ∧ readNamedImport? back = none := by
      have hnone := h front back happ hline
      rwa [startsImport, Bool.or_eq_false_iff, Option.isSome_eq_false_iff,
        Option.isSome_eq_false_iff, Option.isNone_iff_eq_none, Option.isNone_iff_eq_none] at hnone
    constructor
    · intro front back happ
      cases hline : startsLine true front with
      | false => rfl
      | true => exact Option.map_eq_none_iff.mpr (hplace happ hline).1
    · intro front back happ
      cases hline : startsLine true front with
      | false => rfl
      | true => exact (hplace happ hline).2

/-! ### Texts that start with an import statement -/

/-- An import statement starts with its first word. -/
theorem exists_of_startsImport {text : Text} (h : startsImport text = true) :
    ∃ spaces rest, spaces.all isSpaceOrTab = true ∧ text = spaces ++ ("import".toList ++ rest) := by
  rw [startsImport, Bool.or_eq_true] at h
  rcases h with hstatic | hnamed
  · obtain ⟨rest, head, source, after, hrest, -, -⟩ := isSome_readStaticImport?_iff.mp hstatic
    obtain ⟨spaces, hspaces, happ⟩ := afterImportWord?_eq_some_iff.mp hrest
    exact ⟨spaces, rest, hspaces, happ⟩
  · obtain ⟨rest, blanks, names, behind, source, after, hrest, -⟩ :=
      isSome_readNamedImport?_iff.mp hnamed
    obtain ⟨spaces, hspaces, happ⟩ := afterImportWord?_eq_some_iff.mp hrest
    exact ⟨spaces, rest, hspaces, happ⟩

/-- A text that starts with another character than a space or the first word starts no import. -/
theorem startsImport_eq_false_of_first {spaces rest : Text} {c : Char}
    (hspaces : spaces.all isSpaceOrTab = true) (hspace : isSpaceOrTab c = false) (hc : c ≠ 'i') :
    startsImport (spaces ++ c :: rest) = false := by
  rw [← Bool.not_eq_true]
  intro h
  obtain ⟨others, behind, hothers, happ⟩ := exists_of_startsImport h
  have hfirst : skipSpaces (spaces ++ c :: rest) = c :: rest :=
    dropWhile_stretch hspaces (stops_cons.mpr hspace)
  have hsecond : skipSpaces (others ++ ("import".toList ++ behind)) = "import".toList ++ behind :=
    dropWhile_stretch hothers (stops_cons.mpr (by decide))
  rw [happ, hsecond] at hfirst
  exact hc (List.cons.inj hfirst).1.symm

/-- A first word that goes on as an identifier or a member starts no import. -/
theorem startsImport_eq_false_of_continues {spaces rest : Text} {c : Char}
    (hspaces : spaces.all isSpaceOrTab = true) (hc : isPlainCharacter c = true ∨ c = '.') :
    startsImport (spaces ++ ("import".toList ++ c :: rest)) = false := by
  have hblank : isBlank c = false := by
    rcases hc with hplain | rfl
    · exact isBlank_of_isPlainCharacter hplain
    · decide
  have hbrace : c ≠ '{' := by
    rintro rfl
    rcases hc with hplain | hdot
    · exact absurd hplain (by decide)
    · exact absurd hdot (by decide)
  have hquote : isQuote c = false := by
    rw [← Bool.not_eq_true]
    intro hquote
    have hchar : c = '"' ∨ c = '\'' := by simpa [isQuote] using hquote
    rcases hchar with rfl | rfl
    · rcases hc with hplain | hdot
      · exact absurd hplain (by decide)
      · exact absurd hdot (by decide)
    · rcases hc with hplain | hdot
      · exact absurd hplain (by decide)
      · exact absurd hdot (by decide)
  have hword : afterImportWord? (spaces ++ ("import".toList ++ c :: rest)) = some (c :: rest) :=
    afterImportWord?_eq_some_iff.mpr ⟨spaces, hspaces, rfl⟩
  rw [startsImport, Bool.or_eq_false_iff, ← Bool.not_eq_true, ← Bool.not_eq_true]
  constructor
  · intro h
    obtain ⟨behind, head, source, after, hbehind, hquoted, hclause⟩ :=
      isSome_readStaticImport?_iff.mp h
    obtain rfl := Option.some.inj (hword.symm.trans hbehind)
    obtain ⟨tail, rfl⟩ : ∃ tail, head = c :: tail := by
      refine ⟨rest.takeWhile fun d => !isQuote d, ?_⟩
      rw [← (isQuoted_iff.mp hquoted).1, List.takeWhile_cons, hquote]
      rfl
    rcases isStaticClause_iff.mp hclause with hhead | ⟨first, middle, last, hfirst, -, hfrom, -⟩
    · rw [isBlankText, List.all_cons, hblank] at hhead
      contradiction
    · obtain ⟨blanks, -, happ⟩ := beforeFrom?_eq_some_iff.mp hfrom
      rw [← (List.cons.inj happ).1, hblank] at hfirst
      contradiction
  · intro h
    obtain ⟨behind, blanks, names, tail, source, after, hbehind, hblanks, -, hrest, -⟩ :=
      isSome_readNamedImport?_iff.mp h
    obtain rfl := Option.some.inj (hword.symm.trans hbehind)
    cases blanks with
    | nil => exact hbrace (List.cons.inj hrest).1
    | cons d blanks =>
      obtain ⟨rfl, -⟩ := List.cons.inj hrest
      rw [isBlankText, List.all_cons, hblank] at hblanks
      contradiction

/-- An identifier that an import statement starts with is the first word. -/
theorem eq_import_of_startsImport {spaces name tail rest : Text}
    (hspaces : spaces.all isSpaceOrTab = true) (hname : name.all isPlainCharacter = true)
    (htail : Stops isPlainCharacter tail) (happ : name ++ tail = "import".toList ++ rest)
    (h : startsImport (spaces ++ ("import".toList ++ rest)) = true) :
    name = "import".toList ∧ rest = tail := by
  rcases List.append_eq_append_iff.mp happ with ⟨left, hword, rfl⟩ | ⟨left, rfl, rfl⟩
  · cases left with
    | nil =>
      rw [List.append_nil] at hword
      exact ⟨hword.symm, rfl⟩
    | cons c left =>
      have hplain : List.all "import".toList isPlainCharacter = true := by decide
      rw [hword, List.all_append, List.all_cons, stops_cons.mp htail, Bool.false_and,
        Bool.and_false] at hplain
      contradiction
  · cases left with
    | nil => exact ⟨List.append_nil _, rfl⟩
    | cons c left =>
      rw [List.all_append, List.all_cons, Bool.and_eq_true, Bool.and_eq_true] at hname
      have hcontinues : startsImport (spaces ++ ("import".toList ++ c :: (left ++ tail))) = false :=
        startsImport_eq_false_of_continues hspaces (Or.inl hname.2.1)
      rw [List.cons_append, hcontinues] at h
      contradiction

/-- An import statement that a text starts with is accepted up to a quote, whatever follows. -/
theorem exists_quote_of_startsImport {text : Text} (h : startsImport text = true) :
    ∃ front c after, isQuote c = true ∧ text = front ++ c :: after ∧
      ∀ other, startsImport (front ++ c :: other) = true := by
  rw [startsImport, Bool.or_eq_true] at h
  rcases h with hstatic | hnamed
  · obtain ⟨rest, head, source, after, hrest, ⟨hopening, hclosing, hhead, hne, hsource⟩, hclause⟩ :=
      isSome_readStaticImport?_iff.mp hstatic
    rename_i opening closing
    obtain ⟨spaces, hspaces, rfl⟩ := afterImportWord?_eq_some_iff.mp hrest
    refine ⟨spaces ++ ("import".toList ++ (head ++ opening :: source)), closing, after, hclosing,
      by simp only [List.append_assoc, List.cons_append], fun other => ?_⟩
    have hother : (readStaticImport? (spaces ++ ("import".toList ++
        (head ++ opening :: (source ++ closing :: other))))).isSome = true :=
      isSome_readStaticImport?_iff.mpr ⟨_, head, source, other,
        afterImportWord?_eq_some_iff.mpr ⟨spaces, hspaces, rfl⟩,
        .intro hopening hclosing hhead hne hsource, hclause⟩
    rw [startsImport, Bool.or_eq_true]
    refine Or.inl ?_
    simpa only [List.append_assoc, List.cons_append] using hother
  · obtain ⟨rest, blanks, names, behind, source, after, hrest, hblanks, hnames, rfl, quoted,
      hbraces, hquoted⟩ := isSome_readNamedImport?_iff.mp hnamed
    obtain ⟨spaces, hspaces, rfl⟩ := afterImportWord?_eq_some_iff.mp hrest
    obtain ⟨⟨gap, space, hgap, hspace, hbehind⟩, hstops⟩ := afterBraces?_eq_some_iff.mp hbraces
    obtain rfl := (List.cons.inj hbehind).2
    generalize hhead : ([] : Text) = head at hquoted
    obtain ⟨hopening, hclosing, -, hne, hsource⟩ := hquoted
    rename_i opening closing
    subst hhead
    refine ⟨spaces ++ ("import".toList ++ (blanks ++ '{' :: (names ++ '}' ::
      (gap ++ ("from".toList ++ (space ++ opening :: source)))))), closing, after, hclosing,
      by simp only [List.append_assoc, List.cons_append, List.nil_append], fun other => ?_⟩
    have hother : (readNamedImport? (spaces ++ ("import".toList ++ (blanks ++ '{' :: (names ++
        '}' :: (gap ++ ("from".toList ++ (space ++
          opening :: (source ++ closing :: other))))))))).isSome = true :=
      isSome_readNamedImport?_iff.mpr ⟨_, blanks, names, _, source, other,
        afterImportWord?_eq_some_iff.mpr ⟨spaces, hspaces, rfl⟩, hblanks, hnames, rfl,
        opening :: (source ++ closing :: other),
        afterBraces?_eq_some_iff.mpr ⟨⟨gap, space, hgap, hspace, rfl⟩,
          stops_cons.mpr (stops_cons.mp hstops)⟩,
        isQuoted_nil hopening hclosing hne hsource⟩
    rw [startsImport, Bool.or_eq_true]
    refine Or.inr ?_
    simpa only [List.append_assoc, List.cons_append] using hother

/-- What stands behind a text makes no difference when it holds no quote. -/
theorem startsImport_append {text tail : Text} (htail : ∀ c ∈ tail, isQuote c = false) :
    startsImport (text ++ tail) = startsImport text := by
  rw [Bool.eq_iff_iff]
  constructor
  · intro h
    obtain ⟨front, c, after, hc, happ, hother⟩ := exists_quote_of_startsImport h
    rcases List.append_eq_append_iff.mp happ with ⟨left, rfl, hright⟩ | ⟨left, rfl, hright⟩
    · have hmem : c ∈ tail := by simp [hright]
      rw [htail c hmem] at hc
      contradiction
    · cases left with
      | nil =>
        have hmem : c ∈ tail := by
          rw [List.nil_append] at hright
          rw [← hright]
          exact List.mem_cons_self
        rw [htail c hmem] at hc
        contradiction
      | cons d left =>
        obtain ⟨rfl, -⟩ := List.cons.inj hright
        exact hother left
  · intro h
    obtain ⟨front, c, after, -, rfl, hother⟩ := exists_quote_of_startsImport h
    rw [List.append_assoc]
    exact hother (after ++ tail)

/-! ### Bodies without their static imports -/

/-- An import statement is read at the start of a line only. -/
theorem readsLines_staticImport : ReadsLines staticImport := fun _ => rfl

/-- A body is left without import statements exactly when none starts where a line of it starts or a
static import was taken out. -/
theorem importFree_withoutStaticImports_iff {text : Text} :
    ImportFree (withoutStaticImports text) ↔
      ∀ front back, scanAll staticImport text = front ++ back →
        (startsLine true (sources front) = true ∨
          ∃ init found value, front = init ++ [.phrase found value]) →
        startsImport (withoutPhrases back) = false := by
  rw [importFree_iff]
  constructor
  · intro h front back hscan hplace
    refine h (withoutPhrases front) (withoutPhrases back) ?_ ?_
    · rw [withoutStaticImports, hscan, withoutPhrases_append]
    · exact (startsLine_withoutPhrases_iff staticImport_advances readsLines_staticImport hscan).mpr
        hplace
  · intro h before after happ hline
    obtain ⟨front, back, hscan, rfl, rfl⟩ := exists_of_withoutPhrases_eq happ
    exact h front back hscan
      ((startsLine_withoutPhrases_iff staticImport_advances readsLines_staticImport hscan).mp hline)

example : ¬ ImportFree (withoutStaticImports "import a from 'a'; import b from 'b'".toList) := by
  decide +kernel

/-! ### Qualified bodies -/

/-- A text starts with an import exactly when it does when it is qualified. -/
theorem startsImport_qualifyAll {binding : Text} {names : List Text}
    (hbinding : isPlainIdentifier binding = true) (text : Text) :
    startsImport (qualifyAll binding names text) = startsImport text := by
  rw [startsImport, startsImport, isSome_readStaticImport?_qualifyAll hbinding,
    isSome_readNamedImport?_qualifyAll hbinding]

/-- An instantiation in which a line starts with an import is one of a component of that name. -/
theorem name_eq_of_startsImport {site : Instantiation} {lead left after : Text}
    (hsite : WellFormed site) (happ : site.source = lead ++ left) (hlead : lead ≠ [])
    (hleft : left ≠ []) (hline : startsLine true lead = true)
    (h : startsImport (left ++ after) = true) : site.name = "import".toList := by
  obtain ⟨spaces, rest, hspaces, hword⟩ := exists_of_startsImport h
  have hskip : skipBlanks (left ++ after) = "import".toList ++ rest := by
    rw [hword]
    exact skipBlanks_stretch (isBlankText_of_spaces hspaces).1 (stops_cons.mpr (by decide))
  have hbrace : '{' ∉ spaces := fun hmem =>
    absurd (List.all_eq_true.mp hspaces _ hmem) (by decide)
  have hbraceMem : '{' ∈ left :=
    @WellFormed.brace_mem [] site hsite lead left hleft (Or.inl happ)
  obtain ⟨hbefore, hgap, hne, hname, hfirst, hsecond⟩ := hsite
  rename_i before gap name first second
  have hplain := (isPlainIdentifier_iff.mp hname).2
  have hparts : '=' :: before ++ ("new".toList ++ gap) ++
      (name ++ (first ++ '(' :: (second ++ ['{']))) = lead ++ left := by
    rw [← happ, Instantiation.source]
    simp only [List.append_assoc, List.cons_append]
  rcases line_outside (no_lineFeed hname) hparts hline with
    ⟨inLead, hlead', rfl⟩ | ⟨inTrail, -, htrail⟩
  · rcases line_outside (by decide) hlead' hline with ⟨blanks, hblanks, rfl⟩ | ⟨inGap, -, rfl⟩
    · -- The first word would be the word of the instantiation.
      obtain ⟨c, lead, rfl⟩ := List.exists_cons_of_ne_nil hlead
      obtain ⟨-, rfl⟩ := List.cons.inj hblanks
      have hnew : skipBlanks (blanks ++ ("new".toList ++ gap) ++
          (name ++ (first ++ '(' :: (second ++ ['{']))) ++ after) = "new".toList ++ (gap ++
            (name ++ (first ++ '(' :: (second ++ ['{'])) ++ after)) := by
        rw [List.append_assoc, List.append_assoc, List.append_assoc]
        exact skipBlanks_stretch (isBlankText_append.mp hbefore).2 (stops_cons.mpr (by decide))
      rw [hnew] at hskip
      exact absurd (List.cons.inj hskip).1 (by decide)
    · have hnamed : skipBlanks (inLead ++ (name ++ (first ++ '(' :: (second ++ ['{']))) ++ after) =
          name ++ (first ++ '(' :: (second ++ ['{']) ++ after) := by
        rw [List.append_assoc, List.append_assoc]
        exact skipBlanks_stretch (isBlankText_append.mp hgap).2
          (Stops.of_stretch (ne_nil_of_isPlainIdentifier hname) hplain
            (fun _ => isBlank_of_isPlainCharacter) _)
      rw [hnamed, List.append_assoc] at hskip
      rw [hword] at h
      exact (eq_import_of_startsImport hspaces hplain (stops_trail hfirst _) hskip h).1
  · -- Behind the name stand only blanks and brackets.
    have hletter : 'i' ∉ left := by
      intro hmem
      have htrailMem : 'i' ∈ first ++ '(' :: (second ++ ['{']) := by
        rw [htrail]
        exact List.mem_append_right inTrail hmem
      have hblank {blanks : Text} (hblanks : isBlankText blanks = true) : 'i' ∉ blanks :=
        fun hin => absurd (List.all_eq_true.mp hblanks _ hin) (by decide)
      simp [hblank hfirst, hblank hsecond] at htrailMem
    rcases List.append_eq_append_iff.mp hword with ⟨behind, rfl, -⟩ | ⟨behind, rfl, hbehind⟩
    · exact absurd (List.mem_append_left behind hbraceMem) hbrace
    · cases behind with
      | nil =>
        rw [List.append_nil] at hbraceMem
        exact absurd hbraceMem hbrace
      | cons c behind =>
        obtain ⟨rfl, -⟩ := List.cons.inj hbehind
        exact absurd (List.mem_append_right spaces List.mem_cons_self) hletter

/-- Qualifying a text adds no import statement. It takes one away only where a component has the
name of the first word. -/
theorem importFree_qualifyAll_iff {binding : Text} {names : List Text}
    (hbinding : isPlainIdentifier binding = true) (hnames : "import".toList ∉ names) {text : Text} :
    ImportFree (qualifyAll binding names text) ↔ ImportFree text := by
  rw [importFree_iff, importFree_iff]
  constructor
  · rintro h front back rfl hline
    have hplace := @exists_qualifyAll_of_line binding names front back hline
    rcases hplace with ⟨before, hbefore, hsame⟩ |
      ⟨site, lead, left, after, hsite, hname, happ, hlead, hleft, hlineIn, rfl⟩
    · have hback := h before _ hbefore (by rw [hsame, hline])
      rwa [startsImport_qualifyAll hbinding] at hback
    · rw [← Bool.not_eq_true]
      intro hstarts
      rw [name_eq_of_startsImport hsite happ hlead hleft hlineIn hstarts] at hname
      exact hnames hname
  · intro h front back happ hline
    rw [← Bool.not_eq_true]
    intro hstarts
    rcases exists_of_line hbinding happ hline with ⟨before, after, rfl, rfl, hsame⟩ | hinserted
    · have hnone := h before after rfl (by rw [hsame, hline])
      rw [startsImport_qualifyAll hbinding, hnone] at hstarts
      contradiction
    · obtain ⟨spaces, rest, hspaces, rfl⟩ := exists_of_startsImport hstarts
      have hblanks := isBlankText_of_spaces hspaces
      obtain ⟨c, tail, rfl, hc⟩ := hinserted.continues hbinding hblanks.1
        (by decide : isPlainIdentifier "import".toList = true) (by decide) hblanks.2
        (List.append_assoc _ _ _).symm
      rw [startsImport_eq_false_of_continues hspaces hc] at hstarts
      contradiction

/-! ### Line breaks around a text -/

/-- An empty text starts no import. -/
theorem startsImport_nil : startsImport [] = false := rfl

/-- A line break starts no import. -/
theorem startsImport_eq_false_of_lineBreak {c : Char} (hc : ChildCut.isLineBreak c = true)
    (rest : Text) : startsImport (c :: rest) = false := by
  have hbreak : c = '\n' ∨ c = '\r' := by simpa [ChildCut.isLineBreak] using hc
  rcases hbreak with rfl | rfl
  · exact startsImport_eq_false_of_first List.all_nil (by decide) (by decide)
  · exact startsImport_eq_false_of_first List.all_nil (by decide) (by decide)

/-- In a text without its outer line breaks only the front is a new place for an import. -/
theorem importFree_stretch_iff {lead text trail : Text}
    (hlead : lead.all ChildCut.isLineBreak = true)
    (htrail : trail.all ChildCut.isLineBreak = true) :
    ImportFree text ↔ ImportFree (lead ++ (text ++ trail)) ∧ startsImport text = false := by
  have hquotes : ∀ c ∈ trail, isQuote c = false := by
    intro c hc
    have hbreak : c = '\n' ∨ c = '\r' := by
      simpa [ChildCut.isLineBreak] using List.all_eq_true.mp htrail c hc
    rcases hbreak with rfl | rfl
    · decide
    · decide
  have hline {front : Text} (hne : front ≠ []) :
      startsLine true (lead ++ front) = startsLine true front := by
    rw [startsLine_append_of_ne_nil _ _ hne, startsLine_of_ne_nil _ hne]
  have hbreaks {stretch : Text} (hstretch : stretch.all ChildCut.isLineBreak = true) (back : Text)
      (hback : startsImport back = false) : startsImport (stretch ++ back) = false := by
    cases stretch with
    | nil => exact hback
    | cons c rest =>
      exact startsImport_eq_false_of_lineBreak (List.all_eq_true.mp hstretch c List.mem_cons_self) _
  rw [importFree_iff, importFree_iff]
  constructor
  · intro h
    have hstart : startsImport text = false := h [] text rfl rfl
    refine ⟨fun front back happ hfront => ?_, hstart⟩
    rcases List.append_eq_append_iff.mp happ with ⟨left, rfl, hrest⟩ | ⟨left, rfl, rfl⟩
    · rcases List.append_eq_append_iff.mp hrest with ⟨behind, rfl, rfl⟩ | ⟨behind, rfl, rfl⟩
      · rw [List.all_append, Bool.and_eq_true] at htrail
        have := hbreaks htrail.2 [] startsImport_nil
        rwa [List.append_nil] at this
      · rw [startsImport_append hquotes]
        exact h left behind rfl (startsLine_true_of_append hfront)
    · rw [List.all_append, Bool.and_eq_true] at hlead
      refine hbreaks hlead.2 (text ++ trail) ?_
      rw [startsImport_append hquotes, hstart]
  · rintro ⟨h, hstart⟩ front back rfl hfront
    by_cases hnil : front = []
    · subst hnil
      exact hstart
    · have hback := h (lead ++ front) (back ++ trail) (by simp only [List.append_assoc])
        (by rw [hline hnil, hfront])
      rwa [startsImport_append hquotes] at hback

/-- Taking line breaks off the ends of a text leaves it without import statements unless one comes
to stand at its front. -/
theorem importFree_trimLineBreaks_iff {text : Text} :
    ImportFree (ChildCut.trimLineBreaks text) ↔
      ImportFree text ∧ startsImport (ChildCut.trimLineBreaks text) = false := by
  obtain ⟨trail, happ, htrail⟩ := dropEndWhile_append_exists ChildCut.isLineBreak
    (text.dropWhile ChildCut.isLineBreak)
  have htext : text = text.takeWhile ChildCut.isLineBreak ++
      (ChildCut.trimLineBreaks text ++ trail) := by
    rw [ChildCut.trimLineBreaks, happ]
    exact List.takeWhile_append_dropWhile.symm
  have hstretch : ImportFree (ChildCut.trimLineBreaks text) ↔
      ImportFree (text.takeWhile ChildCut.isLineBreak ++ (ChildCut.trimLineBreaks text ++ trail)) ∧
        startsImport (ChildCut.trimLineBreaks text) = false :=
    importFree_stretch_iff List.all_takeWhile htrail
  rwa [← htext] at hstretch

/-! ### Initializers -/

/-- An initializer does not start with an import. -/
theorem startsImport_initializer {binding name body : Text}
    (hbinding : isPlainIdentifier binding = true) :
    startsImport (initializer binding name body) = false := by
  have hall := (isPlainIdentifier_iff.mp hbinding).2
  obtain ⟨rest, hrest⟩ : ∃ rest, initializer binding name body = binding ++ '.' :: rest := by
    refine ⟨name ++ (" = (() => \x7b\n".toList ++ (body ++ ("\n\treturn ".toList ++
      (OutputContract.generatedSymbol binding name ++ ";\n\x7d)();".toList)))), ?_⟩
    unfold initializer
    simp only [List.append_assoc, List.cons_append]
  rw [hrest, ← Bool.not_eq_true]
  intro h
  obtain ⟨spaces, behind, hspaces, happ⟩ := exists_of_startsImport h
  have hnil : spaces = [] := by
    cases spaces with
    | nil => rfl
    | cons c spaces =>
      obtain ⟨d, tail, rfl⟩ := List.exists_cons_of_ne_nil (ne_nil_of_isPlainIdentifier hbinding)
      obtain ⟨rfl, -⟩ := List.cons.inj happ
      have hblank := (isBlankText_of_spaces hspaces).1
      rw [isBlankText, List.all_cons, isBlank_of_isPlainCharacter
        (List.all_eq_true.mp hall d List.mem_cons_self)] at hblank
      contradiction
  subst hnil
  rw [List.nil_append] at happ
  have hword := h
  rw [happ] at hword
  obtain ⟨-, rfl⟩ := eq_import_of_startsImport List.all_nil hall (stops_cons.mpr (by decide)) happ
    hword
  have hcontinues : startsImport ([] ++ ("import".toList ++ '.' :: rest)) = false :=
    startsImport_eq_false_of_continues List.all_nil (Or.inr rfl)
  rw [List.nil_append, ← happ, h] at hcontinues
  contradiction

/-- The end of an initializer, behind its body. -/
def initializerEnd (symbol : Text) : Text :=
  '\n' :: ("\treturn ".toList ++ (symbol ++ [';']) ++ '\n' :: "\x7d)();".toList)

/-- No line in the end of an initializer starts an import. -/
theorem startsImport_initializerEnd {symbol front back : Text}
    (hsymbol : symbol.all isPlainCharacter = true) (happ : initializerEnd symbol = front ++ back)
    (hline : startsLine true front = true) : startsImport back = false := by
  have hbreak (rest : Text) : startsImport ('\n' :: rest) = false :=
    startsImport_eq_false_of_lineBreak (by decide) rest
  have hfeed : '\n' ∉ "\treturn ".toList ++ (symbol ++ [';']) := by
    have hplain : '\n' ∉ symbol := fun hmem =>
      absurd (List.all_eq_true.mp hsymbol _ hmem) (by decide)
    simp [hplain]
  cases front with
  | nil =>
    rw [List.nil_append] at happ
    rw [← happ]
    exact hbreak _
  | cons c front =>
    obtain ⟨rfl, hrest⟩ := List.cons.inj happ
    have hfront : startsLine true front = true := by
      rwa [← List.singleton_append, startsLine_append, startsLine_singleton] at hline
    have hlines := @line_outside [] _ _ front back true hfeed hrest hfront
    rcases hlines with ⟨left, hnil, rfl⟩ | ⟨left, rfl, hbehind⟩
    · obtain ⟨rfl, rfl⟩ := List.append_eq_nil_iff.mp hnil.symm
      change startsImport (['\t'] ++ 'r' :: ("eturn ".toList ++ (symbol ++ [';']) ++
        '\n' :: "\x7d)();".toList)) = false
      exact startsImport_eq_false_of_first (by decide) (by decide) (by decide)
    · cases left with
      | nil =>
        rw [List.nil_append] at hbehind
        rw [← hbehind]
        exact hbreak _
      | cons d left =>
        obtain ⟨rfl, hlast⟩ := List.cons.inj hbehind
        cases back with
        | nil => exact startsImport_nil
        | cons e back =>
          have hmem : e ∈ "\x7d)();".toList := by
            rw [hlast]
            exact List.mem_append_right left List.mem_cons_self
          have hspace : isSpaceOrTab e = false :=
            eq_false_of_any (by decide : List.any "\x7d)();".toList isSpaceOrTab = false) e hmem
          have hword : e ≠ 'i' := by
            rintro rfl
            exact absurd hmem (by decide)
          exact startsImport_eq_false_of_first List.all_nil hspace hword

/-- An initializer holds an import statement exactly when its body does. -/
theorem importFree_initializer_iff {binding name body : Text}
    (hbinding : isPlainIdentifier binding = true) (hname : name.all isPlainCharacter = true) :
    ImportFree (initializer binding name body) ↔ ImportFree body := by
  have hall := (isPlainIdentifier_iff.mp hbinding).2
  have hplain {text : Text} (htext : text.all isPlainCharacter = true) : '\n' ∉ text :=
    fun hmem => absurd (List.all_eq_true.mp htext _ hmem) (by decide)
  have hsymbol : (OutputContract.generatedSymbol binding name).all isPlainCharacter = true := by
    rw [OutputContract.generatedSymbol, List.all_append, List.all_append, hall, hname]
    rfl
  have hparts : initializer binding name body =
      (binding ++ '.' :: (name ++ " = (() => \x7b".toList)) ++
        '\n' :: (body ++ initializerEnd (OutputContract.generatedSymbol binding name)) := by
    unfold initializer initializerEnd
    generalize OutputContract.generatedSymbol binding name = symbol
    simp
  have hfeed : '\n' ∉ binding ++ '.' :: (name ++ " = (() => \x7b".toList) := by
    simp [hplain hall, hplain hname]
  have hquotes : ∀ c ∈ initializerEnd (OutputContract.generatedSymbol binding name),
      isQuote c = false := by
    intro c hc
    rw [← Bool.not_eq_true]
    intro hquote
    have hchar : c = '"' ∨ c = '\'' := by simpa [isQuote] using hquote
    have hnot : isPlainCharacter c = false := by
      rcases hchar with rfl | rfl
      · decide
      · decide
    have hnotSymbol : c ∉ OutputContract.generatedSymbol binding name := fun hmem => by
      rw [List.all_eq_true.mp hsymbol c hmem] at hnot
      contradiction
    rcases hchar with rfl | rfl
    · simp [initializerEnd, hnotSymbol] at hc
    · simp [initializerEnd, hnotSymbol] at hc
  have hline (front text : Text) : startsLine true (front ++ '\n' :: text) =
      startsLine true text := by
    rw [← List.singleton_append, startsLine_append, startsLine_append, startsLine_singleton]
    rfl
  have hlineOne (text : Text) : startsLine true ('\n' :: text) = startsLine true text :=
    hline [] text
  rw [importFree_iff, importFree_iff]
  constructor
  · rintro h front back rfl hfront
    have hback := h ((binding ++ '.' :: (name ++ " = (() => \x7b".toList)) ++ '\n' :: front)
      (back ++ initializerEnd (OutputContract.generatedSymbol binding name))
      (by rw [hparts]; simp only [List.append_assoc, List.cons_append])
      (by rw [hline, hfront])
    rwa [startsImport_append hquotes] at hback
  · intro h front back happ hfront
    have hwhole := happ
    rw [hparts] at happ
    have hlines := @line_outside [] _ _ front back true hfeed happ hfront
    rcases hlines with ⟨left, hnil, hback⟩ | ⟨left, rfl, hbehind⟩
    · obtain ⟨rfl, -⟩ := List.append_eq_nil_iff.mp hnil.symm
      rw [List.nil_append] at hwhole
      rw [← hwhole]
      exact startsImport_initializer hbinding
    · cases left with
      | nil =>
        rw [List.nil_append] at hbehind
        rw [← hbehind]
        exact startsImport_eq_false_of_lineBreak (by decide) _
      | cons d left =>
        obtain ⟨rfl, hrest⟩ := List.cons.inj hbehind
        rw [List.nil_append, hline] at hfront
        rcases List.append_eq_append_iff.mp hrest with ⟨behind, rfl, hend⟩ | ⟨behind, rfl, rfl⟩
        · exact startsImport_initializerEnd hsymbol hend (startsLine_true_of_append hfront)
        · rw [startsImport_append hquotes]
          exact h left behind rfl hfront

end ImportStatement

/-! ### Initializers in a linked module -/

/-- Every one of several pieces stands in the text that they are joined to. -/
theorem exists_joinWith_eq {separator piece : Text} {pieces : List Text} (h : piece ∈ pieces) :
    ∃ front after, joinWith separator pieces = front ++ (piece ++ after) := by
  induction pieces with
  | nil => contradiction
  | cons first rest ih =>
    by_cases hnil : rest = []
    · subst hnil
      obtain rfl := List.mem_singleton.mp h
      exact ⟨[], [], (List.append_nil piece).symm⟩
    · rw [joinWith_cons _ _ hnil]
      rcases List.mem_cons.mp h with rfl | hrest
      · exact ⟨[], separator ++ joinWith separator rest, rfl⟩
      · obtain ⟨front, after, happ⟩ := ih hrest
        refine ⟨first ++ (separator ++ front), after, ?_⟩
        rw [happ]
        simp only [List.append_assoc]

/-- A line starts behind the lines of several statements. -/
theorem startsLine_statementLines (front : Text) (statements : List Text) :
    startsLine true (front ++ '\n' :: statementLines statements) = true := by
  induction statements generalizing front with
  | nil => rw [statementLines, List.flatMap_nil, startsLine_append]; rfl
  | cons statement rest ih =>
    have hlines : '\n' :: statementLines (statement :: rest) =
        '\n' :: statement ++ '\n' :: statementLines rest := by
      rw [statementLines, List.flatMap_cons, List.append_assoc]
      rfl
    rw [hlines, ← List.append_assoc]
    exact ih _

/-- The initializer of a child starts on a line of the linked module. -/
theorem HasStatements.exists_initializer {contract : OutputContract} {parent out : CompiledModule}
    {children : List ChildModule} {runtime : RuntimeImport} {exported : DefaultExport}
    {parts : List (WrappedChild contract exported.binding)}
    (h : HasStatements contract parent out children runtime exported parts)
    {part : WrappedChild contract exported.binding} (hpart : part ∈ parts) :
    ∃ front after, out.code.toList = front ++ (initializer exported.binding part.child.name
        (qualifyAll exported.binding (childNames children)
          (ChildCut.trimLineBreaks part.cut.body)) ++ after) ∧ startsLine true front = true := by
  have hblock := List.mem_map_of_mem (f := WrappedChild.linkedBlock (childNames children)) hpart
  obtain ⟨front, after, hjoin⟩ := @exists_joinWith_eq "\n\n".toList _ _ hblock
  refine ⟨qualifyAll exported.binding (childNames children) exported.place.before ++
    (LinkedCode.openingComment ++ '\n' ::
      statementLines (parts.flatMap fun part => part.moved.map fun moved =>
        qualifyAll exported.binding (childNames children) moved.text) ++
      (front ++ ("// ".toList ++ exported.binding ++ '.' :: part.child.name))) ++
    '\n' :: statementLines (part.runtimeStatements.map fun statement =>
      qualifyAll exported.binding (childNames children) statement.render),
    after ++ ('\n' :: LinkedCode.closingComment ++ "\n\n".toList ++
      qualifyAll exported.binding (childNames children)
        (exported.place.text ++ exported.place.after)), ?_, startsLine_statementLines _ _⟩
  rw [h.code, regionOf, hjoin, WrappedChild.linkedBlock, blockOf]
  simp only [List.append_assoc, List.cons_append]

/-- The initializer of a child in a linked module, and the import statements in it. -/
structure InitializerAt (contract : OutputContract) (binding : Text) (names : List Text)
    (out : CompiledModule) (child : ChildModule) (cut : ChildCut) (front after : Text) : Prop where
  /-- The module of the child was cut. -/
  cut_eq : ChildCut.ofCode contract (OutputContract.generatedSymbol binding child.name.toList)
    child.module.code.toList = .ok cut
  /-- The initializer stands between two texts, with the qualified body. -/
  code : out.code.toList = front ++ (initializer binding child.name.toList
    (qualifyAll binding names (ChildCut.trimLineBreaks cut.body)) ++ after)
  /-- It starts on its line. -/
  line : startsLine true front = true
  /-- It holds an import statement exactly when the qualified body does. -/
  importFree_iff : ImportStatement.ImportFree (initializer binding child.name.toList
      (qualifyAll binding names (ChildCut.trimLineBreaks cut.body))) ↔
    ImportStatement.ImportFree (qualifyAll binding names (ChildCut.trimLineBreaks cut.body))
  /-- Unless a component has the name of the first word of an import, this is so exactly when what
  is left of the child holds one, or starts with one when its outer line breaks are taken off. -/
  importFree_iff_body : "import".toList ∉ names →
    (ImportStatement.ImportFree (initializer binding child.name.toList
        (qualifyAll binding names (ChildCut.trimLineBreaks cut.body))) ↔
      ImportStatement.ImportFree cut.body ∧
        ImportStatement.startsImport (ChildCut.trimLineBreaks cut.body) = false)

/-- The import statements that taking out the static imports leaves in a body stand where a line of
the body starts or behind a statement that was taken out, and those of the bodies are all that
linking leaves in the initializers. -/
theorem splice_importFree_iff (text : Text) (accepts : Text → Bool) (contract : OutputContract)
    (parent out : CompiledModule) (children : List ChildModule) :
    (ImportStatement.ImportFree (ImportStatement.withoutStaticImports text) ↔
      ∀ front back, scanAll ImportStatement.staticImport text = front ++ back →
        (startsLine true (sources front) = true ∨
          ∃ init found value, front = init ++ [.phrase found value]) →
        ImportStatement.startsImport (withoutPhrases back) = false) ∧
    (children ≠ [] → CompiledModule.splice accepts contract parent children = .ok out →
      ∃ exported, OutputContract.defaultExport parent.code.toList = .ok exported ∧
        ∀ child ∈ children, ∃ cut front after,
          InitializerAt contract exported.binding (childNames children) out child cut front
            after) := by
  refine ⟨ImportStatement.importFree_withoutStaticImports_iff, fun hne hout => ?_⟩
  obtain ⟨runtime, exported, parts, scope, hstatements, -⟩ := exists_hasStatements hne hout
  obtain ⟨-, -, -, -, -, -, hident⟩ :=
    DefaultExport.defaultExport_eq_ok hstatements.parent_export
  refine ⟨exported, hstatements.parent_export, fun child hchild => ?_⟩
  have hmem : (⟨child.name.toList, child.module.code.toList⟩ : ChildCode) ∈
      parts.map (·.child) := by
    rw [hstatements.children_eq]
    exact List.mem_map_of_mem hchild
  obtain ⟨part, hpart, heq⟩ := List.mem_map.mp hmem
  obtain ⟨front, after, hcode, hline⟩ := hstatements.exists_initializer hpart
  have hcut := part.cut_eq
  rw [heq] at hcut hcode
  have hqualified : ImportStatement.ImportFree (initializer exported.binding child.name.toList
      (qualifyAll exported.binding (childNames children)
        (ChildCut.trimLineBreaks part.cut.body))) ↔ _ :=
    ImportStatement.importFree_initializer_iff hident (isPlain_name_of_ofCode hcut)
  refine ⟨part.cut, front, after, hcut, hcode, hline, hqualified, fun himport => ?_⟩
  rw [hqualified, ImportStatement.importFree_qualifyAll_iff hident himport,
    ImportStatement.importFree_trimLineBreaks_iff]

/-- An import without a blank behind its first word stays in the initializer of its child. -/
theorem splice_importFree_iff_of_no_blank : ∃ out exported,
    CompiledModule.splice (fun _ => true) ⟨"r"⟩
        { code := "import {a} from 'r'\nexport default P" }
        [⟨"C", { code := "import {a} from 'r'\nimport{b}from'x'\nP__C\nexport default P__C" }⟩] =
          .ok out ∧
      out.code = "import {a} from 'r'\n/* compose: sub-components begin */\n" ++
        "// P.C\nP.C = (() => \x7b\nimport{b}from'x'\nP__C\n\treturn P__C;\n\x7d)();\n" ++
        "/* compose: sub-components end */\n\nexport default P" ∧
      ¬ ImportStatement.ImportFree (ImportStatement.withoutStaticImports
        "\nimport{b}from'x'\nP__C\n".toList) ∧
      OutputContract.defaultExport "import {a} from 'r'\nexport default P".toList =
        .ok exported ∧
      ∀ child ∈ [(⟨"C", { code :=
          "import {a} from 'r'\nimport{b}from'x'\nP__C\nexport default P__C" }⟩ : ChildModule)],
        ∃ cut front after,
          InitializerAt ⟨"r"⟩ exported.binding [['C']] out child cut front after := by
  have hcode : (CompiledModule.splice (fun _ => true) ⟨"r"⟩
      { code := "import {a} from 'r'\nexport default P" }
      [⟨"C", { code := "import {a} from 'r'\nimport{b}from'x'\nP__C\n" ++
        "export default P__C" }⟩]).toOption.map CompiledModule.code =
      some ("import {a} from 'r'\n/* compose: sub-components begin */\n" ++
        "// P.C\nP.C = (() => \x7b\nimport{b}from'x'\nP__C\n\treturn P__C;\n\x7d)();\n" ++
        "/* compose: sub-components end */\n\nexport default P") := by decide +kernel
  obtain ⟨out, hout, hcode⟩ := CompiledModule.exists_of_code_eq hcode
  obtain ⟨exported, hexported, hchildren⟩ :=
    (splice_importFree_iff [] _ _ _ _ _).2 (List.cons_ne_nil _ _) hout
  exact ⟨out, exported, hout, hcode, by decide +kernel, hexported, hchildren⟩

end InlineComponents
