import InlineComponents.Proofs.Imports.Recognition
import InlineComponents.Proofs.Imports.Writing
import InlineComponents.Proofs.Linking.ImportRun
import InlineComponents.Proofs.Linking.Qualification

/-!
# Import statements in a qualified text

Qualifying inserts the binding into instantiations, and no instantiation holds a quote, a comma, a
semicolon or a closing brace. So a cut of a qualified text at such a character, or in front of an
end without opening braces, is a cut of the text itself, and an import statement that is read in a
qualified text is read in the text at the same place.
-/

namespace InlineComponents

open Text

namespace Instantiation

variable {binding : Text} {names : List Text}

/-- A character that stands in no instantiation, qualified or not. -/
def isOutside (c : Char) : Bool := isSeparator c && c != '=' && c != '.'

/-- An instantiation ends with its opening brace, qualified or not. -/
theorem WellFormed.exists_eq_concat {site : Instantiation} (h : WellFormed site) :
    (∃ front, site.source = front ++ ['{']) ∧ ∃ front, site.qualified binding = front ++ ['{'] := by
  obtain ⟨-, -, -, -, -, -⟩ := h
  rename_i before gap name first second
  refine ⟨⟨'=' :: (before ++ ("new".toList ++ gap)) ++ name ++ (first ++ '(' :: second), ?_⟩,
    ⟨'=' :: (before ++ ("new".toList ++ gap)) ++ binding ++ '.' :: name ++ (first ++ '(' :: second),
      ?_⟩⟩
  · simp [source]
  · simp [qualified]

/-- What stands in an instantiation, qualified or not. -/
theorem WellFormed.not_mem {site : Instantiation} (h : WellFormed site)
    (hbinding : isPlainIdentifier binding = true) {c : Char} (hc : isOutside c = true) :
    c ∉ site.source ∧ c ∉ site.qualified binding := by
  simp only [isOutside, isSeparator, Bool.and_eq_true, Bool.not_eq_true', bne_iff_ne, ne_eq] at hc
  obtain ⟨⟨⟨⟨⟨hblank, hplain⟩, hparenthesis⟩, hbrace⟩, hequals⟩, hdot⟩ := hc
  have hblanks {text : Text} (htext : isBlankText text = true) : c ∉ text := fun hmem => by
    rw [List.all_eq_true.mp htext c hmem] at hblank
    contradiction
  have hword {word : Text} (hall : word.all isPlainCharacter = true) : c ∉ word := fun hmem => by
    rw [List.all_eq_true.mp hall c hmem] at hplain
    contradiction
  obtain ⟨hbefore, hgap, -, hname, hfirst, hsecond⟩ := h
  have hnew : c ∉ "new".toList := hword (by decide)
  simp only [source, qualified, List.mem_append, List.mem_cons, hblanks hbefore, hblanks hgap,
    hblanks hfirst, hblanks hsecond, hword (isPlainIdentifier_iff.mp hname).2,
    hword (isPlainIdentifier_iff.mp hbinding).2, hnew, hparenthesis, hbrace, hequals, hdot,
    List.not_mem_nil, or_self, not_false_eq_true, and_self]

/-- The text that stands for an instantiation after qualifying. -/
theorem qualifyAll_source_cases (binding : Text) (names : List Text) {site : Instantiation}
    (h : WellFormed site) : ∃ text, (text = site.source ∨ text = site.qualified binding) ∧
      ∀ after, qualifyAll binding names (site.source ++ after) =
        text ++ qualifyAll binding names after := by
  by_cases hname : site.name ∈ names
  · refine ⟨site.qualified binding, Or.inr rfl, fun after => ?_⟩
    rw [qualifyAll_source h, if_pos hname]
  · refine ⟨site.source, Or.inl rfl, fun after => ?_⟩
    rw [qualifyAll_source h, if_neg hname]

/-- A cut of a qualified text that falls into no instantiation is a cut of the text. -/
theorem exists_of_qualifyAll_eq_append {text front back : Text}
    (hcut : ∀ site lead rest, WellFormed site → lead ≠ [] → rest ≠ [] →
      site.source = lead ++ rest ∨ site.qualified binding = lead ++ rest → ¬ rest <+: back)
    (h : qualifyAll binding names text = front ++ back) :
    ∃ before after, text = before ++ after ∧ qualifyAll binding names before = front ∧
      qualifyAll binding names after = back := by
  induction text using qualify_induction generalizing front with
  | nil =>
    rw [qualifyAll_nil] at h
    obtain ⟨rfl, rfl⟩ := List.append_eq_nil_iff.mp h.symm
    exact ⟨[], [], rfl, qualifyAll_nil binding names, qualifyAll_nil binding names⟩
  | plain c rest hread ih =>
    cases front with
    | nil => exact ⟨[], c :: rest, rfl, qualifyAll_nil binding names, h⟩
    | cons d front =>
      rw [qualifyAll_cons hread, List.cons_append, List.cons.injEq] at h
      obtain ⟨rfl, htail⟩ := h
      obtain ⟨before, after, rfl, hbefore, hafter⟩ := ih htail
      have hbeforeRead : read? (c :: before) = none := by
        cases hfound : read? (c :: before) with
        | none => rfl
        | some found =>
          obtain ⟨site, left⟩ := found
          obtain ⟨hsite, happ⟩ := read?_eq_some_iff.mp hfound
          have hwhole : read? (c :: (before ++ after)) = some (site, left ++ after) := by
            rw [← List.cons_append, happ, List.append_assoc]
            exact read?_eq_some_iff.mpr ⟨hsite, rfl⟩
          rw [hread] at hwhole
          contradiction
      exact ⟨c :: before, after, rfl, by rw [qualifyAll_cons hbeforeRead, hbefore], hafter⟩
  | site site after hsite ih =>
    obtain ⟨written, hwritten, hqualified⟩ := qualifyAll_source_cases binding names hsite
    rw [hqualified] at h
    rcases List.append_eq_append_iff.mp h with ⟨left, rfl, htail⟩ | ⟨left, hleft, rfl⟩
    · obtain ⟨before, rest, rfl, rfl, hrest⟩ := ih htail
      exact ⟨site.source ++ before, rest, (List.append_assoc _ _ _).symm, hqualified before, hrest⟩
    · by_cases hfront : front = []
      · subst hfront
        refine ⟨[], site.source ++ after, rfl, qualifyAll_nil binding names, ?_⟩
        rw [hqualified, hleft, List.nil_append]
      · by_cases hnil : left = []
        · subst hnil
          have halone := hqualified []
          rw [List.append_nil] at halone hleft
          refine ⟨site.source, after, rfl, ?_, rfl⟩
          rw [halone, qualifyAll_nil, List.append_nil, hleft]
        · refine absurd (List.prefix_append left _) (hcut site front left hsite hfront hnil ?_)
          rcases hwritten with rfl | rfl
          · exact Or.inl hleft
          · exact Or.inr hleft

/-- A cut in front of a character that stands in no instantiation is a cut of the text. -/
theorem exists_of_qualifyAll_eq_outside (hbinding : isPlainIdentifier binding = true) {c : Char}
    (hc : isOutside c = true) {text front back : Text}
    (h : qualifyAll binding names text = front ++ c :: back) :
    ∃ before after, text = before ++ c :: after ∧ qualifyAll binding names before = front ∧
      qualifyAll binding names after = back := by
  have hequals : c ≠ '=' := by
    rintro rfl
    contradiction
  obtain ⟨before, rest, rfl, hbefore, hrest⟩ := exists_of_qualifyAll_eq_append (by
    intro site lead rest hsite _ hne hparts hbegins
    obtain ⟨d, rest, rfl⟩ := List.exists_cons_of_ne_nil hne
    obtain ⟨left, hleft⟩ := hbegins
    obtain ⟨rfl, -⟩ := List.cons.inj hleft
    obtain ⟨hsource, hqualified⟩ := hsite.not_mem hbinding hc
    rcases hparts with hparts | hparts
    · exact hsource (hparts ▸ by simp)
    · exact hqualified (hparts ▸ by simp)) h
  have hcons : qualifyAll binding names rest = [c] ++ back := hrest
  obtain ⟨after, rfl, hafter⟩ := exists_of_qualifyAll_eq (by simpa using Ne.symm hequals) hcons
  exact ⟨before, after, rfl, hbefore, hafter⟩

/-- An end of an instantiation holds its opening brace. -/
theorem WellFormed.brace_mem {site : Instantiation} (h : WellFormed site) {lead rest : Text}
    (hne : rest ≠ []) (hparts : site.source = lead ++ rest ∨ site.qualified binding = lead ++ rest) :
    '{' ∈ rest := by
  have hlast {front : Text} (hfront : lead ++ rest = front ++ ['{']) : '{' ∈ rest := by
    rcases List.eq_nil_or_concat rest with rfl | ⟨init, c, rfl⟩
    · contradiction
    · rw [List.concat_eq_append, ← List.append_assoc] at hfront
      rw [List.concat_eq_append, (List.cons.inj (List.append_inj_right' hfront rfl)).1]
      exact List.mem_append_right init List.mem_cons_self
  obtain ⟨⟨front, hsource⟩, ⟨front', hqualified⟩⟩ := h.exists_eq_concat
  rcases hparts with hparts | hparts
  · exact hlast (hparts.symm.trans hsource)
  · exact hlast (hparts.symm.trans hqualified)

/-- A text without opening braces after qualifying has no instantiation. -/
theorem qualifyAll_eq_of_no_brace {text : Text} (h : '{' ∉ qualifyAll binding names text) :
    qualifyAll binding names text = text := by
  induction text using qualify_induction with
  | nil => exact qualifyAll_nil binding names
  | plain c rest hread ih =>
    rw [qualifyAll_cons hread, List.mem_cons, not_or] at h
    rw [qualifyAll_cons hread, ih h.2]
  | site site after hsite _ =>
    obtain ⟨written, hwritten, hqualified⟩ := qualifyAll_source_cases binding names hsite
    rw [hqualified, List.mem_append, not_or] at h
    have hne : written ≠ [] := by
      rintro rfl
      obtain ⟨⟨front, hsource⟩, ⟨front', hqualified⟩⟩ := hsite.exists_eq_concat
      rcases hwritten with hwritten | hwritten
      · exact absurd (hwritten.trans hsource) (by simp)
      · exact absurd (hwritten.trans hqualified) (by simp)
    have hparts : site.source = [] ++ written ∨ site.qualified binding = [] ++ written :=
      hwritten.imp Eq.symm Eq.symm
    exact absurd (hsite.brace_mem hne hparts) h.1

/-- A cut in front of an end without opening braces is a cut of the text. -/
theorem exists_of_qualifyAll_eq_end {text front back : Text} (hback : '{' ∉ back)
    (h : qualifyAll binding names text = front ++ back) :
    ∃ before, text = before ++ back ∧ qualifyAll binding names before = front := by
  obtain ⟨before, after, rfl, hbefore, rfl⟩ := exists_of_qualifyAll_eq_append
    (fun site lead rest hsite _ hne hparts hbegins =>
      hback (hbegins.subset (hsite.brace_mem hne hparts))) h
  exact ⟨before, by rw [qualifyAll_eq_of_no_brace hback], hbefore⟩

/-- Qualifying keeps every character. -/
theorem mem_qualifyAll_of_mem {text : Text} {c : Char} (h : c ∈ text) :
    c ∈ qualifyAll binding names text := by
  induction text using qualify_induction with
  | nil => contradiction
  | plain d rest hread ih =>
    rw [qualifyAll_cons hread]
    rcases List.mem_cons.mp h with rfl | hrest
    · exact List.mem_cons_self
    · exact List.mem_cons_of_mem d (ih hrest)
  | site site after hsite ih =>
    rw [qualifyAll_source hsite]
    rcases List.mem_append.mp h with hsource | hafter
    · refine List.mem_append_left _ ?_
      split
      · simp only [source, qualified, List.mem_append, List.mem_cons] at hsource ⊢
        rcases hsource with (hlead | hname) | htrail
        · exact Or.inl (Or.inl (Or.inl hlead))
        · exact Or.inl (Or.inr (Or.inr hname))
        · exact Or.inr htrail
      · exact hsource
    · exact List.mem_append_right _ (ih hafter)

/-- Qualifying adds no character that stands in no instantiation. -/
theorem mem_of_mem_qualifyAll (hbinding : isPlainIdentifier binding = true) {text : Text} {c : Char}
    (hc : isOutside c = true) (h : c ∈ qualifyAll binding names text) : c ∈ text := by
  obtain ⟨front, back, hparts⟩ := List.append_of_mem h
  obtain ⟨before, after, rfl, -, -⟩ := exists_of_qualifyAll_eq_outside hbinding hc hparts
  simp

/-- A text is empty when nothing is left of it. -/
theorem qualifyAll_eq_nil_iff {text : Text} : qualifyAll binding names text = [] ↔ text = [] := by
  constructor
  · intro h
    have hhead : (qualifyAll binding names text).head? = text.head? := head?_qualifyAll text
    rw [h] at hhead
    exact List.head?_eq_none_iff.mp hhead.symm
  · rintro rfl
    exact qualifyAll_nil binding names

/-- Blanks hold no equals sign. -/
theorem no_equals_of_isBlankText {text : Text} (h : isBlankText text = true) : '=' ∉ text :=
  not_mem_of_isBlankText (by decide) h

/-- A blank text is left as it is, and nothing else becomes blank. -/
theorem isBlankText_qualifyAll {text : Text} :
    isBlankText (qualifyAll binding names text) = isBlankText text := by
  rw [Bool.eq_iff_iff]
  constructor
  · intro h
    exact List.all_eq_true.mpr fun c hc => List.all_eq_true.mp h c (mem_qualifyAll_of_mem hc)
  · intro h
    rwa [qualifyAll_of_no_equals (no_equals_of_isBlankText h)]

end Instantiation

namespace ImportStatement

open Instantiation

variable {binding : Text} {names : List Text}

/-! ### The parts of a statement in a qualified text -/

/-- No instantiation holds a quote. -/
theorem isOutside_of_isQuote {c : Char} (h : isQuote c = true) : isOutside c = true := by
  have hquote : c = '"' ∨ c = '\'' := by simpa [isQuote] using h
  rcases hquote with rfl | rfl
  · decide
  · decide

/-- A quoted source in a qualified text is one in the text. -/
theorem IsQuoted.exists_of_qualifyAll (hbinding : isPlainIdentifier binding = true)
    {text head source after : Text}
    (h : IsQuoted (qualifyAll binding names text) head source after) :
    ∃ front middle back, IsQuoted text front middle back ∧
      qualifyAll binding names front = head ∧ qualifyAll binding names middle = source ∧
      qualifyAll binding names back = after := by
  generalize htext : qualifyAll binding names text = written at h
  obtain ⟨hopening, hclosing, hhead, hne, hsource⟩ := h
  obtain ⟨front, rest, rfl, rfl, hrest⟩ :=
    exists_of_qualifyAll_eq_outside hbinding (isOutside_of_isQuote hopening) htext
  obtain ⟨middle, back, rfl, rfl, hback⟩ :=
    exists_of_qualifyAll_eq_outside hbinding (isOutside_of_isQuote hclosing) hrest
  have hmiddle : middle ≠ [] := fun hnil => hne (qualifyAll_eq_nil_iff.mpr hnil)
  exact ⟨front, middle, back, .intro hopening hclosing
    (fun c hc => hhead c (mem_qualifyAll_of_mem hc)) hmiddle
    (fun c hc => hsource c (mem_qualifyAll_of_mem hc)), rfl, rfl, hback⟩

/-- A word `from` at the end of a qualified head is one at the end of the head. -/
theorem exists_of_beforeFrom?_qualifyAll {head clause : Text}
    (h : beforeFrom? (qualifyAll binding names head) = some clause) :
    ∃ before, beforeFrom? head = some before ∧ qualifyAll binding names before = clause := by
  obtain ⟨blanks, hblanks, happ⟩ := beforeFrom?_eq_some_iff.mp h
  have hbrace : '{' ∉ "from".toList ++ blanks := by
    rw [List.mem_append, not_or]
    exact ⟨by decide, fun hmem => absurd (List.all_eq_true.mp hblanks _ hmem) (by decide)⟩
  obtain ⟨before, rfl, hbefore⟩ := exists_of_qualifyAll_eq_end hbrace happ
  exact ⟨before, beforeFrom?_eq_some_iff.mpr ⟨blanks, hblanks, rfl⟩, hbefore⟩

/-- A blank stretch at the front of a qualified text is one of the text. -/
theorem exists_of_qualifyAll_eq_blanks {text blanks : Text} {c : Char} {rest : Text}
    (hblanks : isBlankText blanks = true)
    (h : qualifyAll binding names text = blanks ++ c :: rest) :
    ∃ after, text = blanks ++ c :: after ∧ qualifyAll binding names (c :: after) = c :: rest := by
  obtain ⟨behind, rfl, hbehind⟩ := exists_of_qualifyAll_eq (no_equals_of_isBlankText hblanks) h
  have hhead : (qualifyAll binding names behind).head? = behind.head? := head?_qualifyAll behind
  rw [hbehind, List.head?_cons] at hhead
  obtain ⟨after, rfl⟩ : ∃ after, behind = c :: after := by
    cases behind with
    | nil => contradiction
    | cons d after => exact ⟨after, by rw [Option.some.inj hhead]⟩
  exact ⟨after, rfl, hbehind⟩

/-- A clause that binds a name when it is qualified binds one. -/
theorem readClause_ne_nil_of_qualifyAll (hbinding : isPlainIdentifier binding = true)
    {clause : Text} (h : readClause (trim (qualifyAll binding names clause)) ≠ []) :
    readClause (trim clause) ≠ [] := by
  obtain ⟨front, c, rest, happ, hfront, hc, hbraces⟩ := readClause_trim_ne_nil_iff.mp h
  obtain ⟨after, rfl, hafter⟩ := exists_of_qualifyAll_eq_blanks hfront happ
  refine readClause_trim_ne_nil_iff.mpr ⟨front, c, after, rfl, hfront, hc, ?_⟩
  rintro rfl
  obtain ⟨inner, blanks, rfl, hblanks, d, hd, hdBlank, hdComma⟩ := hbraces rfl
  rw [qualifyAll_cons (read?_cons_of_ne (by decide) after), List.cons.injEq] at hafter
  obtain ⟨before, behind, rfl, rfl, hbehind⟩ :=
    exists_of_qualifyAll_eq_outside hbinding (by decide) hafter.2
  refine ⟨before, behind, rfl, ?_, ?_⟩
  · rw [← hbehind, isBlankText_qualifyAll] at hblanks
    exact hblanks
  · -- A list of blanks and commas is left as it is.
    by_cases hequals : '=' ∈ before
    · exact ⟨'=', hequals, by decide, by decide⟩
    · rw [qualifyAll_of_no_equals hequals] at hd
      exact ⟨d, hd, hdBlank, hdComma⟩

/-- A statement that binds no name binds none when it is qualified. -/
theorem namesIn_qualifyAll_eq_nil (hbinding : isPlainIdentifier binding = true) {text : Text}
    (h : namesIn text = []) : namesIn (qualifyAll binding names text) = [] := by
  cases hparse : parse? (qualifyAll binding names text) with
  | none => rw [namesIn, hparse]; rfl
  | some statement =>
    obtain ⟨source, bindings⟩ := statement
    obtain ⟨blanks, rest, head, after, hblanks, happ, hquoted, hbinds⟩ :=
      parse?_eq_some_iff.mp hparse
    have hequals : '=' ∉ blanks ++ "import".toList := by
      rw [List.mem_append, not_or]
      exact ⟨no_equals_of_isBlankText hblanks, by decide⟩
    rw [← List.append_assoc] at happ
    obtain ⟨behind, rfl, rfl⟩ := exists_of_qualifyAll_eq hequals happ
    obtain ⟨front, middle, back, hfound, rfl, rfl, rfl⟩ :=
      IsQuoted.exists_of_qualifyAll hbinding hquoted
    have hnone : bindings = [] := by
      cases hbinds with
      | blank => rfl
      | clause hblank hfrom hsemicolon =>
        rw [isBlankText_qualifyAll] at hblank
        obtain ⟨clause, hclause, rfl⟩ := exists_of_beforeFrom?_qualifyAll hfrom
        have hclean : ';' ∉ clause := fun hmem => hsemicolon (mem_qualifyAll_of_mem hmem)
        have hread : parse? (blanks ++ "import".toList ++ behind) =
            some ⟨middle, readClause (trim clause)⟩ :=
          parse?_eq_some_iff.mpr ⟨blanks, behind, front, back, hblanks,
            List.append_assoc _ _ _, hfound, .clause hblank hclause hclean⟩
        by_contra hne
        have hsome := readClause_ne_nil_of_qualifyAll hbinding hne
        rw [namesIn, hread] at h
        simp only [Option.toList_some, List.flatMap_singleton, boundNames,
          List.map_eq_nil_iff] at h
        exact hsome h
    rw [namesIn, hparse, hnone]
    rfl

/-! ### Written statements in a qualified text -/

/-- A written statement is qualified in its source alone. -/
theorem qualifyAll_render {source : Text} {bindings : List ImportBinding}
    (hplain : ∀ binding ∈ bindings, binding.IsPlain) :
    qualifyAll binding names (render ⟨source, bindings⟩) =
      render ⟨qualifyAll binding names source, bindings⟩ := by
  have hquoted {front : Text} (hfront : '=' ∉ front) :
      qualifyAll binding names (front ++ source ++ "\";".toList) =
        front ++ qualifyAll binding names source ++ "\";".toList := by
    have hend : "\";".toList = '"' :: [';'] := rfl
    have hlast : qualifyAll binding names [';'] = [';'] := qualifyAll_of_no_equals (by decide)
    rw [hend, List.append_assoc, qualifyAll_append_of_no_equals hfront,
      qualifyAll_append_separator (by decide) (by decide), hlast, List.append_assoc]
  by_cases hnil : bindings = []
  · subst hnil
    exact hquoted (by decide)
  · obtain ⟨-, hclause, -⟩ := readClause_joinWith hnil hplain
    have hequals : '=' ∉ "import ".toList ++ joinWith ", ".toList (clauseParts bindings) ++
        " from \"".toList := by
      rw [List.mem_append, List.mem_append, not_or, not_or]
      exact ⟨⟨by decide, fun hmem => absurd (hclause.clean _ hmem) (by decide)⟩, by decide⟩
    rw [render_of_ne_nil _ hnil, render_of_ne_nil _ hnil]
    exact hquoted hequals

/-- Qualifying a source gives a source. -/
theorem isSource_qualifyAll (hbinding : isPlainIdentifier binding = true) {source : Text}
    (h : IsSource source) : IsSource (qualifyAll binding names source) := by
  refine ⟨fun hnil => h.ne_nil (qualifyAll_eq_nil_iff.mp hnil), fun c hc => ?_⟩
  rw [← Bool.not_eq_true]
  intro hquote
  have hmem := mem_of_mem_qualifyAll hbinding (isOutside_of_isQuote hquote) hc
  rw [h.quotes c hmem] at hquote
  contradiction

/-- What a written statement binds in a qualified text. -/
theorem namesIn_qualifyAll_render (hbinding : isPlainIdentifier binding = true)
    {statement : ImportStatement} (hsource : IsSource statement.source)
    (hplain : ∀ binding ∈ statement.bindings, binding.IsPlain) :
    namesIn (qualifyAll binding names statement.render) =
      boundNames ⟨qualifyAll binding names statement.source, readBack statement.bindings⟩ := by
  obtain ⟨source, bindings⟩ := statement
  have hqualified : IsSource (qualifyAll binding names source) :=
    isSource_qualifyAll hbinding hsource
  rw [qualifyAll_render hplain, namesIn,
    parse?_render hqualified.ne_nil hqualified.quotes hplain]
  exact List.flatMap_singleton boundNames _

/-! ### Recognised statements in a qualified text -/

/-- The first word of a statement stands at the front of the text as well. -/
theorem exists_of_afterImportWord?_qualifyAll {text rest : Text}
    (h : afterImportWord? (qualifyAll binding names text) = some rest) :
    ∃ behind, afterImportWord? text = some behind ∧ qualifyAll binding names behind = rest := by
  obtain ⟨spaces, hspaces, happ⟩ := afterImportWord?_eq_some_iff.mp h
  have hequals : '=' ∉ spaces ++ "import".toList := by
    rw [List.mem_append, not_or]
    exact ⟨no_equals_of_isBlankText (isBlankText_of_spaces hspaces).1, by decide⟩
  rw [← List.append_assoc] at happ
  obtain ⟨behind, rfl, hbehind⟩ := exists_of_qualifyAll_eq hequals happ
  exact ⟨behind, afterImportWord?_eq_some_iff.mpr ⟨spaces, hspaces, List.append_assoc _ _ _⟩,
    hbehind⟩

/-- The word `from` at the end of a clause is left as it is. -/
theorem qualifyAll_append_from {last : Char} {blanks : Text} (hlast : isBlank last = true)
    (hblanks : isBlankText blanks = true) (front : Text) :
    qualifyAll binding names (front ++ ([last] ++ ("from".toList ++ blanks))) =
      qualifyAll binding names front ++ ([last] ++ ("from".toList ++ blanks)) := by
  have hblank : isBlankText [last] = true := by rw [isBlankText, List.all_cons, hlast]; rfl
  have hstops : Stops isPlainCharacter blanks := by
    have := Stops.append hblanks (fun _ => isPlainCharacter_of_isBlank) (stops_nil _)
    rwa [List.append_nil] at this
  have harguments : afterArguments? blanks = none := by
    cases hread : afterArguments? blanks with
    | none => rfl
    | some rest =>
      obtain ⟨first, second, -, -, rfl⟩ := afterArguments?_eq_some_iff.mp hread
      exact absurd (List.all_eq_true.mp hblanks '(' (by simp)) (by decide)
  have hclosed : Closed ([last] ++ ("from".toList ++ blanks)) :=
    closed_of_word_append hblank (List.cons_ne_nil last []) (by decide) (by decide) hstops
      harguments
  have hequals : '=' ∉ [last] ++ ("from".toList ++ blanks) := by
    rw [List.mem_append, List.mem_append, not_or, not_or]
    exact ⟨no_equals_of_isBlankText hblank, by decide, no_equals_of_isBlankText hblanks⟩
  rw [qualifyAll_append hclosed, qualifyAll_of_no_equals hequals]

/-- A head is recognised exactly when it is when it is qualified. -/
theorem isStaticClause_qualifyAll (hbinding : isPlainIdentifier binding = true) {head : Text} :
    isStaticClause (qualifyAll binding names head) = isStaticClause head := by
  rw [Bool.eq_iff_iff, isStaticClause_iff, isStaticClause_iff, isBlankText_qualifyAll]
  refine or_congr_right ⟨?_, ?_⟩
  · rintro ⟨first, middle, last, hfirst, hlast, hfrom, hclean⟩
    obtain ⟨clause, hclause, happ⟩ := exists_of_beforeFrom?_qualifyAll hfrom
    have hsemicolon : ';' ∉ clause := fun hmem => hclean (happ ▸ mem_qualifyAll_of_mem hmem)
    have hbrace : '{' ∉ [last] := by
      rw [List.mem_singleton]
      rintro rfl
      exact absurd hlast (by decide)
    rw [← List.cons_append] at happ
    obtain ⟨before, rfl, hbefore⟩ := exists_of_qualifyAll_eq_end hbrace happ
    have hhead : (qualifyAll binding names before).head? = before.head? := head?_qualifyAll before
    rw [hbefore, List.head?_cons] at hhead
    obtain ⟨inner, rfl⟩ : ∃ inner, before = first :: inner := by
      cases before with
      | nil => contradiction
      | cons c inner => exact ⟨inner, by rw [Option.some.inj hhead]⟩
    exact ⟨first, inner, last, hfirst, hlast, hclause, hsemicolon⟩
  · rintro ⟨first, middle, last, hfirst, hlast, hfrom, hclean⟩
    obtain ⟨blanks, hblanks, rfl⟩ := beforeFrom?_eq_some_iff.mp hfrom
    have hne : first ≠ '=' := by
      rintro rfl
      exact absurd hfirst (by decide)
    have hqualified : qualifyAll binding names (first :: middle) =
        first :: qualifyAll binding names middle := qualifyAll_cons (read?_cons_of_ne hne middle)
    have hsemicolon : ';' ∉ qualifyAll binding names middle := fun hmem =>
      hclean (List.mem_cons_of_mem first (List.mem_append_left [last]
        (mem_of_mem_qualifyAll hbinding (by decide) hmem)))
    refine ⟨first, qualifyAll binding names middle, last, hfirst, hlast,
      beforeFrom?_eq_some_iff.mpr ⟨blanks, hblanks, ?_⟩, ?_⟩
    · rw [← List.cons_append, List.append_assoc, qualifyAll_append_from hlast hblanks, hqualified,
        ← List.append_assoc, List.cons_append]
    · rw [List.mem_cons, List.mem_append, not_or, not_or]
      rw [List.mem_cons, List.mem_append, not_or, not_or] at hclean
      exact ⟨hclean.1, hsemicolon, hclean.2.2⟩

/-- A quoted source of a text is one when the text is qualified. -/
theorem IsQuoted.qualifyAll (hbinding : isPlainIdentifier binding = true)
    {text head source after : Text} (h : IsQuoted text head source after) :
    IsQuoted (qualifyAll binding names text) (qualifyAll binding names head)
      (qualifyAll binding names source) (qualifyAll binding names after) := by
  have hquote {c : Char} (hc : isQuote c = true) : isSeparator c = true ∧ c ≠ '=' := by
    have houtside := isOutside_of_isQuote hc
    simp only [isOutside, Bool.and_eq_true, bne_iff_ne, ne_eq] at houtside
    exact houtside.1
  have hnone {stretch : Text} (hstretch : ∀ c ∈ stretch, isQuote c = false) :
      ∀ c ∈ Instantiation.qualifyAll binding names stretch, isQuote c = false := by
    intro c hc
    rw [← Bool.not_eq_true]
    intro hq
    rw [hstretch c (mem_of_mem_qualifyAll hbinding (isOutside_of_isQuote hq) hc)] at hq
    exact Bool.false_ne_true hq
  obtain ⟨hopening, hclosing, hhead, hne, hsource⟩ := h
  obtain ⟨hopeningSeparator, hopeningEquals⟩ := hquote hopening
  obtain ⟨hclosingSeparator, hclosingEquals⟩ := hquote hclosing
  rw [qualifyAll_append_separator hopeningSeparator hopeningEquals,
    qualifyAll_append_separator hclosingSeparator hclosingEquals]
  exact .intro hopening hclosing (hnone hhead) (fun hnil => hne (qualifyAll_eq_nil_iff.mp hnil))
    (hnone hsource)

/-- The first word of a statement is left as it is. -/
theorem afterImportWord?_qualifyAll {text rest : Text} (h : afterImportWord? text = some rest) :
    afterImportWord? (qualifyAll binding names text) = some (qualifyAll binding names rest) := by
  obtain ⟨spaces, hspaces, rfl⟩ := afterImportWord?_eq_some_iff.mp h
  have hequals : '=' ∉ spaces ++ "import".toList := by
    rw [List.mem_append, not_or]
    exact ⟨no_equals_of_isBlankText (isBlankText_of_spaces hspaces).1, by decide⟩
  rw [← List.append_assoc, qualifyAll_append_of_no_equals hequals]
  exact afterImportWord?_eq_some_iff.mpr ⟨spaces, hspaces, List.append_assoc _ _ _⟩

/-- A static import is recognised at the front of a text exactly when it is in the qualified
text. -/
theorem isSome_readStaticImport?_qualifyAll (hbinding : isPlainIdentifier binding = true)
    {text : Text} : (readStaticImport? (qualifyAll binding names text)).isSome =
      (readStaticImport? text).isSome := by
  rw [Bool.eq_iff_iff]
  constructor
  · intro h
    obtain ⟨rest, head, source, after, hrest, hquoted, hclause⟩ :=
      isSome_readStaticImport?_iff.mp h
    obtain ⟨behind, hbehind, rfl⟩ := exists_of_afterImportWord?_qualifyAll hrest
    obtain ⟨front, middle, back, hfound, rfl, -, -⟩ := hquoted.exists_of_qualifyAll hbinding
    rw [isStaticClause_qualifyAll hbinding] at hclause
    exact isSome_readStaticImport?_iff.mpr ⟨behind, front, middle, back, hbehind, hfound, hclause⟩
  · intro h
    obtain ⟨rest, head, source, after, hrest, hquoted, hclause⟩ :=
      isSome_readStaticImport?_iff.mp h
    rw [← isStaticClause_qualifyAll hbinding] at hclause
    exact isSome_readStaticImport?_iff.mpr ⟨_, _, _, _, afterImportWord?_qualifyAll hrest,
      hquoted.qualifyAll hbinding, hclause⟩

/-- A named import is recognised at the front of a text exactly when it is in the qualified text. -/
theorem isSome_readNamedImport?_qualifyAll (hbinding : isPlainIdentifier binding = true)
    {text : Text} : (readNamedImport? (qualifyAll binding names text)).isSome =
      (readNamedImport? text).isSome := by
  have hopen {blanks : Text} (hblanks : isBlankText blanks = true) : '=' ∉ blanks ++ ['{'] := by
    rw [List.mem_append, not_or]
    exact ⟨no_equals_of_isBlankText hblanks, by decide⟩
  have hword {gap space : Text} (hgap : isBlankText gap = true) (hspace : isBlankText space = true) :
      '=' ∉ gap ++ "from".toList ++ space := by
    rw [List.mem_append, List.mem_append, not_or, not_or]
    exact ⟨⟨no_equals_of_isBlankText hgap, by decide⟩, no_equals_of_isBlankText hspace⟩
  have hlist (blanks inner behind : Text) : blanks ++ '{' :: (inner ++ '}' :: behind) =
      blanks ++ ['{'] ++ (inner ++ '}' :: behind) := by simp
  have hstops {text : Text} :
      Stops isBlank (qualifyAll binding names text) ↔ Stops isBlank text := by
    rw [Stops, Stops, head?_qualifyAll]
  rw [Bool.eq_iff_iff]
  constructor
  · intro h
    obtain ⟨rest, blanks, inner, behind, source, after, hrest, hblanks, hinner, rfl, quoted,
      hbraces, hquoted⟩ := isSome_readNamedImport?_iff.mp h
    obtain ⟨text, htext, happ⟩ := exists_of_afterImportWord?_qualifyAll hrest
    rw [hlist] at happ
    obtain ⟨list, rfl, hparts⟩ := exists_of_qualifyAll_eq (hopen hblanks) happ
    obtain ⟨front, back, rfl, rfl, rfl⟩ :=
      exists_of_qualifyAll_eq_outside hbinding (by decide) hparts
    obtain ⟨⟨gap, space, hgap, hspace, hfrom⟩, hfirst⟩ := afterBraces?_eq_some_iff.mp hbraces
    have hback : qualifyAll binding names back = gap ++ "from".toList ++ space ++ quoted := by
      rw [(List.cons.inj hfrom).2]
      simp only [List.append_assoc]
    obtain ⟨found, rfl, rfl⟩ := exists_of_qualifyAll_eq (hword hgap hspace) hback
    obtain ⟨head, middle, rest, hfound, hhead, -, -⟩ := hquoted.exists_of_qualifyAll hbinding
    obtain rfl := qualifyAll_eq_nil_iff.mp hhead
    refine isSome_readNamedImport?_iff.mpr ⟨_, blanks, front,
      gap ++ "from".toList ++ space ++ found, middle, rest, htext, hblanks,
      fun hmem => hinner (mem_qualifyAll_of_mem hmem), (hlist _ _ _).symm, found,
      afterBraces?_eq_some_iff.mpr ⟨⟨gap, space, hgap, hspace, ?_⟩, hstops.mp hfirst⟩, hfound⟩
    simp only [List.append_assoc]
  · intro h
    obtain ⟨rest, blanks, inner, behind, source, after, hrest, hblanks, hinner, rfl, quoted,
      hbraces, hquoted⟩ := isSome_readNamedImport?_iff.mp h
    obtain ⟨⟨gap, space, hgap, hspace, hfrom⟩, hfirst⟩ := afterBraces?_eq_some_iff.mp hbraces
    obtain rfl := (List.cons.inj hfrom).2
    have hlistQualified : afterImportWord? (qualifyAll binding names text) =
        some (qualifyAll binding names _) := afterImportWord?_qualifyAll hrest
    have hparts : gap ++ ("from".toList ++ (space ++ quoted)) =
        gap ++ "from".toList ++ space ++ quoted := by simp only [List.append_assoc]
    rw [hlist, qualifyAll_append_of_no_equals (hopen hblanks),
      qualifyAll_append_separator (by decide) (by decide), hparts,
      qualifyAll_append_of_no_equals (hword hgap hspace), ← hlist] at hlistQualified
    have hfound : IsQuoted (qualifyAll binding names quoted) (qualifyAll binding names []) _ _ :=
      hquoted.qualifyAll hbinding
    rw [qualifyAll_nil] at hfound
    refine isSome_readNamedImport?_iff.mpr ⟨_, blanks, _, _, _, _, hlistQualified, hblanks,
      fun hmem => hinner (mem_of_mem_qualifyAll hbinding (by decide) hmem), rfl, _,
      afterBraces?_eq_some_iff.mpr ⟨⟨gap, space, hgap, hspace, ?_⟩, hstops.mpr hfirst⟩, hfound⟩
    simp only [List.append_assoc]

end ImportStatement

end InlineComponents
