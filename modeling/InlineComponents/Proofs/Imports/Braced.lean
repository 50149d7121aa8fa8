import InlineComponents.Proofs.Linking.Lines

/-!
# Statements with braces

The statement that a compiler writes for the runtime names and the one that linking writes for those
a child still lacks differ only in the blanks between the names. Both recognisers take such a
statement as a whole when it ends its line.
-/

namespace InlineComponents

open Text

namespace ImportStatement

/-- A statement with the given text between its braces. -/
def braced (names source : Text) : Text :=
  "import".toList ++ ' ' :: '{' :: (names ++ '}' :: ' ' ::
    ("from".toList ++ ' ' :: '"' :: (source ++ ['"', ';'])))

/-- What makes a statement with braces readable. -/
structure IsBraced (names source : Text) : Prop where
  names : ∀ c ∈ names, c ≠ '}' ∧ isQuote c = false ∧ c ≠ ';'
  source : IsSource source

namespace IsBraced

variable {names source : Text}

/-- The source is read in front of the closing quote. -/
theorem readSource?_eq (h : IsBraced names source) (after : Text) :
    readSource? ('"' :: (source ++ '"' :: after)) = some (source, after) :=
  readSource?_eq_some_iff.mpr (isQuoted_nil rfl rfl h.source.ne_nil h.source.quotes)

/-- The text behind the first word. -/
theorem afterImportWord?_eq (names source back : Text) :
    afterImportWord? (braced names source ++ back) =
      some (' ' :: '{' :: (names ++ '}' :: ' ' ::
        ("from".toList ++ ' ' :: '"' :: (source ++ '"' :: ';' :: back)))) :=
  afterImportWord?_eq_some_iff.mpr ⟨[], rfl, by
    unfold braced
    simp only [List.append_assoc, List.cons_append, List.nil_append]⟩

/-- The named import is read up to the end of the line. -/
theorem readNamedImport?_eq (h : IsBraced names source) (back : Text) :
    readNamedImport? (braced names source ++ '\n' :: back) =
      some (⟨names, source⟩, '\n' :: back) := by
  have hnames : names.all (fun c => decide (c ≠ '}')) = true :=
    List.all_eq_true.mpr fun c hc => decide_eq_true (h.names c hc).1
  have hbrace (rest : Text) : Stops (fun c => decide (c ≠ '}')) ('}' :: rest) :=
    stops_cons.mpr (by decide)
  have hfrom (after : Text) :
      afterBraces? ('}' :: ' ' :: ("from".toList ++ ' ' :: '"' :: after)) = some ('"' :: after) :=
    afterBraces?_eq_some_iff.mpr ⟨⟨[' '], [' '], rfl, rfl, rfl⟩, stops_cons.mpr (by decide)⟩
  have hskip (rest : Text) : skipBlanks (' ' :: '{' :: rest) = '{' :: rest := rfl
  rw [readNamedImport?, afterImportWord?_eq, Option.map_some, hskip]
  simp only []
  rw [dropWhile_stretch hnames (hbrace _), takeWhile_stretch hnames (hbrace _), hfrom,
    Option.bind_some, h.readSource?_eq]
  rfl

/-- The static import is read with the end of the line. -/
theorem readStaticImport?_eq (h : IsBraced names source) (back : Text) :
    readStaticImport? (braced names source ++ '\n' :: back) = some back := by
  have hclause : isStaticClause (' ' :: '{' :: (names ++ '}' :: ' ' :: ("from".toList ++ [' ']))) =
      true := by
    refine isStaticClause_iff.mpr (.inr ⟨' ', '{' :: (names ++ ['}']), ' ', rfl, rfl,
      beforeFrom?_eq_some_iff.mpr ⟨[' '], rfl, by simp⟩, fun hmem => ?_⟩)
    have hnames : ';' ∈ names := by simpa using hmem
    exact (h.names _ hnames).2.2 rfl
  have hquotes (rest : Text) : Stops (fun c => !isQuote c) ('"' :: rest) :=
    stops_cons.mpr (by decide)
  have hhead : (' ' :: '{' :: (names ++ '}' :: ' ' :: ("from".toList ++ [' ']))).all
      (fun c => !isQuote c) = true := by
    rw [List.all_cons, List.all_cons, List.all_append,
      all_not_quote fun c hc => (h.names c hc).2.1]
    rfl
  have htext (after : Text) : ' ' :: '{' :: (names ++ '}' :: ' ' :: ("from".toList ++ ' ' :: after)) =
      ' ' :: '{' :: (names ++ '}' :: ' ' :: ("from".toList ++ [' '])) ++ after := by simp
  rw [readStaticImport?, afterImportWord?_eq]
  dsimp only
  rw [htext, takeWhile_stretch hhead (hquotes _), dropWhile_stretch hhead (hquotes _), hclause,
    if_pos rfl, h.readSource?_eq]
  rfl

/-- The statement ends with a semicolon. -/
theorem exists_braced_eq (names source : Text) : ∃ front, braced names source = front ++ [';'] :=
  ⟨"import".toList ++ ' ' :: '{' :: (names ++ '}' :: ' ' ::
    ("from".toList ++ ' ' :: '"' :: (source ++ ['"']))), by
    unfold braced
    simp only [List.append_assoc, List.cons_append, List.nil_append]⟩

/-- The named import in a row of lines. -/
theorem yields_namedImport (h : IsBraced names source) :
    Yields (scanAll namedImport) (braced names source ++ ['\n'])
      [.phrase (braced names source) ⟨names, source⟩, .plain '\n'] := fun back => by
  have hread : namedImport true (braced names source ++ '\n' :: back) =
      some (⟨names, source⟩, '\n' :: back) := by
    rw [namedImport, if_pos rfl, h.readNamedImport?_eq]
  obtain ⟨front, hfront⟩ := exists_braced_eq names source
  have hends : endsLine (braced names source) = false := by
    rw [hfront, endsLine, List.getLast?_append]
    rfl
  rw [List.append_assoc, List.singleton_append, scanAll,
    scan_of_some (by simp [hfront]) hread, hends, scan_cons_of_none (readsLines_namedImport _)]
  rfl

/-- The static import in a row of lines. -/
theorem yields_staticImport (h : IsBraced names source) :
    Yields (scanAll staticImport) (braced names source ++ ['\n'])
      [.phrase (braced names source ++ ['\n']) ()] := fun back => by
  have hread : staticImport true (braced names source ++ ['\n'] ++ back) = some ((), back) := by
    rw [staticImport, if_pos rfl, List.append_assoc, List.singleton_append, h.readStaticImport?_eq]
    rfl
  have hends : endsLine (braced names source ++ ['\n']) = true := by
    rw [endsLine, List.getLast?_append]
    rfl
  rw [scanAll, scan_of_some (by simp) hread, hends]
  rfl

/-- It is the static import of its line. -/
theorem yields_staticImportTexts (h : IsBraced names source) :
    Yields staticImportTexts (braced names source ++ ['\n']) [braced names source ++ ['\n']] :=
  ImportStatement.yields_staticImportTexts h.yields_staticImport

end IsBraced

/-- A character that is in no part of a statement is not in it. -/
theorem not_mem_braced {names source : Text} {c : Char} (hnames : c ∉ names) (hsource : c ∉ source)
    (hc : c ∉ "import".toList ++ "from".toList ++ [' ', '{', '}', '"', ';']) :
    c ∉ braced names source := by
  unfold braced
  simp only [List.mem_append, List.mem_cons, List.not_mem_nil, or_false, not_or] at hc ⊢
  tauto

/-- What a statement says does not depend on the text behind it. -/
theorem parse?_append {text : Text} {statement : ImportStatement}
    (h : parse? text = some statement) (back : Text) : parse? (text ++ back) = some statement := by
  obtain ⟨source, bindings⟩ := statement
  obtain ⟨blanks, rest, head, after, hblanks, rfl, ⟨hopening, hclosing, hhead, hne, hsource⟩,
    hbinds⟩ :=
    parse?_eq_some_iff.mp h
  refine parse?_eq_some_iff.mpr ⟨blanks, _, head, after ++ back, hblanks, ?_,
    .intro hopening hclosing hhead hne hsource, hbinds⟩
  simp only [List.append_assoc, List.cons_append]

section Named

variable {bindings : List ImportBinding} (h : ∀ binding ∈ bindings, isNamed binding = true)

include h

/-- A statement of named bindings is one with braces. -/
theorem render_eq_braced (source : Text) (hne : bindings ≠ []) :
    render ⟨source, bindings⟩ =
      braced (' ' :: (joinWith ", ".toList (bindings.map writeSpecifier) ++ [' '])) source := by
  have hparts : clauseParts bindings = [braces bindings] := by
    rw [clauseParts_eq, lastLocal?_of_isNamed h (.inl rfl), partsBehindDefault,
      lastLocal?_of_isNamed h (.inr rfl), List.filter_eq_self.mpr h]
    cases bindings with
    | nil => contradiction
    | cons first rest => rfl
  have hopen : "import ".toList ++ "\x7b ".toList = "import".toList ++ [' ', '{', ' '] := by decide
  have hfrom : " \x7d".toList ++ " from \"".toList =
      ' ' :: '}' :: ' ' :: ("from".toList ++ [' ', '"']) := by decide
  have hend : "\";".toList = ['"', ';'] := by decide
  have htext (inner : Text) : "import ".toList ++ ("\x7b ".toList ++ inner ++ " \x7d".toList) ++
      " from \"".toList ++ source ++ "\";".toList = braced (' ' :: (inner ++ [' '])) source := by
    calc
      _ = "import ".toList ++ "\x7b ".toList ++ (inner ++ ((" \x7d".toList ++ " from \"".toList) ++
            (source ++ "\";".toList))) := by simp only [List.append_assoc]
      _ = _ := by
        rw [hopen, hfrom, hend]
        unfold braced
        simp only [List.append_assoc, List.cons_append, List.nil_append]
  rw [render_of_ne_nil source hne, hparts]
  exact htext _

end Named

end ImportStatement

end InlineComponents
