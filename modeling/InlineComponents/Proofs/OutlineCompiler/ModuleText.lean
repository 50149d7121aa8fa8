import InlineComponents.Proofs.Imports.Braced
import InlineComponents.Proofs.OutlineCompiler.Declarations
import InlineComponents.Proofs.Text.Words

/-!
# The text of a generated module

A generated module is a comment, the runtime import, the declarations and the default export, each
on lines of its own. So it is what linking expects: the runtime import is found where it stands,
with the names it was made from, and the default export is the symbol. Cut as the module of a child
it gives all that stands between the two, in which there are no further imports.
-/

namespace InlineComponents

open Text Instantiation

namespace OutlineCompiler.Markup

variable {markup : Markup} {symbol : Text}

/-! ### Lines -/

/-- The comment in front. -/
def headerLine : Text := "/* generated by stub compiler */".toList

/-- The default export. -/
def exportLine (symbol : Text) : Text := "export default ".toList ++ (symbol ++ [';'])

/-- The names of the runtime import as they stand between its braces. -/
def importList (names : List Text) : Text :=
  '\n' :: '\t' :: (joinWith ",\n\t".toList names ++ ['\n'])

/-- The module that the runtime names come from. -/
def runtimeSource : Text := "svelte/internal".toList

/-- The runtime module can stand between quotes. -/
theorem isSource_runtimeSource : IsSource runtimeSource := ⟨by decide, eq_false_of_any (by decide)⟩

/-- A character of an identifier, or one that stands between two identifiers in a list. -/
def isListCharacter (c : Char) : Bool := isPlainCharacter c || [' ', ',', '\n', '\t'].contains c

/-- A list of names from the runtime module can stand between braces. -/
theorem isBraced_of_all {names : Text} (h : names.all isListCharacter = true) :
    ImportStatement.IsBraced names runtimeSource where
  names c hc := by
    have hne {d : Char} (hd : isListCharacter d = false) : c ≠ d := by
      rintro rfl
      rw [List.all_eq_true.mp h c hc] at hd
      contradiction
    refine ⟨hne (by decide), ?_, hne (by decide)⟩
    simp [ImportStatement.isQuote, hne (d := '"') (by decide), hne (d := '\'') (by decide)]
  source := isSource_runtimeSource

/-- What stands around the list of names in an import from the runtime module. -/
def bracedRest : Text :=
  runtimeSource ++ ("import".toList ++ "from".toList ++ [' ', '{', '}', '"', ';'])

/-- A character that neither the list nor the rest holds is missing in the import. -/
theorem not_mem_braced_of_all {names : Text} (h : names.all isListCharacter = true) {c : Char}
    (hc : isListCharacter c = false) (hrest : c ∉ bracedRest) :
    c ∉ ImportStatement.braced names runtimeSource := by
  obtain ⟨hsource, hwords⟩ := not_or.mp fun hmem => hrest (List.mem_append.mpr hmem)
  refine ImportStatement.not_mem_braced (fun hmem => ?_) hsource hwords
  rw [List.all_eq_true.mp h c hmem] at hc
  contradiction

/-- The runtime import of a module. -/
def runtimeStatement (markup : Markup) : Text :=
  ImportStatement.braced (importList markup.runtimeNames) runtimeSource

/-- The declarations with the last line of the class and the empty line behind it. -/
def declarationText (reference : Text → Text) (markup : Markup) (symbol : Text) : Text :=
  statementLines (declarations reference markup symbol) ++ "\x7d\n\n".toList

/-- The runtime import ends its line. -/
theorem runtimeImport_eq (markup : Markup) :
    markup.runtimeImport = markup.runtimeStatement ++ ['\n'] := by
  have hopen : "import \x7b\n\t".toList = "import".toList ++ [' ', '{', '\n', '\t'] := by decide
  have hclose : "\n\x7d from \"svelte/internal\";\n".toList =
      '\n' :: '}' :: ' ' :: ("from".toList ++ ' ' :: '"' :: (runtimeSource ++ ['"', ';', '\n'])) := by
    decide
  unfold runtimeImport runtimeStatement ImportStatement.braced importList
  simp only [hopen, hclose, List.append_assoc, List.cons_append, List.nil_append]

/-- The creation of an element is a line. -/
theorem elementCreation_eq (index : Nat) (tag : Text) :
    elementCreation index tag = elementLine index tag ++ ['\n'] := by
  have hmiddle : " = element(\"".toList = ' ' :: '=' :: ' ' :: "element(\"".toList := by decide
  have hend : "\");\n".toList = "\");".toList ++ ['\n'] := by decide
  unfold elementCreation elementLine elementStart
  simp only [hmiddle, hend, List.append_assoc, List.cons_append, List.nil_append]

/-- The instantiation of a component is two lines. -/
theorem componentCreation_eq (index : Nat) (name : Text) :
    componentCreation index name = statementLines (instanceLines index name) := by
  have hmiddle : ";\n\tc".toList = ';' :: '\n' :: "\tc".toList := by decide
  have hend : "(\x7b props: \x7b\x7d \x7d);\n".toList =
      "(\x7b props: \x7b\x7d \x7d);".toList ++ ['\n'] := by decide
  unfold componentCreation instanceLines
  simp only [hmiddle, hend, statementLines_cons, List.append_assoc, List.cons_append, List.nil_append]
  rfl

/-- The insertion of an element is a line. -/
theorem elementInsertion_eq (index : Nat) (tag : Text) :
    elementInsertion index tag = insertionLine index tag ++ ['\n'] := by
  have hend : ", anchor);\n".toList = ", anchor);".toList ++ ['\n'] := by decide
  unfold elementInsertion insertionLine
  simp only [hend, List.append_assoc]

/-- The mounting of a component is a line. -/
theorem componentMounting_eq (index : Nat) (name : Text) :
    componentMounting index name = mountingLine index ++ ['\n'] := by
  have hend : ", target, anchor);\n".toList = ", target, anchor);".toList ++ ['\n'] := by decide
  unfold componentMounting mountingLine
  simp only [hend, List.append_assoc]

/-- The class is a row of lines in front of the default export. -/
theorem exportedClass_eq (symbol : Text) :
    exportedClass symbol = statementLines (classLine symbol :: classBody) ++
      ("\x7d\n\n".toList ++ (exportLine symbol ++ ['\n'])) := by
  have hhead : " extends SvelteComponent \x7b\n\tconstructor(options) \x7b\n\t\tsuper();\n".toList =
      " extends SvelteComponent \x7b".toList ++ '\n' :: ("\tconstructor(options) \x7b".toList ++
        '\n' :: ("\t\tsuper();".toList ++ ['\n'])) := by decide
  have hinit : "\t\tinit(this, options, null, create_fragment, safe_not_equal, \x7b\x7d);\n".toList =
      "\t\tinit(this, options, null, create_fragment, safe_not_equal, \x7b\x7d);".toList ++
        ['\n'] := by
    decide
  have hend : "\t\x7d\n\x7d\n\nexport default ".toList =
      "\t\x7d".toList ++ '\n' :: ("\x7d\n\n".toList ++ "export default ".toList) := by decide
  have hexport : ";\n".toList = [';', '\n'] := by decide
  unfold exportedClass classLine classBody exportLine
  simp only [hhead, hinit, hend, hexport, statementLines_cons, List.append_assoc, List.cons_append,
    List.nil_append]
  rfl

/-- What is written for each item is a row of lines. -/
theorem forEach_eq_statementLines {items : List Text} {write : Nat → Text → Text}
    {lines : Nat → Text → List Text}
    (h : ∀ index item, write index item = statementLines (lines index item)) :
    forEach items write = statementLines (items.zipIdx.flatMap fun item => lines item.2 item.1) := by
  rw [forEach, List.mapIdx_eq_zipIdx_map, ← List.flatMap_def, statementLines, List.flatMap_assoc]
  simp only [h]
  rfl

/-- What is written for each item is a line. -/
theorem forEach_eq_map {items : List Text} {write line : Nat → Text → Text}
    (h : ∀ index item, write index item = line index item ++ ['\n']) :
    forEach items write = statementLines (items.zipIdx.map fun item => line item.2 item.1) := by
  rw [forEach, List.mapIdx_eq_zipIdx_map, ← List.flatMap_def, statementLines, List.flatMap_map]
  simp only [h]

/-- What stands between the imports and the default export is a row of lines. -/
theorem fragment_append_exportedClass (markup : Markup) (symbol : Text) :
    markup.fragment ++ exportedClass symbol =
      '\n' :: (declarationText id markup symbol ++ (exportLine symbol ++ ['\n'])) := by
  have hstart : "\nfunction create_fragment(ctx) \x7b\n".toList =
      '\n' :: statementLines functionStart := by decide
  have hmiddle : "\treturn \x7b\n\t\tm(target, anchor) \x7b\n".toList =
      statementLines functionMiddle := by decide
  have hend : "\t\t\x7d\n\t\x7d;\n\x7d\n\n".toList = statementLines functionEnd ++ ['\n'] := by decide
  unfold fragment declarationText declarations
  simp only [hstart, hmiddle, hend, exportedClass_eq, forEach_eq_map elementCreation_eq,
    forEach_eq_map elementInsertion_eq, forEach_eq_map componentMounting_eq,
    forEach_eq_statementLines componentCreation_eq, statementLines_append, statementLines_cons,
    List.append_assoc, List.cons_append, List.nil_append, id_eq]

/-- A generated module, part by part. -/
theorem generate_eq (himports : markup.imports = []) (symbol : Text) :
    markup.generate symbol = headerLine ++ '\n' :: (markup.runtimeStatement ++ '\n' :: '\n' ::
      (declarationText id markup symbol ++ (exportLine symbol ++ ['\n']))) := by
  have hheader : "/* generated by stub compiler */\n".toList = headerLine ++ ['\n'] := by decide
  unfold generate
  rw [himports, List.flatMap_nil, List.append_nil, List.append_assoc, fragment_append_exportedClass,
    hheader, runtimeImport_eq]
  simp only [List.append_assoc, List.cons_append, List.nil_append]

/-! ### The runtime import -/

/-- The runtime names by what a source lacks and has. -/
def runtimeNamesFor (noElements noComponents clicks : Bool) : List Text :=
  (["SvelteComponent", "init", "safe_not_equal"] ++
    (if noElements then [] else ["element", "insert"]) ++
    (if noComponents then [] else ["create_component", "mount_component"]) ++
    if clicks then ["listen"] else []).map String.toList

/-- There are only a few lists of runtime names, so what is said of them can be checked. -/
theorem runtimeNames_induction {motive : List Text → Prop}
    (h : ∀ noElements noComponents clicks, motive (runtimeNamesFor noElements noComponents clicks))
    (markup : Markup) : motive markup.runtimeNames :=
  h markup.elements.isEmpty markup.components.isEmpty markup.handlesClicks

/-- No runtime name is asked for twice. -/
theorem nodup_runtimeNames (markup : Markup) : markup.runtimeNames.Nodup :=
  runtimeNames_induction (by decide) markup

/-- Runtime names are identifiers, none of which is the word for a default export. -/
theorem plain_of_mem_runtimeNames {name : Text} (h : name ∈ markup.runtimeNames) :
    isPlainIdentifier name = true ∧ name ≠ ImportStatement.defaultName :=
  runtimeNames_induction (motive := fun names => ∀ name ∈ names,
    isPlainIdentifier name = true ∧ name ≠ ImportStatement.defaultName) (by decide) markup name h

/-- The list of runtime names is read as it was written. -/
theorem localNames_importList (markup : Markup) :
    ImportStatement.localNames (importList markup.runtimeNames) = markup.runtimeNames :=
  runtimeNames_induction (motive := fun names =>
    ImportStatement.localNames (importList names) = names) (by decide +kernel) markup

/-- The bindings of runtime names under their own names. -/
def runtimeBindings (names : List Text) : List ImportBinding := names.map fun name => ⟨name, name⟩

/-- The runtime import is read as it was written. -/
theorem parse?_runtimeStatement (markup : Markup) :
    ImportStatement.parse? markup.runtimeStatement =
      some ⟨runtimeSource, runtimeBindings markup.runtimeNames⟩ :=
  runtimeNames_induction (motive := fun names =>
    ImportStatement.parse? (ImportStatement.braced (importList names) runtimeSource) =
      some ⟨runtimeSource, runtimeBindings names⟩) (by decide +kernel) markup

/-- The list of runtime names holds such names and what separates them. -/
theorem all_importList (markup : Markup) :
    (importList markup.runtimeNames).all isListCharacter = true :=
  runtimeNames_induction (motive := fun names => (importList names).all isListCharacter = true)
    (by decide +kernel) markup

/-- No default export starts in a line of the runtime import. -/
theorem silent_of_mem_runtimeStatement {line : Text}
    (h : line ∈ splitAll '\n' markup.runtimeStatement) :
    Silent DefaultExport.reader line := by
  have hall := runtimeNames_induction (motive := fun names =>
    ∀ line ∈ splitAll '\n' (ImportStatement.braced (importList names) runtimeSource),
      '\n' ∉ line ∧ startsWith "export".toList (ImportStatement.skipSpaces line) = false)
    (by decide +kernel) markup line h
  exact DefaultExport.silent_reader hall.1 hall.2

/-- The runtime import is a statement with braces. -/
theorem isBraced_runtimeStatement (markup : Markup) :
    ImportStatement.IsBraced (importList markup.runtimeNames) runtimeSource :=
  isBraced_of_all (all_importList markup)

/-- Characters that separate parts of a line are missing in the runtime import. -/
theorem not_mem_runtimeStatement {c : Char} (hc : isListCharacter c = false)
    (hrest : c ∉ bracedRest) : c ∉ markup.runtimeStatement :=
  not_mem_braced_of_all (all_importList markup) hc hrest

/-! ### What linking finds -/

/-- The lines behind the runtime import, the first of which is the rest of its line. -/
def behindLines (reference : Text → Text) (markup : Markup) (symbol : Text) : List Text :=
  [] :: (declarations reference markup symbol ++ [['}'], []])

/-- The text behind the runtime import up to the default export. -/
def behindRuntime (reference : Text → Text) (markup : Markup) (symbol : Text) : Text :=
  statementLines ([] :: behindLines reference markup symbol)

/-- The text up to the default export. -/
def beforeExport (reference : Text → Text) (markup : Markup) (symbol : Text) : Text :=
  statementLines [headerLine] ++ (markup.runtimeStatement ++ ['\n'] ++
    statementLines (behindLines reference markup symbol))

/-- A generated module up to its default export, and the default export. -/
theorem generate_eq_beforeExport (hlegible : markup.IsLegible) (symbol : Text) :
    markup.generate symbol = beforeExport id markup symbol ++ (exportLine symbol ++ ['\n']) := by
  have hend : "\x7d\n\n".toList = statementLines [['}'], []] := by decide
  rw [generate_eq hlegible.imports, beforeExport, behindLines, declarationText, hend]
  simp only [statementLines_nil, statementLines_cons, statementLines_append, List.append_assoc,
    List.cons_append, List.nil_append]

/-- The comment in front is tame. -/
theorem isTame_headerLine : ∀ line ∈ [headerLine], IsTame line := fun line hline =>
  List.mem_singleton.mp hline ▸ isTame_of_closed (by decide) (by decide)

/-- The lines behind the runtime import are tame. -/
theorem isTame_behindLines {reference : Text → Text} (hlegible : markup.IsLegible)
    (hsymbol : symbol.all isPlainCharacter = true)
    (hreference : ∀ name ∈ markup.components, (reference name).all IsTame.isTameCharacter = true) :
    ∀ line ∈ behindLines reference markup symbol, IsTame line := by
  intro line hline
  rcases List.mem_cons.mp hline with rfl | hline
  · exact IsTame.nil
  · rcases List.mem_append.mp hline with hline | hline
    · exact isTame_of_mem_declarations hlegible hsymbol hreference line hline
    · rcases List.mem_pair.mp hline with rfl | rfl
      · exact isTame_of_closed (by decide) (by decide)
      · exact IsTame.nil

/-- The default export is a single line. -/
theorem lineFeed_not_mem_exportLine (hsymbol : isPlainIdentifier symbol = true) :
    '\n' ∉ exportLine symbol := by
  unfold exportLine
  simp only [List.mem_append, not_or]
  exact ⟨by decide, no_lineFeed hsymbol, by decide⟩

/-- The default export ends with a semicolon. -/
theorem exists_exportLine_eq (symbol : Text) : ∃ front, exportLine symbol = front ++ [';'] :=
  ⟨"export default ".toList ++ symbol, (List.append_assoc _ _ _).symm⟩

/-- The line of the default export starts no import. -/
theorem startsWith_exportLine (symbol : Text) :
    startsWith "import".toList (ImportStatement.skipSpaces (exportLine symbol)) = false := by
  unfold exportLine
  rfl

/-- The default export is read up to the end of the line. -/
theorem read?_exportLine (hsymbol : isPlainIdentifier symbol = true) :
    DefaultExport.read? (exportLine symbol ++ ['\n']) = some (symbol, ['\n']) := by
  have hall := (isPlainIdentifier_iff.mp hsymbol).2
  have hexpression : symbol.all DefaultExport.isExpressionCharacter = true :=
    List.all_eq_true.mpr fun c hc => by
      have hplain := List.all_eq_true.mp hall c hc
      refine Bool.and_eq_true_iff.mpr ⟨decide_eq_true ?_, decide_eq_true ?_⟩ <;>
        (rintro rfl; exact absurd hplain (by decide))
  have hstops : Stops DefaultExport.isExpressionCharacter [';', '\n'] := stops_cons.mpr (by decide)
  obtain ⟨c, rest, rfl⟩ := List.exists_cons_of_ne_nil (ne_nil_of_isPlainIdentifier hsymbol)
  have hread : DefaultExport.readExpression? ([' '] ++ (c :: rest ++ [';', '\n'])) =
      some (c :: rest, [';', '\n']) := by
    have hfirst : Stops isBlank (c :: rest ++ [';', '\n']) := by
      rw [List.cons_append]
      exact stops_cons.mpr (isBlank_of_isPlainCharacter (Bool.and_eq_true_iff.mp hall).1)
    rw [DefaultExport.readExpression?_blanks (rfl : isBlankText [' '] = true) hfirst,
      takeWhile_stretch hexpression hstops, dropWhile_stretch hexpression hstops]
  have hwords : "export default ".toList =
      [] ++ ("export".toList ++ ([' '] ++ "default".toList)) ++ [' '] := by decide
  refine DefaultExport.read?_eq_some_iff.mpr ⟨_, _, _,
    .intro (rfl : List.all [] isSpaceOrTab = true) (rfl : isBlankText [' '] = true) (by decide),
    ?_, hread, rfl⟩
  unfold exportLine
  simp only [hwords, List.append_assoc, List.cons_append, List.nil_append]

/-- The symbol is declared behind the runtime import. -/
theorem containsWord_behindRuntime (hsymbol : isPlainIdentifier symbol = true) :
    containsWord (behindRuntime id markup symbol) symbol = true := by
  have hmem : classLine symbol ∈ [] :: behindLines id markup symbol := by
    simp [behindLines, declarations]
  obtain ⟨front, back, hlines⟩ := List.append_of_mem hmem
  have hclass : classLine symbol =
      "class".toList ++ ' ' :: (symbol ++ ' ' :: "extends SvelteComponent \x7b".toList) := by
    have hword : "class ".toList = "class".toList ++ [' '] := by decide
    have hrest : " extends SvelteComponent \x7b".toList =
      ' ' :: "extends SvelteComponent \x7b".toList := by decide
    unfold classLine
    simp only [hword, hrest, List.append_assoc, List.cons_append, List.nil_append]
  have hfound (rest : Text) : containsWord (statementLines front ++ "class".toList ++
      ' ' :: (symbol ++ ' ' :: rest)) symbol = true :=
    containsWord_append (ne_nil_of_isPlainIdentifier hsymbol) (isPlainIdentifier_iff.mp hsymbol).2
      (by decide) (by decide) _
  rw [behindRuntime, hlines, statementLines_append, statementLines_cons, hclass]
  simpa only [List.append_assoc, List.cons_append] using
    hfound ("extends SvelteComponent \x7b".toList ++ '\n' :: statementLines back)

section Found

variable (hlegible : markup.IsLegible) (hsymbol : isPlainIdentifier symbol = true)

include hlegible hsymbol

/-- The lines behind the runtime import of a module that is not linked are tame. -/
theorem isTame_behindLines_id : ∀ line ∈ behindLines id markup symbol, IsTame line :=
  isTame_behindLines hlegible (isPlainIdentifier_iff.mp hsymbol).2 fun name hname =>
    IsTame.all_of_plain (isPlainIdentifier_iff.mp (hlegible.components name hname)).2

/-- The runtime import is found at its place. -/
theorem runtimeImport_generate :
    OutputContract.runtimeImport {} (markup.generate symbol) =
      .ok ⟨⟨statementLines [headerLine], markup.runtimeStatement,
        behindRuntime id markup symbol ++ (exportLine symbol ++ ['\n']),
        ⟨importList markup.runtimeNames, runtimeSource⟩⟩, markup.runtimeNames⟩ := by
  have hheader := IsTame.yields_namedImport isTame_headerLine
  have hexport := (ImportStatement.silent_namedImport (lineFeed_not_mem_exportLine hsymbol)
    (startsWith_exportLine symbol)).yields ImportStatement.readsLines_namedImport
  have hscan := ((hheader.append ((isBraced_runtimeStatement markup).yields_namedImport.append
    (IsTame.yields_namedImport (isTame_behindLines_id hlegible hsymbol)))).append hexport).eq
      (scan_nil _ _)
  have hplace : locations (scanAll ImportStatement.namedImport (markup.generate symbol)) =
      [⟨statementLines [headerLine], markup.runtimeStatement,
        behindRuntime id markup symbol ++ (exportLine symbol ++ ['\n']),
        ⟨importList markup.runtimeNames, runtimeSource⟩⟩] := by
    rw [← locations_phrase, generate_eq_beforeExport hlegible, beforeExport, behindRuntime,
      statementLines_cons []]
    refine (congrArg locations hscan).trans ?_
    simp only [runtimeStatement, List.map_append, List.map_cons, List.append_assoc,
      List.cons_append, List.nil_append]
  rw [OutputContract.runtimeImport, OutputContract.runtimeImports, hplace]
  exact congrArg (fun names => Except.ok (RuntimeImport.mk _ names)) (localNames_importList markup)

/-- The default export is found at its place. -/
theorem defaultExport_generate :
    OutputContract.defaultExport (markup.generate symbol) =
      .ok ⟨⟨beforeExport id markup symbol, exportLine symbol, ['\n'], symbol⟩, symbol⟩ := by
  have hstatement : Yields (scanAll DefaultExport.reader) (markup.runtimeStatement ++ ['\n'])
      ((markup.runtimeStatement ++ ['\n']).map .plain) := by
    rw [← statementLines_splitAll]
    exact yields_of_silent DefaultExport.readsLines_reader fun line hline =>
      silent_of_mem_runtimeStatement hline
  have hfront := (IsTame.yields_defaultExport isTame_headerLine).append (hstatement.append
    (IsTame.yields_defaultExport (isTame_behindLines_id hlegible hsymbol)))
  have hexport : scanAll DefaultExport.reader (exportLine symbol ++ ['\n']) =
      [.phrase (exportLine symbol) symbol, .plain '\n'] := by
    obtain ⟨front, hexportLine⟩ := exists_exportLine_eq symbol
    have hread : DefaultExport.reader true (exportLine symbol ++ ['\n']) = some (symbol, ['\n']) :=
      read?_exportLine hsymbol
    have hends : endsLine (exportLine symbol) = false := by
      rw [hexportLine, endsLine, List.getLast?_append]
      rfl
    rw [scanAll, scan_of_some (by simp [hexportLine]) hread, hends,
      scan_cons_of_none (DefaultExport.readsLines_reader _), scan_nil]
  have hscan : scanAll DefaultExport.reader (markup.generate symbol) =
      (beforeExport id markup symbol).map .plain ++
        (.phrase (exportLine symbol) symbol :: ['\n'].map .plain) := by
    have hall := hfront (exportLine symbol ++ ['\n'])
    rw [hexport, ← List.map_append, ← List.map_append] at hall
    rw [generate_eq_beforeExport hlegible]
    exact hall
  have htrim : trim symbol = symbol := trim_of_tight (tight_of_forall fun c hc =>
    isBlank_of_isPlainCharacter (List.all_eq_true.mp (isPlainIdentifier_iff.mp hsymbol).2 c hc))
  rw [OutputContract.defaultExport, hscan, locations_phrase]
  simp only [List.getLast?_singleton, htrim, hsymbol, if_true]

/-! ### The module of a child -/

/-- Nothing is imported behind the runtime import. -/
theorem scanAll_behindRuntime :
    scanAll ImportStatement.staticImport (behindRuntime id markup symbol) =
      (behindRuntime id markup symbol).map .plain := by
  refine (IsTame.yields_staticImport fun line hline => ?_).eq (scan_nil _ _)
  rcases List.mem_cons.mp hline with rfl | hline
  · exact IsTame.nil
  · exact isTame_behindLines_id hlegible hsymbol line hline

/-- The module as the cut of a child. -/
def childCut (markup : Markup) (symbol : Text) : ChildCut :=
  ⟨markup.runtimeStatement, markup.runtimeNames, behindRuntime id markup symbol⟩

/-- Nothing is moved out of the body. -/
theorem body_childCut : (markup.childCut symbol).body = behindRuntime id markup symbol := by
  rw [ChildCut.body, ImportStatement.withoutStaticImports, childCut,
    scanAll_behindRuntime hlegible hsymbol, withoutPhrases_map_plain]

/-- There are no statements to move. -/
theorem statements_childCut : (markup.childCut symbol).statements = [] := by
  rw [ChildCut.statements, ImportStatement.staticImportTexts, childCut,
    scanAll_behindRuntime hlegible hsymbol, locations_map_plain]
  rfl

/-- A generated module can be cut for linking. -/
theorem ofCode_generate :
    ChildCut.ofCode {} symbol (markup.generate symbol) = .ok (markup.childCut symbol) := by
  refine ChildCut.ofCode_eq_ok_iff.mpr ⟨_, _, runtimeImport_generate hlegible hsymbol,
    defaultExport_generate hlegible hsymbol, ?_, rfl, rfl, rfl, ?_⟩
  · rw [beforeExport, childCut, behindRuntime, statementLines_cons []]
    simp only [List.append_assoc, List.cons_append, List.nil_append]
  · rw [body_childCut hlegible hsymbol]
    exact containsWord_behindRuntime hsymbol

end Found

/-- The runtime import of the cut. -/
theorem runtimeStatement_childCut (markup : Markup) (symbol : Text) :
    (markup.childCut symbol).runtimeStatement {} =
      ⟨runtimeSource, runtimeBindings markup.runtimeNames⟩ := by
  rw [ChildCut.runtimeStatement, childCut, parse?_runtimeStatement]
  rfl

/-- The bindings that a child asks for are those of its runtime import. -/
theorem requests_childCut (hlegible : markup.IsLegible) (hsymbol : isPlainIdentifier symbol = true) :
    (markup.childCut symbol).requests {} =
      markup.runtimeNames.map fun name => ⟨name, runtimeSource, name⟩ := by
  rw [ChildCut.requests, statements_childCut hlegible hsymbol, runtimeStatement_childCut,
    ImportStatement.boundNames, runtimeBindings, List.map_map]
  rfl

end OutlineCompiler.Markup

end InlineComponents
