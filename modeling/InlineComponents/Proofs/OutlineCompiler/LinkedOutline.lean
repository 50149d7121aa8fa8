import InlineComponents.Proofs.OutlineCompiler.ModuleText

/-!
# Linked outlines line by line

What linking makes of generated modules is again a row of lines. Between the lines of the parent and
of its children, with other references to components, stand comments, the runtime imports of the
children and the lines that open and close their initializers. A function that passes over the lines
in which no statement starts sees only the runtime imports and the openings of the initializers.
-/

namespace InlineComponents

open Text Instantiation

namespace OutlineCompiler

/-! ### Runtime imports of children -/

/-- A statement that binds runtime names under their own names. -/
structure IsRuntimeStatement (statement : ImportStatement) : Prop where
  source : statement.source = Markup.runtimeSource
  ne_nil : statement.bindings ≠ []
  bindings : ∀ binding ∈ statement.bindings, binding.imported = binding.localName ∧
    isPlainIdentifier binding.localName = true ∧ binding.localName ≠ ImportStatement.defaultName

namespace IsRuntimeStatement

variable {statement : ImportStatement} (h : IsRuntimeStatement statement)

include h

/-- Its bindings stand between braces. -/
theorem isNamed {binding : ImportBinding} (hbinding : binding ∈ statement.bindings) :
    ImportStatement.isNamed binding = true := by
  obtain ⟨himported, hplain, hdefault⟩ := h.bindings binding hbinding
  have hnamespace : binding.localName ≠ ImportStatement.namespaceName := by
    intro heq
    rw [heq] at hplain
    exact absurd hplain (by decide)
  simp [ImportStatement.isNamed, himported, hdefault, hnamespace]

/-- It is read as it was written, whatever follows. -/
theorem parse?_render (back : Text) :
    ImportStatement.parse? (statement.render ++ back) = some statement := by
  have hplain : ∀ binding ∈ statement.bindings, binding.IsPlain := fun binding hbinding => by
    obtain ⟨himported, hplain, -⟩ := h.bindings binding hbinding
    exact ⟨isName_of_plain hplain, .inr (himported ▸ isName_of_plain hplain)⟩
  obtain ⟨source, bindings⟩ := statement
  obtain rfl : source = Markup.runtimeSource := h.source
  have hread := ImportStatement.parse?_render Markup.isSource_runtimeSource.ne_nil
    Markup.isSource_runtimeSource.quotes hplain
  rw [ImportStatement.readBack_of_isNamed fun binding hbinding => h.isNamed hbinding] at hread
  exact ImportStatement.parse?_append hread back

/-- The names between its braces are separated by commas and blanks. -/
theorem exists_braced :
    ∃ names : Text, statement.render = ImportStatement.braced names Markup.runtimeSource ∧
      names.all Markup.isListCharacter = true := by
  obtain ⟨source, bindings⟩ := statement
  obtain rfl : source = Markup.runtimeSource := h.source
  refine ⟨_, ImportStatement.render_eq_braced (fun binding => h.isNamed) _ h.ne_nil,
    List.all_eq_true.mpr fun c hc => ?_⟩
  rcases List.mem_cons.mp hc with rfl | hc
  · rfl
  · rcases List.mem_append.mp hc with hc | hc
    · rcases ImportStatement.mem_joinWith hc with hc | ⟨piece, hpiece, hc⟩
      · have hseparator : ", ".toList.all Markup.isListCharacter = true := by decide
        exact List.all_eq_true.mp hseparator c hc
      · obtain ⟨binding, hbinding, rfl⟩ := List.mem_map.mp hpiece
        obtain ⟨himported, hplain, -⟩ := h.bindings binding hbinding
        rw [ImportStatement.writeSpecifier, if_pos himported] at hc
        exact Bool.or_eq_true_iff.mpr
          (.inl (List.all_eq_true.mp (isPlainIdentifier_iff.mp hplain).2 c hc))
    · rw [List.mem_singleton.mp hc]
      rfl

/-- Characters that separate parts of a line are missing in it. -/
theorem not_mem_render {c : Char} (hc : Markup.isListCharacter c = false)
    (hrest : c ∉ Markup.bracedRest) : c ∉ statement.render := by
  obtain ⟨names, hrender, hnames⟩ := h.exists_braced
  rw [hrender]
  exact Markup.not_mem_braced_of_all hnames hc hrest

/-- It is the static import of its line. -/
theorem yields_staticImportTexts : Yields ImportStatement.staticImportTexts
    (statement.render ++ ['\n']) [statement.render ++ ['\n']] := by
  obtain ⟨names, hrender, hnames⟩ := h.exists_braced
  rw [hrender]
  exact (Markup.isBraced_of_all hnames).yields_staticImportTexts

end IsRuntimeStatement

/-! ### Blocks -/

/-- What opens an initializer. -/
def initializerOpening : Text := " = (() => \x7b".toList

/-- The line that opens the initializer of a component. -/
def openingLine (binding name : Text) : Text := binding ++ '.' :: (name ++ initializerOpening)

/-- The lines of a block with the given statements and lines of the body. -/
def blockLines (binding name symbol : Text) (statements body : List Text) : List Text :=
  ("// ".toList ++ (binding ++ '.' :: name)) :: (statements ++ openingLine binding name ::
    (body ++ [['}'], "\treturn ".toList ++ (symbol ++ [';']), "\x7d)();".toList]))

/-- A block that ends its line is the row of its lines. -/
theorem blockOf_eq_statementLines (binding name : Text) (statements body : List Text) :
    blockOf binding name (statementLines statements) (statementLines body ++ ['}']) ++ ['\n'] =
      statementLines (blockLines binding name (OutputContract.generatedSymbol binding name) statements
        body) := by
  have hopening : " = (() => \x7b\n".toList = initializerOpening ++ ['\n'] := by decide
  have hreturn : "\n\treturn ".toList = '\n' :: "\treturn ".toList := by decide
  have hend : ";\n\x7d)();".toList = ';' :: '\n' :: "\x7d)();".toList := by decide
  unfold blockOf initializer blockLines openingLine
  simp only [hopening, hreturn, hend, statementLines_nil, statementLines_cons, statementLines_append,
    List.append_assoc, List.cons_append, List.nil_append]

/-- The body of a child without its outer line breaks. -/
theorem trimLineBreaks_behindRuntime (reference : Text → Text) (markup : Markup) (symbol : Text) :
    ChildCut.trimLineBreaks (markup.behindRuntime reference symbol) =
      statementLines (markup.declarations reference symbol) ++ ['}'] := by
  have hfirst : "function create_fragment(ctx) \x7b".toList =
      'f' :: "unction create_fragment(ctx) \x7b".toList := by decide
  have hstart : ∃ rest, statementLines (markup.declarations reference symbol) = 'f' :: rest := by
    unfold Markup.declarations Markup.functionStart
    simp only [hfirst, List.append_assoc, List.cons_append, statementLines_cons]
    exact ⟨_, rfl⟩
  have htext : markup.behindRuntime reference symbol = ['\n', '\n'] ++
      (statementLines (markup.declarations reference symbol) ++ ['}'] ++ ['\n', '\n']) := by
    unfold Markup.behindRuntime Markup.behindLines
    simp only [statementLines_nil, statementLines_cons, statementLines_append, List.append_assoc,
      List.cons_append, List.nil_append]
  obtain ⟨rest, hrest⟩ := hstart
  have hfront : Stops ChildCut.isLineBreak
      (statementLines (markup.declarations reference symbol) ++ ['}'] ++ ['\n', '\n']) := by
    rw [hrest]
    exact stops_cons.mpr (by decide)
  have hback : Stops ChildCut.isLineBreak
      (statementLines (markup.declarations reference symbol) ++ ['}']).reverse := by
    rw [List.reverse_append]
    exact stops_cons.mpr (by decide)
  rw [ChildCut.trimLineBreaks, htext, dropWhile_stretch (by decide) hfront,
    dropEndWhile_stretch (by decide) hback]

section Blocks

variable {β : Type} {f : Text → List β} {binding name symbol : Text} {statements body : List Text}
  {image : Text → List β} {opening : List β}

/-- A function that passes over tame lines sees nothing in a run of them. -/
theorem yields_tameLines (htame : ∀ line, IsTame line → Yields f (line ++ ['\n']) [])
    {lines : List Text} (h : ∀ line ∈ lines, IsTame line) : Yields f (statementLines lines) [] :=
  Yields.lines_nil fun line hline => htame line (h line hline)

/-- A function that passes over tame lines sees the statements of a block and the opening of its
initializer. -/
theorem yields_blockLines (htame : ∀ line, IsTame line → Yields f (line ++ ['\n']) [])
    (hbinding : binding.all isPlainCharacter = true) (hname : name.all isPlainCharacter = true)
    (hsymbol : symbol.all isPlainCharacter = true)
    (hstatements : ∀ statement ∈ statements, Yields f (statement ++ ['\n']) (image statement))
    (hopening : Yields f (openingLine binding name ++ ['\n']) opening)
    (hbody : ∀ line ∈ body, IsTame line) :
    Yields f (statementLines (blockLines binding name symbol statements body))
      (statements.flatMap image ++ opening) := by
  have hcomment : IsTame ("// ".toList ++ (binding ++ '.' :: name)) := by
    refine IsTame.of_start "// ".toList (by decide) (by decide) ?_
    rw [List.all_append, List.all_cons, IsTame.all_of_plain hbinding, IsTame.all_of_plain hname]
    rfl
  have hreturn : IsTame ("\treturn ".toList ++ (symbol ++ [';'])) := by
    refine IsTame.of_start "\treturn ".toList (by decide) (by decide) ?_
    rw [List.all_append, IsTame.all_of_plain hsymbol]
    rfl
  have hend : ∀ line ∈ body ++ [['}'], "\treturn ".toList ++ (symbol ++ [';']), "\x7d)();".toList],
      IsTame line := by
    intro line hline
    simp only [List.mem_append, List.mem_cons, List.not_mem_nil, or_false] at hline
    rcases hline with hline | rfl | rfl | rfl
    · exact hbody line hline
    · exact Markup.isTame_of_closed (by decide) (by decide)
    · exact hreturn
    · exact Markup.isTame_of_closed (by decide) (by decide)
  have hrow : Yields f (statementLines statements) (statements.flatMap image) :=
    Yields.flatMap hstatements
  have hall := (htame _ hcomment).append (hrow.append (hopening.append (yields_tameLines htame hend)))
  unfold blockLines
  rw [statementLines_cons, statementLines_append, statementLines_cons]
  simpa only [List.append_assoc, List.singleton_append, List.nil_append, List.append_nil] using hall

end Blocks

/-! ### Linked modules -/

/-- A generated module with the given references to components and a region in front of its default
export. -/
def linkedText (reference : Text → Text) (markup : Markup) (binding : Text) (blocks : List Text) :
    Text :=
  markup.beforeExport reference binding ++ regionOf [] blocks ++
    (Markup.exportLine binding ++ ['\n'])

section Modules

variable {α β : Type} {f : Text → List β} {items : List α} {block : α → Text} {image : α → List β}
  {reference : Text → Text} {markup : Markup} {binding : Text}
  (htame : ∀ line, IsTame line → Yields f (line ++ ['\n']) [])

/-- A function that passes over empty lines sees the blocks of a region one after the other. -/
theorem yields_joinWith (hempty : Yields f ['\n'] [])
    (hblocks : ∀ item ∈ items, Yields f (block item ++ ['\n']) (image item)) :
    Yields f (joinWith "\n\n".toList (items.map block) ++ ['\n']) (items.flatMap image) := by
  induction items with
  | nil => exact hempty
  | cons first rest ih =>
    have hfirst := hblocks first List.mem_cons_self
    have hrest := ih fun item hitem => hblocks item (List.mem_cons_of_mem _ hitem)
    cases rest with
    | nil => simpa [joinWith] using hfirst
    | cons second others =>
      have hall := hfirst.append (hempty.append hrest)
      have hjoin : joinWith "\n\n".toList ((first :: second :: others).map block) ++ ['\n'] =
          block first ++ ['\n'] ++ (['\n'] ++
            (joinWith "\n\n".toList ((second :: others).map block) ++ ['\n'])) := by
        rw [List.append_assoc (block first), ← List.append_assoc ['\n'], List.map_cons, List.map_cons,
          joinWith, List.append_assoc, List.append_assoc]
        rfl
      rw [hjoin]
      exact hall

include htame

/-- The comments of a region are passed over. -/
theorem yields_regionOf
    (hblocks : ∀ item ∈ items, Yields f (block item ++ ['\n']) (image item)) :
    Yields f (regionOf [] (items.map block)) (items.flatMap image) := by
  have hempty : Yields f ['\n'] [] := htame [] IsTame.nil
  have hopening : Yields f (LinkedCode.openingComment ++ ['\n']) [] :=
    htame _ (Markup.isTame_of_closed (by decide) (by decide))
  have hclosing : Yields f (LinkedCode.closingComment ++ ['\n']) [] :=
    htame _ (Markup.isTame_of_closed (by decide) (by decide))
  have hall := hopening.append ((yields_joinWith hempty hblocks).append (hclosing.append hempty))
  have hbreak : "\n\n".toList = ['\n'] ++ ['\n'] := by decide
  unfold regionOf
  rw [hbreak] at hall ⊢
  simpa only [List.append_assoc, List.cons_append, List.nil_append, List.append_nil] using hall

variable {runtime exported : List β} (hlegible : markup.IsLegible)
  (hbinding : binding.all isPlainCharacter = true)
  (hruntime : Yields f (markup.runtimeStatement ++ ['\n']) runtime)
  (hexported : Yields f (Markup.exportLine binding ++ ['\n']) exported)

include hlegible hbinding hruntime

/-- In front of the default export only the runtime import is seen. -/
theorem yields_beforeExport
    (hreference : ∀ name ∈ markup.components, (reference name).all IsTame.isTameCharacter = true) :
    Yields f (markup.beforeExport reference binding) runtime := by
  have hall := (yields_tameLines htame Markup.isTame_headerLine).append (hruntime.append
    (yields_tameLines htame (Markup.isTame_behindLines hlegible hbinding hreference)))
  rwa [List.append_nil] at hall

include hexported

/-- In a generated module the runtime import and the default export are seen. -/
theorem yields_generate : Yields f (markup.generate binding) (runtime ++ exported) := by
  rw [Markup.generate_eq_beforeExport hlegible]
  exact (yields_beforeExport htame hlegible hbinding hruntime fun name hname => IsTame.all_of_plain
    (isPlainIdentifier_iff.mp (hlegible.components name hname)).2).append hexported

/-- In a linked module the runtime import, the blocks and the default export are seen. -/
theorem yields_linkedText
    (hreference : ∀ name ∈ markup.components, (reference name).all IsTame.isTameCharacter = true)
    (hblocks : ∀ item ∈ items, Yields f (block item ++ ['\n']) (image item)) :
    Yields f (linkedText reference markup binding (items.map block))
      (runtime ++ items.flatMap image ++ exported) :=
  ((yields_beforeExport htame hlegible hbinding hruntime hreference).append
    (yields_regionOf htame hblocks)).append hexported

end Modules

/-! ### Qualified modules -/

section Qualification

variable {markup : Markup} {binding : Text} {names : List Text} (hlegible : markup.IsLegible)

include hlegible

/-- Qualifying the text up to the default export changes the references to components. -/
theorem qualifyAll_beforeExport (hbinding : binding.all isPlainCharacter = true) :
    qualifyAll binding names (markup.beforeExport id binding) =
      markup.beforeExport (Markup.linkedReference binding names) binding := by
  have hheader : ∀ line ∈ [Markup.headerLine], '=' ∉ line := by decide
  have hruntime : '=' ∉ markup.runtimeStatement ++ ['\n'] := by
    refine fun hmem => (List.mem_append.mp hmem).elim ?_ (by decide)
    exact Markup.not_mem_runtimeStatement (by decide) (by decide)
  have hstatement : Yields (qualifyAll binding names) (markup.runtimeStatement ++ ['\n'])
      (markup.runtimeStatement ++ ['\n']) := qualifyAll_append_of_no_equals hruntime
  have hbehind : Yields (qualifyAll binding names)
      (statementLines (Markup.behindLines id markup binding))
      (statementLines (Markup.behindLines (Markup.linkedReference binding names) markup binding)) := by
    have hempty : Yields (qualifyAll binding names) (statementLines [[]]) (statementLines [[]]) :=
      Markup.yields_qualifyAll_of_no_equals (by decide)
    have hend : Yields (qualifyAll binding names) (statementLines [['}'], []])
        (statementLines [['}'], []]) := Markup.yields_qualifyAll_of_no_equals (by decide)
    have hall := hempty.append ((Markup.yields_qualifyAll_declarations hlegible hbinding).append hend)
    simpa only [Markup.behindLines, ← statementLines_append, List.cons_append, List.nil_append]
      using hall
  exact ((Markup.yields_qualifyAll_of_no_equals hheader).append (hstatement.append hbehind)).eq
    (qualifyAll_nil binding names)

omit hlegible in
/-- Qualifying leaves the default export as it is. -/
theorem qualifyAll_exportLine (hbinding : binding.all isPlainCharacter = true) :
    qualifyAll binding names (Markup.exportLine binding ++ ['\n']) =
      Markup.exportLine binding ++ ['\n'] := by
  refine qualifyAll_of_no_equals ?_
  unfold Markup.exportLine
  simp only [List.mem_append, not_or]
  exact ⟨⟨by decide, no_equals_of_plain hbinding, by decide⟩, by decide⟩

/-- Qualifying the body of a child changes the references to components. -/
theorem qualifyAll_trimmedBody {symbol : Text} (hsymbol : isPlainIdentifier symbol = true) :
    qualifyAll binding names (ChildCut.trimLineBreaks (markup.childCut symbol).body) =
      statementLines (Markup.declarations (Markup.linkedReference binding names) markup symbol) ++
        ['}'] := by
  have hdeclarations : Yields (qualifyAll binding names)
      (statementLines (markup.declarations id symbol)) _ :=
    Markup.yields_qualifyAll_declarations hlegible (isPlainIdentifier_iff.mp hsymbol).2
  rw [Markup.body_childCut hlegible hsymbol, trimLineBreaks_behindRuntime, hdeclarations,
    qualifyAll_of_no_equals (by decide)]

end Qualification

end OutlineCompiler

end InlineComponents
