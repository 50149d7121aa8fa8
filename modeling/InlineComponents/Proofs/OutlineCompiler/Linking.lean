import InlineComponents.Proofs.Linking.OrderIndependence
import InlineComponents.Proofs.Linking.Sites
import InlineComponents.Proofs.OutlineCompiler.LinkedOutline

/-!
# Linking generated modules

A generated module asks for runtime names under their own names and for nothing else, so generated
modules can always be linked into one that was generated for their parent. The linked module is
again a row of lines. Each runtime name that one of the modules asks for is bound in it once, and it
has one initializer for each child, in the order of the children.
-/

namespace InlineComponents

open Text Instantiation

namespace OutlineCompiler

/-- An identifier with a second one behind two underscores. -/
theorem isPlainIdentifier_generatedSymbol {binding name : Text}
    (hbinding : isPlainIdentifier binding = true) (hname : name.all isPlainCharacter = true) :
    isPlainIdentifier (OutputContract.generatedSymbol binding name) = true := by
  obtain ⟨⟨c, rest, rfl, hc⟩, hall⟩ := isPlainIdentifier_iff.mp hbinding
  refine isPlainIdentifier_iff.mpr ⟨⟨c, rest ++ "__".toList ++ name, rfl, hc⟩, ?_⟩
  rw [OutputContract.generatedSymbol, List.all_append, List.all_append, hall, hname]
  decide

/-- The binding of a runtime name. -/
def runtimeBound (name : Text) : BoundName := ⟨name, Markup.runtimeSource, name⟩

/-- The local names of the bindings of runtime names are those names. -/
theorem map_localName_runtimeBound (names : List Text) :
    (names.map runtimeBound).map BoundName.localName = names := by
  rw [List.map_map]
  exact List.map_id' names

/-- Of runtime names only the local name differs. -/
theorem eq_of_mem_runtimeBound {names others : List Text} {bound found : BoundName}
    (hbound : bound ∈ names.map runtimeBound) (hfound : found ∈ others.map runtimeBound)
    (h : bound.localName = found.localName) : bound = found := by
  obtain ⟨name, -, rfl⟩ := List.mem_map.mp hbound
  obtain ⟨other, -, rfl⟩ := List.mem_map.mp hfound
  exact congrArg runtimeBound h

/-! ### The imports of a generated module -/

section Imports

variable {markup : Markup} {symbol : Text}

/-- The runtime import binds the runtime names, whatever follows. -/
theorem namesIn_runtimeStatement (markup : Markup) (back : Text) :
    ImportStatement.namesIn (markup.runtimeStatement ++ back) =
      markup.runtimeNames.map runtimeBound := by
  rw [ImportStatement.namesIn,
    ImportStatement.parse?_append (Markup.parse?_runtimeStatement markup) back, Option.toList_some,
    List.flatMap_singleton, ImportStatement.boundNames, Markup.runtimeBindings, List.map_map]
  rfl

/-- The runtime import is the static import of its lines. -/
theorem yields_runtimeStatement (markup : Markup) : Yields ImportStatement.staticImportTexts
    (markup.runtimeStatement ++ ['\n']) [markup.runtimeStatement ++ ['\n']] :=
  (Markup.isBraced_runtimeStatement markup).yields_staticImportTexts

/-- The default export is no static import. -/
theorem yields_exportLine (hsymbol : isPlainIdentifier symbol = true) :
    Yields ImportStatement.staticImportTexts (Markup.exportLine symbol ++ ['\n']) [] :=
  ImportStatement.yields_staticImportTexts_nil (Markup.lineFeed_not_mem_exportLine hsymbol)
    (Markup.startsWith_exportLine symbol)

/-- The only static import of a generated module is its runtime import. -/
theorem yields_staticImportTexts_generate (hlegible : markup.IsLegible)
    (hsymbol : isPlainIdentifier symbol = true) : Yields ImportStatement.staticImportTexts
      (markup.generate symbol) [markup.runtimeStatement ++ ['\n']] :=
  yields_generate (fun _ hline => hline.yields_staticImportTexts) hlegible
    (isPlainIdentifier_iff.mp hsymbol).2
    (yields_runtimeStatement markup) (yields_exportLine hsymbol)

end Imports

/-! ### The initializers of a generated module -/

section Initializers

variable {markup : Markup} {symbol : Text}

/-- What opens an initializer has an arrow in it. -/
theorem arrow_mem_initializerOpening : '>' ∈ initializerOpening := by decide

/-- No initializer starts in the runtime import. -/
theorem yields_linesWith_runtimeStatement (markup : Markup) :
    Yields (linesWith initializerOpening) (markup.runtimeStatement ++ ['\n']) [] :=
  yields_linesWith_nil arrow_mem_initializerOpening
    (Markup.not_mem_runtimeStatement (by decide) (by decide))

/-- The default export opens no initializer. -/
theorem yields_linesWith_exportLine (hsymbol : isPlainIdentifier symbol = true) :
    Yields (linesWith initializerOpening) (Markup.exportLine symbol ++ ['\n']) [] := by
  have hmissing : '>' ∉ symbol := fun hmem =>
    absurd (List.all_eq_true.mp (isPlainIdentifier_iff.mp hsymbol).2 _ hmem) (by decide)
  refine yields_linesWith_nil arrow_mem_initializerOpening ?_
  unfold Markup.exportLine
  simp only [List.mem_append, not_or]
  exact ⟨by decide, hmissing, by decide⟩

/-- A generated module has no initializer. -/
theorem yields_linesWith_generate (hlegible : markup.IsLegible)
    (hsymbol : isPlainIdentifier symbol = true) :
    Yields (linesWith initializerOpening) (markup.generate symbol) [] :=
  yields_generate (fun _ hline => yields_linesWith_nil arrow_mem_initializerOpening hline.arrow)
    hlegible (isPlainIdentifier_iff.mp hsymbol).2 (yields_linesWith_runtimeStatement markup)
    (yields_linesWith_exportLine hsymbol)

end Initializers

/-! ### Children -/

/-- A child whose module was generated from legible tags, under the symbol that its place asks
for. -/
structure IsOutline (binding : Text) (markup : Markup) (child : ChildCode) : Prop where
  legible : markup.IsLegible
  name : child.name.all isPlainCharacter = true
  code : child.code = markup.generate (OutputContract.generatedSymbol binding child.name)

namespace IsOutline

variable {binding : Text} {markup : Markup} (hbinding : isPlainIdentifier binding = true)

include hbinding

/-- The child can be cut. -/
theorem ofCode_eq {child : ChildCode} (h : IsOutline binding markup child) :
    ChildCut.ofCode {} (OutputContract.generatedSymbol binding child.name) child.code =
      .ok (markup.childCut (OutputContract.generatedSymbol binding child.name)) := by
  rw [h.code]
  exact Markup.ofCode_generate h.legible (isPlainIdentifier_generatedSymbol hbinding h.name)

/-- What a child is cut to. -/
theorem cut_eq {part : CutChild {} binding} (h : IsOutline binding markup part.child) :
    part.cut = markup.childCut (OutputContract.generatedSymbol binding part.child.name) :=
  Except.ok.inj (part.cut_eq.symm.trans (h.ofCode_eq hbinding))

/-- A child asks for its runtime names. -/
theorem requests_eq {part : CutChild {} binding} (h : IsOutline binding markup part.child) :
    part.requests = markup.runtimeNames.map runtimeBound := by
  rw [CutChild.requests, h.cut_eq hbinding]
  exact Markup.requests_childCut h.legible (isPlainIdentifier_generatedSymbol hbinding h.name)

/-- A child has no statements to move. -/
theorem statements_eq {child : ChildCode} (h : IsOutline binding markup child) {cut : ChildCut}
    (hcut : ChildCut.ofCode {} (OutputContract.generatedSymbol binding child.name) child.code =
      .ok cut) : cut.statements = [] := by
  obtain rfl := Except.ok.inj (hcut.symm.trans (h.ofCode_eq hbinding))
  exact Markup.statements_childCut h.legible (isPlainIdentifier_generatedSymbol hbinding h.name)

section Block

variable {names : List Text} {part : WrappedChild {} binding}
  (h : IsOutline binding markup part.child)
  (hstatements : ∀ statement ∈ part.runtimeStatements, IsRuntimeStatement statement)

include h hstatements

/-- The block of a child is a row of lines. -/
theorem linkedBlock_eq : part.linkedBlock names ++ ['\n'] =
    statementLines (blockLines binding part.child.name
      (OutputContract.generatedSymbol binding part.child.name)
      (part.runtimeStatements.map ImportStatement.render)
      (markup.declarations (Markup.linkedReference binding names)
        (OutputContract.generatedSymbol binding part.child.name))) := by
  have hrender : part.runtimeStatements.map (fun statement =>
      qualifyAll binding names statement.render) =
        part.runtimeStatements.map ImportStatement.render :=
    List.map_congr_left fun statement hstatement =>
      qualifyAll_of_no_equals ((hstatements statement hstatement).not_mem_render (by decide)
        (by decide))
  rw [WrappedChild.linkedBlock, hrender, h.cut_eq hbinding, qualifyAll_trimmedBody h.legible
    (isPlainIdentifier_generatedSymbol hbinding h.name), blockOf_eq_statementLines]

/-- A function that passes over tame lines sees the runtime import of a child and the opening of its
initializer. -/
theorem yields_linkedBlock {β : Type} {f : Text → List β} {image : Text → List β} {opening : List β}
    (htame : ∀ line, IsTame line → Yields f (line ++ ['\n']) [])
    (hrender : ∀ statement, IsRuntimeStatement statement →
      Yields f (statement.render ++ ['\n']) (image statement.render))
    (hopening : Yields f (openingLine binding part.child.name ++ ['\n']) opening) :
    Yields f (part.linkedBlock names ++ ['\n'])
      ((part.runtimeStatements.map ImportStatement.render).flatMap image ++ opening) := by
  have hall := (isPlainIdentifier_iff.mp hbinding).2
  have hsymbol := (isPlainIdentifier_iff.mp (isPlainIdentifier_generatedSymbol hbinding h.name)).2
  rw [h.linkedBlock_eq hbinding hstatements]
  refine yields_blockLines htame hall h.name hsymbol (fun text htext => ?_) hopening
    (Markup.isTame_of_mem_declarations h.legible hsymbol fun name hname => ?_)
  · obtain ⟨statement, hstatement, rfl⟩ := List.mem_map.mp htext
    exact hrender statement (hstatements statement hstatement)
  · exact Markup.all_linkedReference hall
      (isPlainIdentifier_iff.mp (h.legible.components name hname)).2

end Block

end IsOutline

/-! ### Parents with their children -/

/-- A parent and children whose modules were generated from legible tags, the children under the
symbols that their places ask for. -/
structure IsFamily (binding : Text) (markup : Markup) (parent : CompiledModule)
    (children : List ChildModule) : Prop where
  plain : isPlainIdentifier binding = true
  first : ∃ c rest, binding = c :: rest ∧ c.isLower = false
  legible : markup.IsLegible
  code : parent.code.toList = markup.generate binding
  outlines : ∀ child ∈ children, ∃ markup,
    IsOutline binding markup ⟨child.name.toList, child.module.code.toList⟩

/-- How a linked module is put together from the blocks of its children. -/
structure IsLinkedOutline (binding : Text) (markup : Markup) (children : List ChildModule)
    (text : Text) (parts : List (WrappedChild {} binding)) : Prop where
  children_eq : parts.map (·.child) =
    children.map fun child => ⟨child.name.toList, child.module.code.toList⟩
  text_eq : text = linkedText (Markup.linkedReference binding (childNames children)) markup binding
    (parts.map (WrappedChild.linkedBlock (childNames children)))
  statements : ∀ part ∈ parts, ∀ statement ∈ part.runtimeStatements, IsRuntimeStatement statement
  run : ∃ scope, RunInvariant
    (markup.runtimeNames.map runtimeBound ++ markup.runtimeNames.map runtimeBound)
    (parts.flatMap (·.requests))
    ⟨scope, (parts.flatMap WrappedChild.runtimeStatements).flatMap ImportStatement.boundNames⟩

namespace IsFamily

variable {binding : Text} {markup : Markup} {parent out : CompiledModule}
  {children : List ChildModule} {accepts : Text → Bool} (h : IsFamily binding markup parent children)

include h

/-- The runtime import of the parent is found. -/
theorem exists_runtimeImport_eq : ∃ runtime,
    OutputContract.runtimeImport {} parent.code.toList = .ok runtime ∧
      runtime.place.before = statementLines [Markup.headerLine] ∧
      runtime.place.text = markup.runtimeStatement ∧ runtime.identifiers = markup.runtimeNames := by
  rw [h.code]
  exact ⟨_, Markup.runtimeImport_generate h.legible h.plain, rfl, rfl, rfl⟩

/-- The default export of the parent is found. -/
theorem defaultExport_eq : OutputContract.defaultExport parent.code.toList =
    .ok ⟨⟨markup.beforeExport id binding, Markup.exportLine binding, ['\n'], binding⟩, binding⟩ := by
  rw [h.code]
  exact Markup.defaultExport_generate h.legible h.plain

/-- The imports of the parent bind its runtime names. -/
theorem importedNames_eq {runtime : RuntimeImport}
    (hruntime : runtime.place.text = markup.runtimeStatement) :
    LinkedCode.importedNames runtime parent.code.toList =
      markup.runtimeNames.map runtimeBound ++ markup.runtimeNames.map runtimeBound := by
  have hnames := namesIn_runtimeStatement markup []
  rw [List.append_nil] at hnames
  have htexts := (yields_staticImportTexts_generate h.legible h.plain).eq
    ImportStatement.staticImportTexts_nil
  rw [LinkedCode.importedNames, hruntime, h.code, htexts, List.flatMap_cons, List.flatMap_singleton,
    hnames, namesIn_runtimeStatement]

/-- A child asks for runtime names. -/
theorem exists_requests_eq {part : CutChild {} binding}
    (hpart : part.child ∈ children.map fun child =>
      (⟨child.name.toList, child.module.code.toList⟩ : ChildCode)) :
    ∃ markup : Markup, part.requests = markup.runtimeNames.map runtimeBound := by
  obtain ⟨child, hchild, heq⟩ := List.mem_map.mp hpart
  obtain ⟨own, hown⟩ := h.outlines child hchild
  rw [heq] at hown
  exact ⟨own, hown.requests_eq h.plain⟩

/-- The statement in the block of a child binds runtime names: only what was asked for is
selected. -/
theorem isRuntimeStatement_of_run {known : List BoundName} {parts : List (WrappedChild {} binding)}
    {scope : ImportScope} {part : WrappedChild {} binding} {statement : ImportStatement}
    (hparts : parts.map (·.child) =
      children.map fun child => ⟨child.name.toList, child.module.code.toList⟩)
    (hrun : RunInvariant known (parts.flatMap (·.requests))
      ⟨scope, (parts.flatMap WrappedChild.runtimeStatements).flatMap ImportStatement.boundNames⟩)
    (hpart : part ∈ parts) (hstatement : statement ∈ part.runtimeStatements) :
    IsRuntimeStatement statement := by
  have hmem {other : WrappedChild {} binding} (hother : other ∈ parts) :
      other.child ∈ children.map fun child =>
        (⟨child.name.toList, child.module.code.toList⟩ : ChildCode) :=
    hparts ▸ List.mem_map_of_mem hother
  have hsource : statement.source = Markup.runtimeSource := by
    obtain ⟨child, hchild, heq⟩ := List.mem_map.mp (hmem hpart)
    obtain ⟨own, hown⟩ := h.outlines child hchild
    rw [heq] at hown
    unfold WrappedChild.runtimeStatements at hstatement
    split at hstatement
    · contradiction
    · rw [List.mem_singleton.mp hstatement, WrappedChild.runtime, hown.cut_eq h.plain,
        Markup.runtimeStatement_childCut]
  have hwritten : statement ∈ part.written := List.mem_append_right _ hstatement
  refine ⟨hsource, WrappedChild.bindings_ne_nil_of_mem_written hwritten, fun bound hbound => ?_⟩
  have hselected := hrun.requested.subset (List.mem_flatMap.mpr ⟨statement,
    List.mem_flatMap.mpr ⟨part, hpart, hstatement⟩, List.mem_map_of_mem hbound⟩)
  obtain ⟨asking, hasking, hrequest⟩ := List.mem_flatMap.mp hselected
  obtain ⟨asked, hasked⟩ : ∃ asked : Markup,
      asking.requests = asked.runtimeNames.map runtimeBound := h.exists_requests_eq (hmem hasking)
  rw [hasked] at hrequest
  obtain ⟨name, hname, hbinds⟩ := List.mem_map.mp hrequest
  obtain ⟨hlocal, -, himported⟩ := BoundName.mk.inj hbinds
  rw [← himported, ← hlocal]
  exact ⟨rfl, Markup.plain_of_mem_runtimeNames hname⟩

/-- Linking finds nothing wrong. -/
theorem links : parent.Links accepts {} children := by
  by_cases hnil : children = []
  · rw [hnil]
    exact CompiledModule.links_nil
  obtain ⟨runtime, hruntime, hbefore, htext, -⟩ := h.exists_runtimeImport_eq
  refine (CompiledModule.links_iff hnil).mpr ⟨runtime, _, hruntime, h.defaultExport_eq, ?_, ?_, ?_, ?_⟩
  · rw [hbefore, htext]
    exact ⟨['\n'] ++ statementLines (markup.behindLines id binding), by
      simp only [Markup.beforeExport, List.append_assoc]⟩
  · rintro code hcode
    obtain ⟨child, hchild, rfl⟩ := List.mem_map.mp hcode
    obtain ⟨own, hown⟩ := h.outlines child hchild
    exact ⟨⟨_, _, hown.ofCode_eq h.plain⟩, rfl⟩
  · rintro part hpart request hrequest bound hbound
    obtain ⟨own, hown⟩ := h.exists_requests_eq hpart
    rw [h.importedNames_eq htext, ← List.map_append] at hbound
    exact eq_of_mem_runtimeBound (List.mem_of_find?_eq_some hbound) (hown ▸ hrequest)
      (by simpa using List.find?_some hbound)
  · rintro first second hfirst hsecond request hrequest other hother hname
    obtain ⟨own, hown⟩ := h.exists_requests_eq hfirst
    obtain ⟨others, hothers⟩ := h.exists_requests_eq hsecond
    exact eq_of_mem_runtimeBound (hown ▸ hrequest) (hothers ▸ hother) hname

/-- The linked module is put together from blocks. -/
theorem exists_isLinkedOutline (hne : children ≠ [])
    (hsplice : CompiledModule.splice accepts {} parent children = .ok out) :
    ∃ parts, IsLinkedOutline binding markup children out.code.toList parts := by
  obtain ⟨runtime, exported, parts, blocks, final, hstatements, hwrap, hhoisted, hrun⟩ :=
    exists_wrapped_of_splice hne hsplice
  obtain ⟨found, hfound, -, htext, -⟩ := h.exists_runtimeImport_eq
  obtain rfl := Except.ok.inj (hfound.symm.trans hstatements.parent_runtime)
  obtain rfl := Except.ok.inj (h.defaultExport_eq.symm.trans hstatements.parent_export)
  have hall := (isPlainIdentifier_iff.mp h.plain).2
  have hmoved : ∀ part ∈ parts, part.moved = [] := by
    have hnone := LinkState.hoisted_of_wrapChildren (fun code hcode cut hcut => by
      obtain ⟨child, hchild, rfl⟩ := List.mem_map.mp hcode
      obtain ⟨own, hown⟩ := h.outlines child hchild
      exact hown.statements_eq h.plain hcut) hwrap
    rw [hhoisted] at hnone
    intro part hpart
    exact List.map_eq_nil_iff.mp (List.flatMap_eq_nil_iff.mp hnone part hpart)
  have hwritten : WrappedChild.allWritten parts = parts.flatMap WrappedChild.runtimeStatements :=
    List.flatMap_congr fun part hpart => by
      rw [WrappedChild.written, hmoved part hpart]
      rfl
  rw [h.importedNames_eq htext, hwritten] at hrun
  refine ⟨parts, hstatements.children_eq, ?_, ?_, final.scope, hrun⟩
  · have hlines : (parts.flatMap fun part => part.moved.map fun moved =>
        qualifyAll binding (childNames children) moved.text) = [] :=
      List.flatMap_eq_nil_iff.mpr fun part hpart => by rw [hmoved part hpart]; rfl
    rw [hstatements.code, hlines, qualifyAll_beforeExport h.legible hall, qualifyAll_exportLine hall]
    rfl
  · intro part hpart statement hstatement
    exact h.isRuntimeStatement_of_run hstatements.children_eq hrun hpart hstatement

end IsFamily

/-! ### What a linked module holds -/

/-- A written runtime import binds what it was written for, whatever follows. -/
theorem IsRuntimeStatement.namesIn_render {statement : ImportStatement}
    (h : IsRuntimeStatement statement) (back : Text) :
    ImportStatement.namesIn (statement.render ++ back) = statement.boundNames := by
  rw [ImportStatement.namesIn, h.parse?_render back, Option.toList_some, List.flatMap_singleton]

/-- The line that opens an initializer is a single line. -/
theorem lineFeed_not_mem_openingLine {binding name : Text}
    (hbinding : isPlainIdentifier binding = true)
    (hname : name.all isPlainCharacter = true) : '\n' ∉ openingLine binding name := by
  have hmissing : '\n' ∉ name := fun hmem => absurd (List.all_eq_true.mp hname _ hmem) (by decide)
  unfold openingLine
  simp only [List.mem_append, List.mem_cons, not_or]
  exact ⟨no_lineFeed hbinding, by decide, hmissing, by decide⟩

/-- No import starts in the line that opens an initializer. -/
theorem startsWith_openingLine {binding : Text} (hbinding : isPlainIdentifier binding = true)
    (hfirst : ∃ c rest, binding = c :: rest ∧ c.isLower = false) (name : Text) :
    startsWith "import".toList (ImportStatement.skipSpaces (openingLine binding name)) = false := by
  obtain ⟨c, rest, rfl, hlower⟩ := hfirst
  have hc : isPlainCharacter c = true :=
    (Bool.and_eq_true_iff.mp (isPlainIdentifier_iff.mp hbinding).2).1
  have hspace : isSpaceOrTab c = false := by
    refine Bool.eq_false_iff.mpr fun hspace => ?_
    have hchar : c = ' ' ∨ c = '\t' := by simpa [isSpaceOrTab] using hspace
    rcases hchar with rfl | rfl <;> exact absurd hc (by decide)
  have hletter : 'i' ≠ c := by
    rintro rfl
    contradiction
  rw [openingLine, List.cons_append, ImportStatement.skipSpaces, List.dropWhile_cons, hspace]
  simp [startsWith, dropWord?, hletter]

/-- The runtime import of a parent and those in the blocks of its children, each with the end of its
line. -/
def importTexts {binding : Text} (markup : Markup) (parts : List (WrappedChild {} binding)) :
    List Text :=
  (markup.runtimeStatement ++ ['\n']) :: (parts.flatMap WrappedChild.runtimeStatements).map
    fun statement => statement.render ++ ['\n']

namespace IsLinkedOutline

variable {binding : Text} {markup : Markup} {parent : CompiledModule} {children : List ChildModule}
  {text : Text} {parts : List (WrappedChild {} binding)}
  (hfamily : IsFamily binding markup parent children)
  (h : IsLinkedOutline binding markup children text parts)

include hfamily h

/-- A function that passes over tame lines sees the runtime imports and the openings of the
initializers. -/
theorem yields {β : Type} {f : Text → List β} {runtime exported : List β} {image : Text → List β}
    {opening : WrappedChild {} binding → List β}
    (htame : ∀ line, IsTame line → Yields f (line ++ ['\n']) [])
    (hruntime : Yields f (markup.runtimeStatement ++ ['\n']) runtime)
    (hexported : Yields f (Markup.exportLine binding ++ ['\n']) exported)
    (hrender : ∀ statement, IsRuntimeStatement statement →
      Yields f (statement.render ++ ['\n']) (image statement.render))
    (hopening : ∀ part : WrappedChild {} binding, part.child.name.all isPlainCharacter = true →
      Yields f (openingLine binding part.child.name ++ ['\n']) (opening part)) :
    Yields f text (runtime ++ parts.flatMap (fun part =>
      (part.runtimeStatements.map ImportStatement.render).flatMap image ++
        opening part) ++ exported) := by
  have hall := (isPlainIdentifier_iff.mp hfamily.plain).2
  rw [h.text_eq]
  refine yields_linkedText htame hfamily.legible hall hruntime hexported (fun name hname =>
    Markup.all_linkedReference hall
      (isPlainIdentifier_iff.mp (hfamily.legible.components name hname)).2) fun part hpart => ?_
  obtain ⟨child, hchild, heq⟩ := List.mem_map.mp (h.children_eq ▸ List.mem_map_of_mem hpart)
  obtain ⟨own, hown⟩ := hfamily.outlines child hchild
  rw [heq] at hown
  exact hown.yields_linkedBlock hfamily.plain (h.statements part hpart) htame hrender
    (hopening part hown.name)

/-- The static imports of a linked module are the runtime import of the parent and those in the
blocks. -/
theorem yields_staticImportTexts :
    Yields ImportStatement.staticImportTexts text (importTexts markup parts) := by
  have hyields : Yields ImportStatement.staticImportTexts text ([markup.runtimeStatement ++ ['\n']] ++
      parts.flatMap (fun part => (part.runtimeStatements.map ImportStatement.render).flatMap
        (fun line => [line ++ ['\n']]) ++ []) ++ []) :=
    h.yields hfamily (fun _ hline => hline.yields_staticImportTexts) (yields_runtimeStatement markup)
      (yields_exportLine hfamily.plain)
      (fun statement hstatement => hstatement.yields_staticImportTexts) fun part hname =>
        ImportStatement.yields_staticImportTexts_nil (lineFeed_not_mem_openingLine hfamily.plain hname)
          (startsWith_openingLine hfamily.plain hfamily.first part.child.name)
  simpa only [importTexts, ← List.map_eq_flatMap, List.map_map, List.map_flatMap, List.append_nil,
    List.singleton_append, Function.comp_def] using hyields

/-- The initializers of a linked module are those of its children, in their order. -/
theorem linesWith_eq : linesWith initializerOpening text =
    children.map fun child => openingLine binding child.name.toList := by
  have hopening (part : WrappedChild {} binding) : occursIn initializerOpening
      (openingLine binding part.child.name) = true := by
    have hword := occursIn_append (binding ++ '.' :: part.child.name) initializerOpening []
    rwa [List.append_nil, List.append_assoc, List.cons_append] at hword
  have hyields : Yields (linesWith initializerOpening) text ([] ++ parts.flatMap (fun part =>
      (part.runtimeStatements.map ImportStatement.render).flatMap (fun _ => []) ++
        [openingLine binding part.child.name]) ++ []) :=
    h.yields hfamily (fun line hline => yields_linesWith_nil arrow_mem_initializerOpening hline.arrow)
      (yields_linesWith_runtimeStatement markup) (yields_linesWith_exportLine hfamily.plain)
      (fun statement hstatement => yields_linesWith_nil arrow_mem_initializerOpening
        (hstatement.not_mem_render (by decide) (by decide))) fun part hname =>
          yields_linesWith_singleton (lineFeed_not_mem_openingLine hfamily.plain hname) (hopening part)
  have hchildren : parts.map (fun part => openingLine binding part.child.name) =
      children.map fun child => openingLine binding child.name.toList := by
    have hmap :=
      congrArg (List.map fun code : ChildCode => openingLine binding code.name) h.children_eq
    simpa only [List.map_map, Function.comp_def] using hmap
  have hnone (texts : List Text) : texts.flatMap (fun _ => ([] : List Text)) = [] :=
    List.flatMap_eq_nil_iff.mpr fun _ _ => rfl
  rw [hyields.eq (linesWith_nil arrow_mem_initializerOpening), ← hchildren, List.map_eq_flatMap]
  simp only [hnone, List.nil_append, List.append_nil]

omit hfamily in
/-- What the static imports of a linked module bind. -/
theorem flatMap_namesIn : (importTexts markup parts).flatMap ImportStatement.namesIn =
    markup.runtimeNames.map runtimeBound ++
      (parts.flatMap WrappedChild.runtimeStatements).flatMap ImportStatement.boundNames := by
  rw [importTexts, List.flatMap_cons, namesIn_runtimeStatement, List.flatMap_map]
  refine congrArg (_ ++ ·) (List.flatMap_congr fun statement hstatement => ?_)
  obtain ⟨part, hpart, hmem⟩ := List.mem_flatMap.mp hstatement
  exact (h.statements part hpart statement hmem).namesIn_render ['\n']

omit hfamily in
/-- A binding that the parent or a child asks for is bound by one static import. -/
theorem exists_filter_binds_eq (bound : BoundName)
    (hbound : bound ∈ markup.runtimeNames.map runtimeBound ∨
      ∃ part ∈ parts, bound ∈ part.requests) :
    ∃ found, (importTexts markup parts).filter (ImportStatement.binds bound.localName) = [found] ∧
      bound ∈ ImportStatement.namesIn found := by
  obtain ⟨scope, hrun⟩ := h.run
  refine ImportStatement.exists_filter_binds_eq bound ?_ ?_ <;> rw [h.flatMap_namesIn]
  · rw [List.map_append, List.nodup_append', map_localName_runtimeBound]
    refine ⟨Markup.nodup_runtimeNames markup, hrun.once, fun name hname hwritten => ?_⟩
    obtain ⟨found, hfound, rfl⟩ := List.mem_map.mp hwritten
    exact hrun.not_parent found hfound _
      (List.mem_append_left _ (List.mem_map_of_mem (f := runtimeBound) hname)) rfl
  · rcases hbound with hparent | ⟨part, hpart, hrequest⟩
    · exact List.mem_append_left _ hparent
    · have hagrees := hrun.agrees bound (List.mem_flatMap.mpr ⟨part, hpart, hrequest⟩)
      rcases hrun.origin _ bound hagrees with hparent | hselected
      · exact List.mem_append_left _ (or_self_iff.mp (List.mem_append.mp hparent))
      · exact List.mem_append_right _ hselected

end IsLinkedOutline

/-! ### What comes out of linking -/

namespace IsFamily

variable {binding : Text} {markup : Markup} {parent out : CompiledModule}
  {children : List ChildModule} {accepts : Text → Bool} (h : IsFamily binding markup parent children)
  (hsplice : CompiledModule.splice accepts {} parent children = .ok out)

include h hsplice

/-- Every runtime name of the parent or of a child is bound by one static import, whatever is put
behind the linked module. -/
theorem exists_yields_staticImportTexts :
    ∃ texts, Yields ImportStatement.staticImportTexts out.code.toList texts ∧
      ∀ module ∈ parent :: children.map ChildModule.module, ∃ runtime : RuntimeImport,
        OutputContract.runtimeImport {} module.code.toList = .ok runtime ∧
        ∀ name ∈ runtime.identifiers, ∃ text, texts.filter (ImportStatement.binds name) = [text] ∧
          runtimeBound name ∈ ImportStatement.namesIn text := by
  obtain ⟨runtime, hruntime, -, -, hidentifiers⟩ := h.exists_runtimeImport_eq
  by_cases hnil : children = []
  · subst hnil
    obtain rfl := Except.ok.inj hsplice
    refine ⟨_, h.code ▸ yields_staticImportTexts_generate h.legible h.plain,
      fun module hmodule => ?_⟩
    obtain rfl := List.mem_singleton.mp hmodule
    refine ⟨runtime, hruntime, fun name hname => ?_⟩
    have hbound : runtimeBound name ∈ markup.runtimeNames.map runtimeBound :=
      List.mem_map_of_mem (hidentifiers ▸ hname)
    have hnames : [markup.runtimeStatement ++ ['\n']].flatMap ImportStatement.namesIn =
        markup.runtimeNames.map runtimeBound := by
      rw [List.flatMap_singleton, namesIn_runtimeStatement]
    refine ImportStatement.exists_filter_binds_eq (runtimeBound name) ?_ (hnames ▸ hbound)
    rw [hnames, map_localName_runtimeBound]
    exact Markup.nodup_runtimeNames markup
  · obtain ⟨parts, hlinked⟩ := h.exists_isLinkedOutline hnil hsplice
    refine ⟨_, hlinked.yields_staticImportTexts h, fun module hmodule => ?_⟩
    rcases List.mem_cons.mp hmodule with rfl | hchild
    · exact ⟨runtime, hruntime, fun name hname => hlinked.exists_filter_binds_eq (runtimeBound name)
        (.inl (List.mem_map_of_mem (hidentifiers ▸ hname)))⟩
    · obtain ⟨child, hmem, rfl⟩ := List.mem_map.mp hchild
      obtain ⟨own, hown⟩ := h.outlines child hmem
      have hfound := Markup.runtimeImport_generate hown.legible
        (isPlainIdentifier_generatedSymbol h.plain hown.name)
      rw [← hown.code] at hfound
      have hcode : (⟨child.name.toList, child.module.code.toList⟩ : ChildCode) ∈
          parts.map (·.child) := hlinked.children_eq ▸ List.mem_map_of_mem hmem
      obtain ⟨part, hpart, heq⟩ := List.mem_map.mp hcode
      have hrequests := (heq ▸ hown : IsOutline binding own part.child).requests_eq h.plain
      refine ⟨_, hfound, fun name hname => ?_⟩
      have hasked : runtimeBound name ∈ part.requests := hrequests ▸ List.mem_map_of_mem hname
      exact hlinked.exists_filter_binds_eq (runtimeBound name) (.inr ⟨part, hpart, hasked⟩)

/-- A linked module has the initializers of its children, in their order. -/
theorem linesWith_eq : linesWith initializerOpening out.code.toList =
    children.map fun child => openingLine binding child.name.toList := by
  by_cases hnil : children = []
  · subst hnil
    obtain rfl := Except.ok.inj hsplice
    rw [h.code]
    exact (yields_linesWith_generate h.legible h.plain).eq (linesWith_nil arrow_mem_initializerOpening)
  · obtain ⟨parts, hlinked⟩ := h.exists_isLinkedOutline hnil hsplice
    exact hlinked.linesWith_eq h

/-- A linked module is the qualified form of some text. -/
theorem exists_qualifyAll_eq (hne : children ≠ []) :
    ∃ merged, out.code.toList = qualifyAll binding (childNames children) merged := by
  obtain ⟨linked, hlink, -, rfl⟩ := (CompiledModule.splice_eq_ok_iff hne).mp hsplice
  obtain ⟨runtime, exported, blocks, final, -, hexported, -, -, rfl⟩ :=
    LinkedCode.link_eq_ok_iff.mp hlink
  obtain rfl := Except.ok.inj (h.defaultExport_eq.symm.trans hexported)
  exact ⟨_, String.toList_ofList⟩

end IsFamily

end OutlineCompiler

end InlineComponents
