import InlineComponents.Proofs.Extraction.Components
import InlineComponents.Proofs.Extraction.SyntheticName
import InlineComponents.Proofs.OutlineCompiler.Linking
import InlineComponents.Proofs.Plugin.FailedComponent
import InlineComponents.Proofs.Styles.AssetImport
import InlineComponents.Proofs.Styles.AssetPath

/-!
# A plugin with the compiler of outlines

The compiler names a module after its file, and the file of an inline component is named after its
parent's. So the compiler gives each component the symbol that linking asks for, and what it
generates for a source without script imports can always be linked. A module comes out unless the
syntax check refuses it, and then its imports, initializers and instantiations are in order.
-/

namespace InlineComponents

open Text OutlineCompiler

/-! ### The modules of a unit -/

/-- What the compiler of outlines makes of a source. -/
theorem OutlineCompiler.code_of_compile {source : String} {options : CompileOptions}
    {module : CompiledModule} (h : compile none source options = .ok module) :
    module.code.toList =
      (Markup.ofSource source.toList).generate (componentName options.filename) := by
  unfold compile at h
  simp only at h
  split at h
  · contradiction
  · rw [← Except.ok.inj h, String.toList_ofList]
    rfl

/-- A source without an error block compiles. -/
theorem OutlineCompiler.exists_compile_eq_ok {source : String} (options : CompileOptions)
    (h : occursIn errorBlock source.toList = false) :
    ∃ module, compile none source options = .ok module := by
  unfold compile
  simp only [h]
  exact ⟨_, rfl⟩

/-- Names that are valid in a marker can stand in identifiers. -/
theorem Marker.all_of_isValidName {name : Text} (h : isValidName name = true) :
    name.all isPlainCharacter = true :=
  List.all_eq_true.mpr fun c hc => by simp [isPlainCharacter, isAlphanum_of_isValidName h c hc]

/-- A component that compiled is a child with its name and its module. -/
theorem ComponentCompilation.child?_eq_some_iff {compilation : ComponentCompilation}
    {child : ChildModule} : compilation.child? = some child ↔
      child.name = compilation.component.name ∧ compilation.outcome = .ok child.module := by
  obtain ⟨name, module⟩ := child
  rw [child?]
  split
  · rename_i compiled hcompiled
    rw [hcompiled, Option.some_inj, ChildModule.mk.injEq, Except.ok.injEq]
    exact and_congr_left' eq_comm
  · rename_i error herror
    simp [herror]

namespace Plugin

variable {plugin : Plugin} {code id : String} {extraction : Extraction} {parent : CompiledModule}
  {stem : Text}

/-- A linked child is a component that compiled. -/
theorem exists_of_mem_children {components : List InlineComponent} {child : ChildModule}
    (h : child ∈ (plugin.unitOf id parent components).children) :
    ∃ component ∈ components, child.name = component.name ∧
      (plugin.compilation id component).outcome = .ok child.module := by
  rw [UnitCompilation.children, unitOf, List.filterMap_map] at h
  obtain ⟨component, hcomponent, hchild⟩ := List.mem_filterMap.mp h
  exact ⟨component, hcomponent, ComponentCompilation.child?_eq_some_iff.mp hchild⟩

/-- The children of a unit have different names when its components do. -/
theorem nodup_children {components : List InlineComponent}
    (h : (components.map (·.name)).Nodup) :
    ((plugin.unitOf id parent components).children.map (·.name)).Nodup := by
  rw [UnitCompilation.children, unitOf, List.filterMap_map]
  refine List.pairwise_map.mpr (List.Pairwise.filterMap _ ?_ (List.pairwise_map.mp h))
  intro first second hne child hchild other hother
  rw [(ComponentCompilation.child?_eq_some_iff.mp hchild).1,
    (ComponentCompilation.child?_eq_some_iff.mp hother).1]
  exact hne

/-- The compiler of outlines and the plugin agree on names. -/
theorem isFamily_unitOf (hcompiler : plugin.compiler = withSymbol none)
    (hhandles : plugin.handles id = true)
    (hstem : (FilePath.ofString id).stem? = some stem) (hplain : isPlainIdentifier stem = true)
    (hextract : Extraction.extract code (.ofString id) = .ok extraction)
    (himports : ∀ source ∈ extraction.source :: extraction.components.map (·.body),
      Markup.phrases scriptImport source.toList = [])
    (hparent : plugin.compiler.compile extraction.source (plugin.unitOptions id) = .ok parent) :
    IsFamily (componentName (.ofString id)) (.ofSource extraction.source.toList) parent
      (plugin.unitOf id parent extraction.components).children := by
  obtain ⟨c, rest, -, hname, hidentifier, hlower⟩ := exists_componentName_eq hstem hplain
  have hcompile : plugin.compiler.compile = OutlineCompiler.compile none := by rw [hcompiler]; rfl
  have hfile : (plugin.unitOptions id).filename = .ofString id := rfl
  have hcode : parent.code.toList = (Markup.ofSource extraction.source.toList).generate
      (componentName (.ofString id)) := by
    rw [hcompile] at hparent
    rw [code_of_compile hparent, hfile]
  refine ⟨hidentifier, ⟨_, rest, hname, hlower⟩,
    Markup.isLegible_ofSource (himports _ List.mem_cons_self), hcode, fun child hchild => ?_⟩
  obtain ⟨component, hcomponent, hname, hmodule⟩ := exists_of_mem_children hchild
  have hvalid := Extraction.isValidName_of_mem hextract hcomponent
  have hextension := PluginOptions.isSome_of_handlesExtension
    (Bool.and_eq_true_iff.mp hhandles).2
  refine ⟨.ofSource component.body.toList, Markup.isLegible_ofSource (himports _
    (List.mem_cons_of_mem _ (List.mem_map_of_mem hcomponent))),
    hname ▸ Marker.all_of_isValidName hvalid, ?_⟩
  rw [compilation, hcompile] at hmodule
  have hcode := code_of_compile hmodule
  rw [CompileOptions.forFile, Extraction.syntheticFilename_of_mem hextract hcomponent,
    componentName_syntheticFilename hextension
      (Marker.not_mem_of_isValidName hvalid (by decide)), ← hname] at hcode
  exact hcode

end Plugin

/-! ### What comes out -/

/-- How the module that comes out for a unit agrees with the modules in the unit, given the symbol
of the parent and the linked module in front of the import of the styles. -/
structure UnitCompilation.Agrees (unit : UnitCompilation) (binding linked code : Text) : Prop where
  /-- Every runtime name that the parent or a linked child imports is bound by exactly one import
  statement, and stands for what it is in the runtime module. -/
  imports : ∀ module ∈ unit.parent :: unit.children.map ChildModule.module,
    ∃ runtime : RuntimeImport, OutputContract.runtimeImport {} module.code.toList = .ok runtime ∧
      ∀ name ∈ runtime.identifiers, ∃ statement,
        (ImportStatement.staticImportTexts code).filter (ImportStatement.binds name) = [statement] ∧
          runtimeBound name ∈ ImportStatement.namesIn statement
  /-- The initializers are those of the linked children, in source order. -/
  initializers : linesWith initializerOpening linked =
    unit.children.map fun child => openingLine binding child.name.toList
  /-- In all that comes out, the import of the styles included, no other line ends in what opens an
  initializer. -/
  openings : linesEnding initializerOpening code =
    unit.children.map fun child => openingLine binding child.name.toList
  /-- No two of them are for one name. -/
  distinct : (unit.children.map (·.name)).Nodup
  /-- No instantiation of a linked child is left in the linked module, not even in part. -/
  sites : ∀ front back site after, code = front ++ back →
    Instantiation.read? back = some (site, after) → site.name ∈ childNames unit.children →
      linked <+: front

/-- The text of an optional import of an asset binds no name. -/
theorem StyleAsset.filter_binds_eq_nil (asset : Option StyleAsset) (name : Text) :
    (ImportStatement.staticImportTexts
      (asset.elim "" StyleAsset.importStatement).toList).filter (ImportStatement.binds name) = [] := by
  cases asset with
  | none =>
    change (ImportStatement.staticImportTexts []).filter _ = []
    rw [ImportStatement.staticImportTexts_nil, List.filter_nil]
  | some asset =>
    refine List.filter_eq_nil_iff.mpr fun text htext => ?_
    rw [ImportStatement.binds, asset.namesIn_of_mem_staticImportTexts htext, List.any_nil]
    exact Bool.false_ne_true

/-- No line in the text of an optional import of an asset ends in what opens an initializer. -/
theorem StyleAsset.linesEnding_append (asset : Option StyleAsset) (linked : Text) :
    linesEnding initializerOpening
      (linked ++ (asset.elim "" StyleAsset.importStatement).toList) =
        linesEnding initializerOpening linked := by
  cases asset with
  | none =>
    change linesEnding initializerOpening (linked ++ []) = _
    rw [List.append_nil]
  | some asset =>
    have hends : ¬ initializerOpening <:+ asset.importLine := by
      rintro ⟨front, hfront⟩
      have hbrace : initializerOpening.getLast? = some '\x7b' := by decide
      have hlast := congrArg List.getLast? hfront
      rw [asset.getLast?_importLine, List.getLast?_append, hbrace, Option.some_or] at hlast
      exact absurd hlast (by decide)
    have hline : linesEnding initializerOpening asset.importLine = [] :=
      linesEnding_eq_nil asset.lineFeed_not_mem_importLine hends
    have hnil : linesEnding initializerOpening [] = [] := by decide
    change linesEnding initializerOpening (linked ++ asset.importStatement.toList) = _
    rw [asset.toList_importStatement, List.singleton_append, linesEnding_append_cons,
      linesEnding_append_cons, hline, hnil, List.nil_append, List.append_nil]

/-- An instantiation does not reach into an optional import of an asset. -/
theorem StyleAsset.closed_elim (asset : Option StyleAsset) :
    Instantiation.Closed (asset.elim "" StyleAsset.importStatement).toList := by
  cases asset with
  | none => exact Instantiation.closed_of_isBlankText rfl
  | some asset => exact asset.closed_importStatement

/-- Only a syntax check that refuses a text keeps a module from being parsed. -/
theorem CompiledModule.exists_of_splice_eq_unparsable {accepts : Text → Bool}
    {contract : OutputContract} {parent : CompiledModule} {children : List ChildModule}
    (h : splice accepts contract parent children = .error .unparsableOutput) :
    ∃ text, accepts text = false := by
  unfold splice at h
  split at h
  · contradiction
  · rcases bind_eq_error_iff.mp h with hlink | ⟨linked, -, hcheck⟩
    · exact absurd hlink LinkedCode.link_ne_unparsable
    · simp only at hcheck
      split at hcheck
      · contradiction
      · rename_i haccepts
        exact ⟨_, Bool.eq_false_iff.mpr haccepts⟩

/-- A family that was linked agrees with the module that comes out. -/
theorem OutlineCompiler.IsFamily.agrees {binding : Text} {markup : Markup} {accepts : Text → Bool}
    {unit : UnitCompilation} {linked : CompiledModule}
    (h : IsFamily binding markup unit.parent unit.children)
    (hsplice : CompiledModule.splice accepts {} unit.parent unit.children = .ok linked)
    (hnodup : (unit.children.map (·.name)).Nodup) (asset : Option StyleAsset) :
    unit.Agrees binding linked.code.toList
      (linked.code ++ asset.elim "" StyleAsset.importStatement).toList := by
  obtain ⟨texts, htexts, hmodules⟩ := h.exists_yields_staticImportTexts hsplice
  refine ⟨fun module hmodule => ?_, h.linesWith_eq hsplice, ?_, hnodup, ?_⟩
  · obtain ⟨runtime, hruntime, hnames⟩ := hmodules module hmodule
    refine ⟨runtime, hruntime, fun name hname => ?_⟩
    rw [String.toList_append, htexts, List.filter_append, StyleAsset.filter_binds_eq_nil,
      List.append_nil]
    exact hnames name hname
  · rw [String.toList_append, StyleAsset.linesEnding_append, linesEnding_eq_filter,
      h.linesWith_eq hsplice, List.filter_eq_self]
    intro line hline
    obtain ⟨child, -, rfl⟩ := List.mem_map.mp hline
    exact decide_eq_true ⟨binding ++ '.' :: child.name.toList, by simp [openingLine]⟩
  · intro front back site after hcode hread hname
    have hne : unit.children ≠ [] := by
      intro hnil
      rw [hnil] at hname
      contradiction
    obtain ⟨merged, hmerged⟩ := h.exists_qualifyAll_eq hsplice hne
    rw [String.toList_append, hmerged] at hcode
    rw [hmerged]
    exact Instantiation.prefix_of_read?_qualifyAll h.plain (StyleAsset.closed_elim asset) hcode hread
      hname

namespace Plugin

/-- A plugin with the compiler of outlines fails on no module but for the syntax check, and what
comes out agrees with the modules that it was linked from. -/
theorem transform_agrees {plugin : Plugin} {code id : String} {extraction : Extraction} {stem : Text}
    (hcompiler : plugin.compiler = withSymbol none) (hcontract : plugin.contract = {})
    (hpreprocess : plugin.options.preprocess = none) (hhandles : plugin.handles id = true)
    (hstem : (FilePath.ofString id).stem? = some stem) (hplain : isPlainIdentifier stem = true)
    (hextract : Extraction.extract code (.ofString id) = .ok extraction)
    (himports : ∀ source ∈ extraction.source :: extraction.components.map (·.body),
      Markup.phrases scriptImport source.toList = [])
    (herror : occursIn errorBlock extraction.source.toList = false) :
    ∃ unit, (UnitCompilation.compile plugin.compiler extraction (plugin.unitOptions id)).result =
        .ok unit ∧
      (((plugin.transform code id).result = .error (.contract id .unparsableOutput) ∧
          ∃ text, plugin.acceptsScript text = false) ∨
        ∃ transformation linked, (plugin.transform code id).result = .ok (some transformation) ∧
          transformation.output.code =
            linked ++ transformation.asset.elim "" StyleAsset.importStatement ∧
          unit.Agrees (componentName (.ofString id)) linked.toList
            transformation.output.code.toList) := by
  obtain ⟨parent, hparent⟩ : ∃ parent,
      plugin.compiler.compile extraction.source (plugin.unitOptions id) = .ok parent := by
    rw [hcompiler]
    exact exists_compile_eq_ok _ herror
  refine ⟨plugin.unitOf id parent extraction.components,
    UnitCompilation.result_compile_eq_ok_iff.mpr ⟨parent, hparent, rfl⟩, ?_⟩
  have hfamily := isFamily_unitOf hcompiler hhandles hstem hplain hextract himports hparent
  have hnodup : ((plugin.unitOf id parent extraction.components).children.map (·.name)).Nodup :=
    nodup_children (Extraction.nodup_names hextract)
  have hresult := result_transform hhandles hpreprocess hextract
  simp only [hparent, hcontract, mapError_ok, Except.bind] at hresult
  cases hsplice : parent.splice plugin.acceptsScript {}
      (plugin.unitOf id parent extraction.components).children with
  | error violation =>
    obtain rfl := hfamily.links violation hsplice
    rw [hsplice] at hresult
    exact .inl ⟨hresult, CompiledModule.exists_of_splice_eq_unparsable hsplice⟩
  | ok linked =>
    rw [hsplice] at hresult
    have hcode := code_assemble plugin id [] (plugin.unitOf id parent extraction.components) linked
    refine .inr ⟨_, linked.code, hresult, hcode, ?_⟩
    rw [hcode]
    exact hfamily.agrees hsplice hnodup _

/-- A parent that uses the one of its two components that compiles. -/
theorem transform_agrees_of_two_components :
    let plugin : Plugin := {
      options := {}
      compiler := withSymbol none
      locator := fun package _ => .error (.notFound package)
      acceptsScript := fun _ => true }
    let code := "\x7b#component Card\x7d<p/>\x7b/component\x7d" ++
      "\x7b#component Bad\x7d\x7b#error\x7d\x7b/component\x7d<Card/><h1>x</h1><style>a\x7b\x7d</style>"
    ∃ (unit : UnitCompilation) (transformation : Transformation) (linked : String),
      (plugin.transform code "App.svelte").result = .ok (some transformation) ∧
        unit.children.map (·.name) = ["Card"] ∧
        transformation.output.code =
          linked ++ transformation.asset.elim "" StyleAsset.importStatement ∧
        unit.Agrees (componentName (.ofString "App.svelte")) linked.toList
          transformation.output.code.toList := by
  intro plugin code
  let extraction : Extraction := ⟨"<Card/><h1>x</h1><style>a\x7b\x7d</style>",
    [⟨"Card", "<p/>", .ofString "App__Card.svelte", 0, 33⟩,
     ⟨"Bad", "\x7b#error\x7d", .ofString "App__Bad.svelte", 33, 69⟩]⟩
  have hextract : Extraction.extract code (.ofString "App.svelte") = .ok extraction := by
    decide +kernel
  have himports : ∀ source ∈ extraction.source :: extraction.components.map (·.body),
      Markup.phrases scriptImport source.toList = [] := by decide +kernel
  have hstem : (FilePath.ofString "App.svelte").stem? = some "App".toList := by decide +kernel
  have hhandles : plugin.handles "App.svelte" = true := by decide +kernel
  have hnames : (UnitCompilation.compile plugin.compiler extraction
      (plugin.unitOptions "App.svelte")).result.toOption.map (fun unit => unit.children.map (·.name)) =
        some ["Card"] := by decide +kernel
  obtain ⟨unit, hunit, hfailed | ⟨transformation, linked, hresult, hcode, hagrees⟩⟩ :=
    transform_agrees rfl rfl rfl hhandles hstem (by decide) hextract himports (by decide +kernel)
  · obtain ⟨-, text, hrefused⟩ := hfailed
    contradiction
  · rw [hunit] at hnames
    exact ⟨unit, transformation, linked, hresult, Option.some.inj hnames, hcode, hagrees⟩

end Plugin

end InlineComponents
