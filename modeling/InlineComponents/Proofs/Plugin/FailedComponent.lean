import InlineComponents.Compilation.Table
import InlineComponents.Proofs.Extraction.Deletion
import InlineComponents.Proofs.Plugin.Steps
import InlineComponents.Proofs.Styles.Merging
import InlineComponents.Proofs.Styles.NamedAsset

/-!
# Components that do not compile

A component that does not compile is left out of its unit. A module is then transformed as if the
block of the component were deleted from its source: linking, styles and the other components never
hear of it. Only the warnings tell. The failure is reported, and warnings about the missing name,
which the parent and the other components give in either case, are dropped while the block is there.
-/

namespace InlineComponents

/-! ### Warnings -/

namespace Diagnostic

/-- One more name makes void what the other names do not and it does. -/
theorem reconcile_append_cons (front back : List String) (name : String)
    (warnings : List Diagnostic) :
    reconcile (front ++ name :: back) warnings =
      reconcile [name] (reconcile (front ++ back) warnings) := by
  rw [reconcile, reconcile, reconcile, List.filter_filter]
  refine List.filter_congr fun warning _ => ?_
  rw [isAbout, isAbout, isAbout]
  cases warning.undeclaredName? with
  | none => rfl
  | some undeclared =>
    simp only [Option.any_some, List.contains_eq_mem, List.mem_append, List.mem_cons,
      List.not_mem_nil, or_false, Bool.decide_or, Bool.not_or]
    exact Bool.and_left_comm _ _ _

/-- What a warning is about does not depend on its file. -/
theorem reconcile_map_withDefaultFilename (names : List String) (file : String)
    (warnings : List Diagnostic) :
    reconcile names (warnings.map (·.withDefaultFilename file)) =
      (reconcile names warnings).map (·.withDefaultFilename file) :=
  List.filter_map

/-- Without a handler, delivery only withholds. -/
theorem deliver_forwardAll_eq_filter (stylesDisabled : Bool) (warnings : List Diagnostic) :
    deliver .forwardAll stylesDisabled warnings =
      warnings.filter fun warning => !warning.isWithheld stylesDisabled :=
  List.flatMap_singleton' _

/-- Reconciling and delivering do not get in each other's way. -/
theorem reconcile_deliver (names : List String) (stylesDisabled : Bool)
    (warnings : List Diagnostic) :
    reconcile names (deliver .forwardAll stylesDisabled warnings) =
      deliver .forwardAll stylesDisabled (reconcile names warnings) := by
  rw [deliver_forwardAll_eq_filter, deliver_forwardAll_eq_filter, reconcile, reconcile,
    List.filter_filter, List.filter_filter]
  exact List.filter_congr fun _ _ => Bool.and_comm _ _

end Diagnostic

namespace InlineComponent

/-- The warning that a component did not compile. -/
def failureWarning (component : InlineComponent) (error : CompileError) : Diagnostic where
  code := Diagnostic.compileFailed
  message := "sub-component \"" ++ component.name ++ "\" failed to compile: " ++ error.message
  filename := some component.syntheticFilename.toString

/-- The first warnings tell of the failure of a component, and the second ones may say that its name
is not declared. Otherwise they are the same. -/
def FailureNoted (component : InlineComponent) (error : CompileError)
    (first second : List Diagnostic) : Prop :=
  ∃ front back, first = front ++ component.failureWarning error :: back ∧
    Diagnostic.reconcile [component.name] second = front ++ back

end InlineComponent

namespace ComponentCompilation

/-- A component that did not compile is warned about once. -/
theorem warnings_of_error {names : List String} {component : InlineComponent} {error : CompileError} :
    warnings names ⟨component, .error error⟩ = [component.failureWarning error] := rfl

/-- One more name in the unit makes void the warnings about it, and no others. -/
theorem warnings_append_cons (front back : List String) (name : String)
    (compilation : ComponentCompilation) :
    compilation.warnings (front ++ name :: back) =
      Diagnostic.reconcile [name] (compilation.warnings (front ++ back)) := by
  obtain ⟨component, outcome⟩ := compilation
  cases outcome with
  | error error => rfl
  | ok module =>
    simp only [warnings, Diagnostic.reconcile_append_cons,
      Diagnostic.reconcile_map_withDefaultFilename]

end ComponentCompilation

/-- Delivery takes nothing of the failure away. -/
theorem InlineComponent.FailureNoted.deliver {component : InlineComponent} {error : CompileError}
    {first second : List Diagnostic} (h : component.FailureNoted error first second)
    (stylesDisabled : Bool) :
    component.FailureNoted error (Diagnostic.deliver .forwardAll stylesDisabled first)
      (Diagnostic.deliver .forwardAll stylesDisabled second) := by
  obtain ⟨front, back, rfl, hsecond⟩ := h
  refine ⟨Diagnostic.deliver .forwardAll stylesDisabled front,
    Diagnostic.deliver .forwardAll stylesDisabled back, ?_, ?_⟩
  · have hkept : (component.failureWarning error).isWithheld stylesDisabled = false := by
      cases stylesDisabled <;> rfl
    simp only [Diagnostic.deliver_forwardAll_eq_filter, List.filter_append, List.filter_cons, hkept,
      Bool.not_false, ↓reduceIte]
  · rw [Diagnostic.reconcile_deliver, hsecond, Diagnostic.deliver_append]

/-! ### Units -/

namespace Plugin

variable (plugin : Plugin)

/-- The options for the parent in a source that is not preprocessed. -/
def unitOptions (id : String) : CompileOptions :=
  { plugin.options.compileOptions (.ofString id) with sourcemap := none }

/-- A component of a module and what compiling it gives. -/
def compilation (id : String) (component : InlineComponent) : ComponentCompilation :=
  ⟨component, plugin.compiler.compile component.body
    ((plugin.unitOptions id).forFile component.syntheticFilename)⟩

/-- The unit of a compiled parent and its components. -/
def unitOf (id : String) (parent : CompiledModule) (components : List InlineComponent) :
    UnitCompilation :=
  ⟨parent, components.map (plugin.compilation id)⟩

/-- The parent of a unit. -/
@[simp] theorem parent_unitOf (id : String) (parent : CompiledModule)
    (components : List InlineComponent) : (plugin.unitOf id parent components).parent = parent :=
  rfl

variable {plugin} {id : String} {parent : CompiledModule}
  {components others front back : List InlineComponent} {component : InlineComponent}
  {error : CompileError}

/-- What is linked does not depend on where the components stand. -/
theorem children_unitOf :
    (plugin.unitOf id parent components).children =
      (components.map InlineComponent.unplaced).filterMap fun component =>
        (plugin.compilation id component).child? := by
  rw [UnitCompilation.children, unitOf, List.filterMap_map, List.filterMap_map]
  rfl

/-- The names do not depend on where the components stand. -/
theorem names_unitOf :
    (plugin.unitOf id parent components).names =
      (components.map InlineComponent.unplaced).map (·.name) := by
  rw [UnitCompilation.names, unitOf, List.map_map, List.map_map]
  rfl

/-- The warnings do not depend on where the components stand. -/
theorem warnings_unitOf :
    (plugin.unitOf id parent components).warnings =
      Diagnostic.reconcile (plugin.unitOf id parent components).names parent.warnings ++
        (components.map InlineComponent.unplaced).flatMap fun component =>
          (plugin.compilation id component).warnings (plugin.unitOf id parent components).names := by
  rw [UnitCompilation.warnings, List.flatMap_map]
  conv => lhs; rw [unitOf, List.flatMap_map]
  rfl

/-- A component that did not compile is not linked. -/
theorem children_unitOf_of_error (herror : (plugin.compilation id component).outcome = .error error)
    (hcomponents : components.map InlineComponent.unplaced = front ++ component.unplaced :: back)
    (hothers : others.map InlineComponent.unplaced = front ++ back) :
    (plugin.unitOf id parent components).children = (plugin.unitOf id parent others).children := by
  have hchild : (plugin.compilation id component.unplaced).child? = none := by
    change ComponentCompilation.child? ⟨_, (plugin.compilation id component).outcome⟩ = none
    rw [herror]
    rfl
  simp only [children_unitOf, hcomponents, hothers, List.filterMap_append, List.filterMap_cons,
    hchild]

/-- The warnings of a unit note that a component did not compile. -/
theorem failureNoted_unitOf (herror : (plugin.compilation id component).outcome = .error error)
    (hcomponents : components.map InlineComponent.unplaced = front ++ component.unplaced :: back)
    (hothers : others.map InlineComponent.unplaced = front ++ back) :
    component.FailureNoted error (plugin.unitOf id parent components).warnings
      (plugin.unitOf id parent others).warnings := by
  have hnames : (plugin.unitOf id parent components).names =
      front.map (·.name) ++ component.name :: back.map (·.name) := by
    rw [names_unitOf, hcomponents, List.map_append, List.map_cons]
    rfl
  have hotherNames : (plugin.unitOf id parent others).names =
      front.map (·.name) ++ back.map (·.name) := by
    rw [names_unitOf, hothers, List.map_append]
  have hfailed (names : List String) :
      (plugin.compilation id component.unplaced).warnings names =
        [component.failureWarning error] := by
    change ComponentCompilation.warnings names
      ⟨component.unplaced, (plugin.compilation id component).outcome⟩ = _
    rw [herror]
    exact ComponentCompilation.warnings_of_error
  -- With one name more, each part of the warnings without the component becomes the part with it.
  rw [warnings_unitOf, warnings_unitOf, hcomponents, hothers, hnames, hotherNames,
    List.flatMap_append, List.flatMap_cons, hfailed, List.flatMap_append]
  refine ⟨_, _, by rw [← List.append_assoc, List.singleton_append], ?_⟩
  rw [Diagnostic.reconcile_append_cons]
  simp only [ComponentCompilation.warnings_append_cons, Diagnostic.reconcile, List.filter_append,
    List.filter_flatMap, List.append_assoc]

/-! ### Transformations -/

/-- What becomes of a module whose source is not preprocessed. -/
theorem result_transform {code : String} {extraction : Extraction}
    (hhandles : plugin.handles id = true)
    (hpreprocess : plugin.options.preprocess = none)
    (hextract : Extraction.extract code (.ofString id) = .ok extraction) :
    (plugin.transform code id).result =
      ((plugin.compiler.compile extraction.source (plugin.unitOptions id)).mapError
        (BuildError.parentCompile id)).bind fun parent =>
          ((parent.splice plugin.acceptsScript plugin.contract
            (plugin.unitOf id parent extraction.components).children).mapError
              (BuildError.contract id)).map fun linked =>
                some (plugin.assemble id []
                  (plugin.unitOf id parent extraction.components) linked) := by
  have hok {ε α β : Type} (value : α) (next : α → Except ε β) :
      (Except.ok value >>= next) = next value := rfl
  have hcompile : (UnitCompilation.compile plugin.compiler extraction
      { plugin.options.compileOptions (.ofString id) with sourcemap := none }).result =
        ((plugin.compiler.compile extraction.source (plugin.unitOptions id)).mapError
          (BuildError.parentCompile id)).map fun parent =>
            plugin.unitOf id parent extraction.components := by
    have hid : (plugin.unitOptions id).filename.toString = id := String.ofList_toList
    have hresult := UnitCompilation.result_compile plugin.compiler extraction (plugin.unitOptions id)
    rw [hid] at hresult
    exact hresult
  rw [transform, if_pos hhandles, transformHandled, prepare, hpreprocess]
  simp only [extract, link, Run.result_bind, Run.result_ofExcept, Run.result_logAll,
    Run.result_recordAll, Run.result_pure, hok, hextract, mapError_ok, hcompile]
  cases plugin.compiler.compile extraction.source (plugin.unitOptions id) with
  | error error => rfl
  | ok parent =>
    simp only [hok, mapError_ok, Except.map, Except.bind, parent_unitOf]
    cases parent.splice plugin.acceptsScript plugin.contract
      (plugin.unitOf id parent extraction.components).children with
    | error violation => rfl
    | ok linked => rfl

/-- The asset of a unit comes from the parent and what is linked. -/
theorem asset?_congr {first second : UnitCompilation} (hparent : first.parent = second.parent)
    (hchildren : first.children = second.children) :
    plugin.asset? id first = plugin.asset? id second := by
  rw [asset?, asset?, UnitCompilation.styles, UnitCompilation.styles, hparent, hchildren]

/-- Two results of a transformation are alike up to their warnings: both are the same failure, or
both are transformations that agree in all else. -/
inductive AlikeUpTo (warnings : List Diagnostic → List Diagnostic → Prop) :
    Except BuildError (Option Transformation) → Except BuildError (Option Transformation) → Prop where
  | failed (error : BuildError) : AlikeUpTo warnings (.error error) (.error error)
  | transformed {first second : Transformation} :
      first.output.code = second.output.code → first.output.map = second.output.map →
      first.output.dependencies = second.output.dependencies → first.asset = second.asset →
      warnings first.output.warnings second.output.warnings →
      AlikeUpTo warnings (.ok (some first)) (.ok (some second))

/-- Results that are alike up to their warnings leave the same state of the build behind. -/
theorem AlikeUpTo.next_eq {warnings : List Diagnostic → List Diagnostic → Prop} {code other : String}
    (h : AlikeUpTo warnings (plugin.transform code id).result (plugin.transform other id).result)
    (state : BuildState) :
    plugin.next state (.transform code id) = plugin.next state (.transform other id) := by
  have hkeeps : plugin.keeps? code id = plugin.keeps? other id := by
    rw [keeps?, keeps?]
    generalize (plugin.transform code id).result = first at h
    generalize (plugin.transform other id).result = second at h
    cases h with
    | failed error => rfl
    | transformed _ _ _ hasset _ => exact hasset
  rw [next_transform, next_transform, hkeeps]

/-- A module is transformed as if the block of a component that does not compile were deleted. -/
theorem alikeUpTo_deleteFrom {code : String} {extraction : Extraction}
    (hhandles : plugin.handles id = true) (hpreprocess : plugin.options.preprocess = none)
    (hhandler : plugin.handler = .forwardAll)
    (hextract : Extraction.extract code (.ofString id) = .ok extraction)
    (hfree : Marker.Free extraction.source.toList) (hcomponent : component ∈ extraction.components)
    (herror : (plugin.compilation id component).outcome = .error error) :
    AlikeUpTo (component.FailureNoted error) (plugin.transform code id).result
      (plugin.transform (component.deleteFrom code) id).result := by
  obtain ⟨others, front, back, hdeleted, hsource, hcomponents, hothers⟩ :=
    Extraction.extract_deleteFrom hextract hcomponent hfree
  rw [result_transform hhandles hpreprocess hextract,
    result_transform hhandles hpreprocess hdeleted, hsource]
  cases plugin.compiler.compile extraction.source (plugin.unitOptions id) with
  | error error => exact .failed _
  | ok parent =>
    have hchildren : (plugin.unitOf id parent extraction.components).children =
        (plugin.unitOf id parent others.components).children :=
      children_unitOf_of_error herror hcomponents hothers
    have hasset : plugin.asset? id (plugin.unitOf id parent extraction.components) =
        plugin.asset? id (plugin.unitOf id parent others.components) := asset?_congr rfl hchildren
    simp only [mapError_ok, Except.bind, ← hchildren]
    cases parent.splice plugin.acceptsScript plugin.contract
      (plugin.unitOf id parent extraction.components).children with
    | error violation => exact .failed _
    | ok linked =>
      refine .transformed ?_ rfl rfl hasset ?_
      · simp only [assemble, hasset]
      · simp only [assemble, deliver, hhandler]
        exact (failureNoted_unitOf herror hcomponents hothers).deliver _

/-- What moving styles out of a module comes to: they become an asset, and the code goes on with a
line that imports a literal that names them. Without styles the code stays as it is. -/
inductive MovesStyles (id : String) (module : CompiledModule) :
    (styles : Option Css) → (asset : Option StyleAsset) → (code : String) → Prop where
  | nothing : MovesStyles id module none none module.code
  | styles {css : Css} {literal : String}
      (hnames : ∀ store, StyleAsset.NamesStyles id css module store literal) :
      MovesStyles id module (some css) (some (.ofModule id css))
        (module.code ++ "\nimport " ++ literal ++ ";\n")

/-- An import at the end of a module is all that moving its styles adds. -/
theorem movesStyles_map (id : String) (module : CompiledModule) (styles : Option Css) :
    MovesStyles id module styles (styles.map (.ofModule id))
      (module.code ++ (styles.map (.ofModule id)).elim "" StyleAsset.importStatement) := by
  cases styles with
  | none =>
    rw [Option.map_none, Option.elim_none, String.append_empty]
    exact .nothing
  | some css =>
    have hnames (store : AssetStore) := StyleAsset.namesStyles_quoteString id css module store
    have hcode : module.code ++ (StyleAsset.ofModule id css).importStatement = _ :=
      congrArg CompiledModule.code (hnames {}).importing_eq
    rw [Option.map_some, Option.elim_some, hcode]
    exact .styles hnames

/-- A parent whose components all fail is left as it is, but for the import of its styles. -/
theorem exists_transformation_of_unlinked {code : String} {extraction : Extraction}
    (hhandles : plugin.handles id = true) (hpreprocess : plugin.options.preprocess = none)
    (hextract : Extraction.extract code (.ofString id) = .ok extraction)
    (hfailed : ∀ component ∈ extraction.components,
      ∃ error, (plugin.compilation id component).outcome = .error error)
    (hparent : plugin.compiler.compile extraction.source (plugin.unitOptions id) = .ok parent) :
    ∃ transformation, (plugin.transform code id).result = .ok (some transformation) ∧
      MovesStyles id parent
        (if plugin.options.emitCss then parent.css.filter fun sheet => ¬ sheet.IsBlank else none)
        transformation.asset transformation.output.code := by
  have hchildren : (plugin.unitOf id parent extraction.components).children = [] := by
    rw [UnitCompilation.children, unitOf, List.filterMap_map]
    refine List.filterMap_eq_nil_iff.mpr fun component hcomponent => ?_
    obtain ⟨error, herror⟩ := hfailed component hcomponent
    rw [Function.comp_apply, ComponentCompilation.child?, herror]
  have hasset : plugin.asset? id (plugin.unitOf id parent extraction.components) =
      (if plugin.options.emitCss then parent.css.filter fun sheet => ¬ sheet.IsBlank else none).map
        (.ofModule id) := by
    rw [asset?, UnitCompilation.styles, hchildren, parent_unitOf, List.filterMap_nil,
      Css.merge_of_blank (by simp), Css.not_isEmpty_eq]
    split <;> rfl
  refine ⟨plugin.assemble id [] (plugin.unitOf id parent extraction.components) parent, ?_, ?_⟩
  · rw [result_transform hhandles hpreprocess hextract, hparent]
    simp only [mapError_ok, Except.bind, hchildren, CompiledModule.splice_nil, Except.map]
  · rw [code_assemble, assemble, hasset]
    exact movesStyles_map id parent _

/-- What components that do not compile mean for a module. -/
structure SetsFailuresAside (plugin : Plugin) (code id : String) (extraction : Extraction) : Prop where
  /-- The module is transformed as without the block of such a component. -/
  alike : Marker.Free extraction.source.toList → ∀ component ∈ extraction.components, ∀ error,
    (plugin.compilation id component).outcome = .error error →
      AlikeUpTo (component.FailureNoted error) (plugin.transform code id).result
        (plugin.transform (component.deleteFrom code) id).result
  /-- The build goes on as without the block. -/
  next_alike : Marker.Free extraction.source.toList → ∀ component ∈ extraction.components, ∀ error,
    (plugin.compilation id component).outcome = .error error →
      ∀ state, plugin.next state (.transform code id) =
        plugin.next state (.transform (component.deleteFrom code) id)
  /-- If no component compiles, the module is what the compiler made of the parent, whatever that
  is, and its styles are moved out of it if they are emitted and not blank. -/
  unlinked : (∀ component ∈ extraction.components,
      ∃ error, (plugin.compilation id component).outcome = .error error) →
    ∀ parent, plugin.compiler.compile extraction.source (plugin.unitOptions id) = .ok parent →
      ∃ transformation, (plugin.transform code id).result = .ok (some transformation) ∧
        MovesStyles id parent
          (if plugin.options.emitCss then parent.css.filter fun sheet => ¬ sheet.IsBlank else none)
          transformation.asset transformation.output.code

/-- Components that do not compile are left out of a module without a trace but warnings. -/
theorem setsFailuresAside {code id : String} {extraction : Extraction}
    (hhandles : plugin.handles id = true) (hpreprocess : plugin.options.preprocess = none)
    (hhandler : plugin.handler = .forwardAll)
    (hextract : Extraction.extract code (.ofString id) = .ok extraction) :
    SetsFailuresAside plugin code id extraction where
  alike hfree _ hcomponent _ herror :=
    alikeUpTo_deleteFrom hhandles hpreprocess hhandler hextract hfree hcomponent herror
  next_alike hfree _ hcomponent _ herror :=
    (alikeUpTo_deleteFrom hhandles hpreprocess hhandler hextract hfree hcomponent herror).next_eq
  unlinked hfailed _ := exists_transformation_of_unlinked hhandles hpreprocess hextract hfailed

/-- A parent with one component, which does not compile. -/
theorem setsFailuresAside_of_one_failure :
    let parent : CompiledModule := {
      code := "m", css := some ⟨"p", none⟩, warnings := [
        ⟨"missing-declaration", "'Card' is not defined", none, none, none, none⟩] }
    let plugin : Plugin := {
      options := {}
      compiler := CompilerTable.compiler ⟨[("App.svelte", .ok parent),
        ("App__Card.svelte", .error ⟨"bad", none, none, none⟩)], none⟩
      locator := fun package _ => .error (.notFound package)
      acceptsScript := fun _ => true }
    let code := "a\x7b#component Card\x7dx\x7b/component\x7db"
    (∃ component error,
      component.name = "Card" ∧
      (plugin.compilation "App.svelte" component).outcome = .error error ∧
      AlikeUpTo (component.FailureNoted error) (plugin.transform code "App.svelte").result
        (plugin.transform "ab" "App.svelte").result) ∧
    ∃ transformation literal, (plugin.transform code "App.svelte").result = .ok (some transformation) ∧
      transformation.asset = some ⟨"App.css", ⟨"p", none⟩⟩ ∧
      transformation.output.code = "m" ++ "\nimport " ++ literal ++ ";\n" ∧
      Json.parse? literal = some (.string "App.css") := by
  intro parent plugin code
  have hextract : Extraction.extract code (.ofString "App.svelte") =
      .ok ⟨"ab", [⟨"Card", "x", .ofString "App__Card.svelte", 1, 31⟩]⟩ := by decide +kernel
  have haside : SetsFailuresAside plugin code "App.svelte" _ :=
    setsFailuresAside (by decide +kernel) rfl rfl hextract
  have hfailed : ∀ component ∈ [(⟨"Card", "x", .ofString "App__Card.svelte", 1, 31⟩ :
      InlineComponent)], ∃ error, (plugin.compilation "App.svelte" component).outcome =
        .error error := by
    intro component hcomponent
    rw [List.mem_singleton.mp hcomponent]
    exact ⟨_, rfl⟩
  have hparent : plugin.compiler.compile "ab" (plugin.unitOptions "App.svelte") = .ok parent := by
    have hfile : (plugin.unitOptions "App.svelte").filename.toString = "App.svelte" :=
      String.ofList_toList
    simp only [plugin, CompilerTable.compiler] at hfile ⊢
    rw [hfile]
    rfl
  constructor
  · obtain ⟨error, herror⟩ := hfailed _ List.mem_cons_self
    have halike := haside.alike (by decide +kernel) _ List.mem_cons_self _ herror
    have hdeleted : InlineComponent.deleteFrom
        ⟨"Card", "x", .ofString "App__Card.svelte", 1, 31⟩ code = "ab" := by decide +kernel
    rw [hdeleted] at halike
    exact ⟨_, error, rfl, herror, halike⟩
  · obtain ⟨transformation, hresult, hmoves⟩ := haside.unlinked hfailed parent hparent
    have hpath : StyleAsset.pathFor "App.svelte" = "App.css" := by decide +kernel
    have hstyles : (parent.css.filter fun sheet => ¬ sheet.IsBlank) = some ⟨"p", none⟩ := rfl
    rw [if_pos rfl, hstyles] at hmoves
    generalize hasset : transformation.asset = asset at hmoves
    generalize hcode : transformation.output.code = out at hmoves
    obtain - | ⟨hnames⟩ := hmoves
    refine ⟨transformation, _, hresult, ?_, hcode, hpath ▸ (hnames {}).parse?_eq⟩
    rw [hasset, StyleAsset.ofModule, hpath]

end Plugin

end InlineComponents
