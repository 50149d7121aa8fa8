import InlineComponents.Compilation.Table
import InlineComponents.Proofs.Plugin.Steps
import InlineComponents.Proofs.Styles.Merging
import Mathlib.Data.List.Induction

/-!
# The assets of a build and the requests before

What is kept under a path is what the last transformation since the start of the build has put
there, and only a transformation that returns output puts something there. The statements are about
a plugin after any requests, in any order and with any outcome.
-/

namespace InlineComponents.Plugin

variable {plugin : Plugin}

/-- The options under which a preprocessed source is compiled. -/
def preparedOptions (plugin : Plugin) (id : String) (prepared : Preprocessed) : CompileOptions :=
  { plugin.options.compileOptions (.ofString id) with sourcemap := prepared.map }

/-- The styles of those components of a source that compile, in source order. -/
def componentStyles (plugin : Plugin) (options : CompileOptions)
    (components : List InlineComponent) : List Css :=
  components.filterMap fun component =>
    (plugin.compiler.compile component.body
      (options.forFile component.syntheticFilename)).toOption.bind CompiledModule.css

/-- A transformation returns output and moves these styles to the path that belongs to its id:
styles are emitted, and they are what the styles of the parent and of its components come to. -/
inductive Emits (plugin : Plugin) (code id : String) : (path : String) → Css → Prop where
  | intro {output : TransformOutput} {prepared : Preprocessed} {extraction : Extraction}
      {parent : CompiledModule} {css : Css}
      (hreply : plugin.reply {} (.transform code id) = .ok (.transformed (some output)))
      (hemit : plugin.options.emitCss = true)
      (hprepared : (plugin.prepare code id).result = .ok prepared)
      (hextraction : Extraction.extract prepared.code (.ofString id) = .ok extraction)
      (hparent : plugin.compiler.compile extraction.source (plugin.preparedOptions id prepared) =
        .ok parent)
      (hmerged : Css.IsMerged parent.css
        (plugin.componentStyles (plugin.preparedOptions id prepared) extraction.components) css) :
      Emits plugin code id (StyleAsset.pathFor id) css

/-- A request moves these styles to this path. -/
def Request.Emits (plugin : Plugin) (path : String) (css : Css) : Request → Prop
  | .transform code id => plugin.Emits code id path css
  | .buildStart | .resolve _ _ | .load _ | .finalize => False

/-- These are the styles that the last of the requests since the start of the build has moved to
this path. -/
def LastEmitted (plugin : Plugin) (history : List Request) (path : String) (css : Css) : Prop :=
  ∃ before request after, history = before ++ request :: after ∧
    request.Emits plugin path css ∧
    ∀ later ∈ after, later ≠ .buildStart ∧ ∀ other, ¬ later.Emits plugin path other

/-- The children that are linked have the styles of the components that compile. -/
theorem filterMap_css_children (options : CompileOptions) (parent : CompiledModule)
    (components : List InlineComponent) :
    (UnitCompilation.children ⟨parent, components.map fun component => ⟨component,
      plugin.compiler.compile component.body (options.forFile component.syntheticFilename)⟩⟩).filterMap
        (·.module.css) = plugin.componentStyles options components := by
  rw [UnitCompilation.children, List.filterMap_map, List.filterMap_filterMap, componentStyles]
  refine List.filterMap_congr fun component _ => ?_
  simp only [Function.comp_apply, ComponentCompilation.child?]
  cases plugin.compiler.compile component.body (options.forFile component.syntheticFilename) <;> rfl

/-- A transformation that returns output has a compiled parent, and its asset is made of the styles
that parent and components come to. -/
theorem Stages.asset_eq_some_iff {code id : String} (stages : Stages plugin code id)
    (asset : StyleAsset) :
    ∃ parent, plugin.compiler.compile stages.extraction.source
        (plugin.preparedOptions id stages.prepared) = .ok parent ∧
      (plugin.asset? id stages.unit = some asset ↔ plugin.options.emitCss = true ∧
        Css.IsMerged parent.css (plugin.componentStyles (plugin.preparedOptions id stages.prepared)
          stages.extraction.components) asset.css ∧ StyleAsset.pathFor id = asset.path) := by
  obtain ⟨parent, hparent, hunit⟩ := UnitCompilation.result_compile_eq_ok_iff.mp stages.compile_eq
  refine ⟨parent, hparent, ?_⟩
  have hstyles : stages.unit.styles = Css.merge parent.css
      (plugin.componentStyles (plugin.preparedOptions id stages.prepared)
        stages.extraction.components) := by
    rw [UnitCompilation.styles, hunit, ← filterMap_css_children _ parent]
    rfl
  rw [asset?, hstyles]
  split
  · rename_i hemit
    simp only [Option.map_eq_some_iff, hemit, true_and, Css.merge_eq_some_iff]
    constructor
    · rintro ⟨css, hcss, rfl⟩
      exact ⟨hcss, rfl⟩
    · rintro ⟨hcss, hpath⟩
      exact ⟨asset.css, hcss, by rw [StyleAsset.ofModule, hpath]⟩
  · rename_i hemit
    simp [hemit]

/-- A transformation answers with output when its stages succeed. -/
theorem reply_transform_eq_some_iff {state : BuildState} {code id : String}
    {output : TransformOutput} :
    plugin.reply state (.transform code id) = .ok (.transformed (some output)) ↔
      ∃ transformation, (plugin.transform code id).result = .ok (some transformation) ∧
        transformation.output = output := by
  rw [reply_transform]
  cases (plugin.transform code id).result with
  | error error => simp [Except.map]
  | ok answer => simp [Except.map]

/-- A transformation keeps the styles that it moves. -/
theorem keeps?_eq_some_iff {code id : String} {asset : StyleAsset} :
    plugin.keeps? code id = some asset ↔ plugin.Emits code id asset.path asset.css := by
  unfold keeps?
  constructor
  · intro h
    split at h
    · rename_i transformation hresult
      obtain ⟨stages, rfl⟩ := transform_eq_ok_some_iff.mp hresult
      obtain ⟨parent, hparent, hasset⟩ := stages.asset_eq_some_iff asset
      obtain ⟨hemit, hmerged, hpath⟩ := hasset.mp h
      rw [← hpath]
      exact .intro (reply_transform_eq_some_iff.mpr ⟨_, hresult, rfl⟩) hemit stages.prepare_eq
        stages.extract_eq hparent hmerged
    · contradiction
  · generalize hpath : asset.path = path
    rintro ⟨hreply, hemit, hprepared, hextraction, hparent, hmerged⟩
    obtain ⟨transformation, hresult, -⟩ := reply_transform_eq_some_iff.mp hreply
    obtain ⟨stages, rfl⟩ := transform_eq_ok_some_iff.mp hresult
    obtain ⟨compiled, hcompiled, hasset⟩ := stages.asset_eq_some_iff asset
    -- The stages are functions of their inputs, so they gave what is merged here.
    obtain rfl := Except.ok.inj (hprepared.symm.trans stages.prepare_eq)
    obtain rfl := Except.ok.inj (hextraction.symm.trans stages.extract_eq)
    obtain rfl := Except.ok.inj (hparent.symm.trans hcompiled)
    rw [hresult]
    exact hasset.mpr ⟨hemit, hmerged, hpath.symm⟩

/-- What a request keeps under a path is what it moves there. -/
theorem keptBy?_filter_eq_some_iff {request : Request} {path : String} {css : Css} :
    ((plugin.keptBy? request).filter (·.path = path)).map (·.css) = some css ↔
      request.Emits plugin path css := by
  cases request with
  | transform code id =>
    change _ ↔ plugin.Emits code id path css
    simp only [Option.map_eq_some_iff, Option.filter_eq_some_iff, decide_eq_true_eq]
    constructor
    · rintro ⟨asset, ⟨hkept, rfl⟩, rfl⟩
      exact keeps?_eq_some_iff.mp hkept
    · intro h
      exact ⟨⟨path, css⟩, ⟨keeps?_eq_some_iff.mpr h, rfl⟩, rfl⟩
  | buildStart | resolve _ _ | load _ | finalize => simp [keptBy?, Request.Emits]

/-- Whether styles are the last ones is decided by the last request that concerns the path. -/
theorem lastEmitted_concat_iff {history : List Request} {request : Request} {path : String}
    {css : Css} :
    plugin.LastEmitted (history ++ [request]) path css ↔ request.Emits plugin path css ∨
      request ≠ .buildStart ∧ (∀ other, ¬ request.Emits plugin path other) ∧
        plugin.LastEmitted history path css := by
  constructor
  · rintro ⟨before, emitting, after, happ, hemits, hafter⟩
    rcases List.eq_nil_or_concat after with rfl | ⟨init, last, rfl⟩
    · obtain ⟨-, hlast⟩ := List.append_inj' happ rfl
      obtain rfl := List.singleton_inj.mp hlast
      exact Or.inl hemits
    · rw [List.concat_eq_append, ← List.cons_append, ← List.append_assoc] at happ
      obtain ⟨rfl, hlast⟩ := List.append_inj' happ rfl
      obtain rfl := List.singleton_inj.mp hlast
      obtain ⟨hstart, hnone⟩ := hafter request (by simp)
      exact Or.inr ⟨hstart, hnone, before, emitting, init, rfl, hemits,
        fun later hlater => hafter later (by simp [hlater])⟩
  · rintro (hemits | ⟨hstart, hnone, before, emitting, after, rfl, hemits, hafter⟩)
    · exact ⟨history, request, [], rfl, hemits, by simp⟩
    · refine ⟨before, emitting, after ++ [request], by simp, hemits, fun later hlater => ?_⟩
      rcases List.mem_append.mp hlater with hold | hnew
      · exact hafter later hold
      · obtain rfl := List.mem_singleton.mp hnew
        exact ⟨hstart, hnone⟩

/-- The styles kept under a path are the last ones that were moved there. -/
theorem find?_run_eq_some_iff {history : List Request} {path : String} {css : Css} :
    (plugin.run {} history).assets.find? path = some css ↔
      plugin.LastEmitted history path css := by
  induction history using List.reverseRecOn generalizing css with
  | nil =>
    refine iff_of_false (fun h => by contradiction) ?_
    rintro ⟨before, request, after, happ, -⟩
    simp at happ
  | append_singleton history request ih =>
    have hrun : plugin.run {} (history ++ [request]) =
        plugin.next (plugin.run {} history) request := List.foldl_append
    rw [hrun, lastEmitted_concat_iff]
    by_cases hstart : request = .buildStart
    · subst hstart
      rw [next_buildStart]
      refine iff_of_false (fun h => by contradiction) ?_
      rintro (hemits | ⟨hne, -⟩)
      · exact hemits
      · exact hne rfl
    · rw [find?_next plugin _ hstart]
      cases hkept : ((plugin.keptBy? request).filter (·.path = path)).map (·.css) with
      | some kept =>
        have hemits := keptBy?_filter_eq_some_iff.mp hkept
        rw [Option.some_or, ← hkept, keptBy?_filter_eq_some_iff]
        refine ⟨Or.inl, ?_⟩
        rintro (h | ⟨-, hnone, -⟩)
        · exact h
        · exact absurd hemits (hnone kept)
      | none =>
        have hnone (other : Css) : ¬ request.Emits plugin path other := by
          rw [← keptBy?_filter_eq_some_iff, hkept]
          simp
        rw [Option.none_or, ih]
        exact ⟨fun h => Or.inr ⟨hstart, hnone, h⟩, fun h =>
          h.elim (fun hemits => absurd hemits (hnone css)) fun h => h.2.2⟩

/-! ### Resolving assets -/

/-- A resolution that does not ask the locator leads nowhere. -/
theorem resolve_unresolved_of_not_located {locator : ManifestLocator} {field specifier : String}
    {importer : FilePath}
    (h : ∀ package folder, .located package folder ∉
      (Resolution.resolve locator field specifier importer).events) :
    (Resolution.resolve locator field specifier importer).result = .ok .unresolved := by
  unfold Resolution.resolve at h ⊢
  split
  · rename_i hbare
    rw [if_pos hbare] at h
    refine absurd ?_ (h (String.ofList (PackageReference.ofSpecifier specifier.toList).package)
      (Resolution.folderOf importer))
    rw [Run.events_bind_of_ok _ (Run.result_record _)]
    exact List.mem_append_left _ List.mem_cons_self
  · rfl

/-- An import leads to itself without the locator being asked exactly when styles are kept under
it. -/
theorem resolve_eq_self_iff {state : BuildState} {path : String} {importer : Option FilePath} :
    (plugin.reply state (.resolve path importer) = .ok (.resolved (some path)) ∧
      ∀ package folder, .located package folder ∉
        (plugin.perform state (.resolve path importer)).events) ↔
      ∃ css, state.assets.find? path = some css := by
  rw [← Option.isSome_iff_exists]
  change (_ ∧ ∀ package folder, _ ∉ (plugin.resolve state path importer).events) ↔
    state.assets.contains path = true
  change ((plugin.resolve state path importer).result = _ ∧ _) ↔ _
  unfold resolve
  split
  · rename_i hkept
    exact iff_of_true ⟨rfl, fun package folder => List.not_mem_nil⟩ hkept
  · rename_i hkept
    refine iff_of_false ?_ hkept
    rintro ⟨hresult, hevents⟩
    cases importer with
    | none => simp at hresult
    | some importer =>
      rw [Run.events_bind_pure] at hevents
      rw [Run.result_bind, resolve_unresolved_of_not_located hevents] at hresult
      simp [Except.bind, bind, Resolution.path?] at hresult

/-- An import under which no styles are kept is left alone without an importer. -/
theorem reply_resolve_none {state : BuildState} {path : String}
    (h : state.assets.find? path = none) :
    plugin.reply state (.resolve path none) = .ok (.resolved none) := by
  have hkept : state.assets.contains path = false := by rw [AssetStore.contains, h]; rfl
  change (plugin.resolve state path none).result = _
  rw [resolve, hkept]
  rfl

/-- An import under which no styles are kept leads to the entry of its package. -/
theorem reply_resolve_some {state : BuildState} {path : String} (importer : FilePath)
    (h : state.assets.find? path = none) :
    plugin.reply state (.resolve path (some importer)) =
      (Resolution.resolve plugin.locator plugin.manifestField path importer).result.map
        fun answer => .resolved (answer.path?.map FilePath.toString) := by
  have hkept : state.assets.contains path = false := by rw [AssetStore.contains, h]; rfl
  change (plugin.resolve state path (some importer)).result = _
  rw [resolve, hkept]
  simp only [Bool.false_eq_true, ↓reduceIte, Run.result_bind]
  cases (Resolution.resolve plugin.locator plugin.manifestField path importer).result <;> rfl

/-- A transformation that returns no output leaves the state of the build as it is. -/
theorem next_transform_of_no_output {state : BuildState} {code id : String}
    (h : ∀ output, plugin.reply state (.transform code id) ≠ .ok (.transformed (some output))) :
    plugin.next state (.transform code id) = state := by
  have hkept : plugin.keeps? code id = none := by
    unfold keeps?
    split
    · rename_i transformation hresult
      exact absurd (reply_transform_eq_some_iff.mpr ⟨transformation, hresult, rfl⟩)
        (h transformation.output)
    · rfl
  rw [next_transform, hkept]
  rfl

/-- What holds of a plugin after some requests. -/
structure FollowsHistory (plugin : Plugin) (history : List Request) : Prop where
  /-- Loading a path gives the styles that were moved there last. -/
  loads : ∀ path css, plugin.reply (plugin.run {} history) (.load path) =
    .ok (.loaded (some css)) ↔ plugin.LastEmitted history path css
  /-- Loading a path gives nothing when no styles were moved there. -/
  loads_nothing : ∀ path, plugin.reply (plugin.run {} history) (.load path) =
    .ok (.loaded none) ↔ ∀ css, ¬ plugin.LastEmitted history path css
  /-- An import leads to itself without the locator being asked exactly when it can be loaded. -/
  resolves_self : ∀ path importer,
    (plugin.reply (plugin.run {} history) (.resolve path importer) =
        .ok (.resolved (some path)) ∧
      ∀ package folder, .located package folder ∉
        (plugin.perform (plugin.run {} history) (.resolve path importer)).events) ↔
      plugin.reply (plugin.run {} history) (.load path) ≠ .ok (.loaded none)
  /-- Another import is left alone without an importer. -/
  resolves_nothing : ∀ path,
    plugin.reply (plugin.run {} history) (.load path) = .ok (.loaded none) →
      plugin.reply (plugin.run {} history) (.resolve path none) = .ok (.resolved none)
  /-- Another import leads to the entry of its package. -/
  resolves_entry : ∀ path importer,
    plugin.reply (plugin.run {} history) (.load path) = .ok (.loaded none) →
      plugin.reply (plugin.run {} history) (.resolve path (some importer)) =
        (Resolution.resolve plugin.locator plugin.manifestField path importer).result.map
          fun answer => .resolved (answer.path?.map FilePath.toString)
  /-- A transformation that fails or returns nothing leaves the assets and the denials alone. -/
  keeps_nothing : ∀ code id, (∀ output, plugin.reply (plugin.run {} history) (.transform code id) ≠
      .ok (.transformed (some output))) →
    plugin.next (plugin.run {} history) (.transform code id) = plugin.run {} history
  /-- What a transformation gives does not depend on the requests before. -/
  transforms_alike : ∀ code id, plugin.reply (plugin.run {} history) (.transform code id) =
    plugin.reply {} (.transform code id)

/-- Whatever was asked of a plugin, in any order and with any outcome, what it keeps and answers
follows from the requests since the start of the build. -/
theorem followsHistory_run (plugin : Plugin) (history : List Request) :
    plugin.FollowsHistory history := by
  have hloaded (answer : Option Css) (path : String) :
      plugin.reply (plugin.run {} history) (.load path) = .ok (.loaded answer) ↔
        (plugin.run {} history).assets.find? path = answer := by
    simp
  refine ⟨fun path css => ?_, fun path => ?_, fun path importer => ?_, fun path hnone => ?_,
    fun path importer hnone => ?_, fun code id hnone => next_transform_of_no_output hnone,
    fun code id => ?_⟩
  · rw [hloaded, find?_run_eq_some_iff]
  · rw [hloaded, Option.eq_none_iff_forall_ne_some]
    simp only [ne_eq, find?_run_eq_some_iff]
  · rw [resolve_eq_self_iff, ← Option.ne_none_iff_exists', ne_eq, ne_eq, hloaded]
  · exact reply_resolve_none ((hloaded none path).mp hnone)
  · exact reply_resolve_some importer ((hloaded none path).mp hnone)
  · rw [reply_transform, reply_transform]

/-- After a second build, in which a module is transformed again with a component and another module
fails, the styles of the module and of its component are the last ones. -/
theorem followsHistory_run_of_rebuild :
    let plugin : Plugin := {
      options := {}
      compiler := CompilerTable.compiler ⟨[
        ("a.svelte", .ok {
          code := "import {a} from 'svelte/internal'\nexport default A", css := some ⟨"p", none⟩ }),
        ("a__C.svelte", .ok {
          code := "import {a} from 'svelte/internal'\nA__C\nexport default A__C"
          css := some ⟨"q \n", none⟩ }),
        ("b.svelte", .error ⟨"bad", none, none, none⟩)], none⟩
      locator := fun package _ => .error (.notFound package)
      acceptsScript := fun _ => true }
    let history : List Request := [.transform "" "a.svelte", .load "a.css", .buildStart,
      .transform "\x7b#component C\x7dx\x7b/component\x7d" "a.svelte", .transform "" "b.svelte"]
    ∃ css, plugin.FollowsHistory history ∧ plugin.LastEmitted history "a.css" css ∧
      css.code = "p\nq" := by
  intro plugin history
  have hkept : ((plugin.run {} history).assets.find? "a.css").map Css.code = some "p\nq" := by
    decide +kernel
  obtain ⟨css, hfound, hcode⟩ := Option.map_eq_some_iff.mp hkept
  have hfollows := followsHistory_run plugin history
  refine ⟨css, hfollows, (hfollows.loads "a.css" css).mp ?_, hcode⟩
  rw [reply_load, hfound]

end InlineComponents.Plugin
