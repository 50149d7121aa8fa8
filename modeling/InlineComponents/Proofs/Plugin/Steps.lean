import InlineComponents.Plugin.Session
import InlineComponents.Proofs.Linking.Steps

/-!
# The steps of a plugin

What the stages of a transformation have done when it returns output, and what each request does to
the state of the build. Of all that a transformation does, only keeping its asset changes the state,
and nothing behind that can fail, so a transformation either keeps its asset or leaves the state as
it was.
-/

namespace InlineComponents

/-! ### Runs and the state of the build -/

namespace Run

variable {α β : Type}

/-- A run that leaves the state of the build as it is. -/
def IsQuiet (run : Run BuildError α) : Prop :=
  ∀ event ∈ run.events, ∀ state : BuildState, state.after event = state

/-- A run without a record is quiet. -/
theorem isQuiet_ofExcept (result : Except BuildError α) : (ofExcept result).IsQuiet := by
  intro event h
  contradiction

/-- A run that gives a value is quiet. -/
theorem isQuiet_pure (value : α) : (pure value : Run BuildError α).IsQuiet :=
  isQuiet_ofExcept (.ok value)

/-- Writing to the log is quiet. -/
theorem isQuiet_logAll (lines : List LogLine) : (logAll lines : Run BuildError Unit).IsQuiet := by
  intro event h state
  obtain ⟨line, -, rfl⟩ := List.mem_map.mp h
  rfl

/-- Handing on a value leaves no record. -/
theorem events_bind_pure (run : Run BuildError α) (f : α → β) :
    (run >>= fun value => pure (f value)).events = run.events := by
  cases hresult : run.result with
  | error error => rw [events_bind_of_error _ hresult]
  | ok value => rw [events_bind_of_ok _ hresult, events_pure, List.append_nil]

/-- What is quiet to put on record is quiet. -/
theorem isQuiet_record {event : RunEvent} (h : ∀ state : BuildState, state.after event = state) :
    (record event : Run BuildError Unit).IsQuiet := by
  intro other hother
  obtain rfl := List.mem_singleton.mp hother
  exact h

/-- A run in two parts is quiet when both are. -/
theorem IsQuiet.bind {run : Run BuildError α} {next : α → Run BuildError β} (hrun : run.IsQuiet)
    (hnext : ∀ value, (next value).IsQuiet) : (run >>= next).IsQuiet := by
  intro event h
  cases hresult : run.result with
  | error error =>
    rw [events_bind_of_error next hresult] at h
    exact hrun event h
  | ok value =>
    rw [events_bind_of_ok next hresult] at h
    rcases List.mem_append.mp h with hfirst | hsecond
    · exact hrun event hfirst
    · exact hnext value event hsecond

end Run

namespace BuildState

variable {α β : Type}

/-- The state with an asset kept, if there is one. -/
def keep (state : BuildState) (asset : Option StyleAsset) : BuildState :=
  { state with assets := asset.elim state.assets state.assets.insertAsset }

/-- A quiet run leaves the state as it is. -/
theorem afterRun_of_isQuiet {run : Run BuildError α} (h : run.IsQuiet) (state : BuildState) :
    state.afterRun run = state := by
  have hevents : ∀ events : List RunEvent, (∀ event ∈ events, ∀ other : BuildState,
      other.after event = other) → events.foldl after state = state := by
    intro events
    induction events with
    | nil => intro _; rfl
    | cons event rest ih =>
      intro hquiet
      rw [List.foldl_cons, hquiet event List.mem_cons_self]
      exact ih fun other hother => hquiet other (List.mem_cons_of_mem _ hother)
  exact hevents run.events h

/-- After a quiet first part only the second one counts, if it is reached. -/
theorem afterRun_bind_of_isQuiet {run : Run BuildError α} (h : run.IsQuiet)
    (next : α → Run BuildError β) (state : BuildState) :
    state.afterRun (run >>= next) = match run.result with
      | .ok value => state.afterRun (next value)
      | .error _ => state := by
  have hfirst := afterRun_of_isQuiet h state
  cases hresult : run.result with
  | error error =>
    rw [afterRun, Run.events_bind_of_error next hresult]
    exact hfirst
  | ok value =>
    rw [afterRun, Run.events_bind_of_ok next hresult, List.foldl_append]
    exact congrArg (fun middle => (next value).events.foldl after middle) hfirst

end BuildState

namespace Run

/-- A run that keeps the asset of the transformation it returns, and changes nothing else in the
state of the build. If it fails, it changes nothing. -/
def KeepsAsset (run : Run BuildError Transformation) : Prop :=
  ∀ state : BuildState, state.afterRun run = state.keep (match run.result with
    | .ok transformation => transformation.asset
    | .error _ => none)

/-- A quiet first part does not matter. -/
theorem IsQuiet.bind_keepsAsset {α : Type} {run : Run BuildError α}
    {next : α → Run BuildError Transformation} (hrun : run.IsQuiet)
    (hnext : ∀ value, (next value).KeepsAsset) : (run >>= next).KeepsAsset := by
  intro state
  rw [BuildState.afterRun_bind_of_isQuiet hrun, result_bind]
  cases run.result with
  | error error => rfl
  | ok value => exact hnext value state

/-- An asset is kept by putting it on record, and what is written to the log afterwards changes
nothing. -/
theorem keepsAsset_of_kept (transformation : Transformation) (lines : List LogLine) :
    (do
      recordAll (transformation.asset.toList.map .kept)
      logAll lines
      return transformation : Run BuildError Transformation).KeepsAsset := by
  intro state
  have hlog : (logAll lines >>= fun _ => pure transformation : Run BuildError _).IsQuiet :=
    (isQuiet_logAll lines).bind fun _ => isQuiet_pure transformation
  rw [BuildState.afterRun, events_bind_of_ok _ (result_recordAll _), List.foldl_append]
  refine (BuildState.afterRun_of_isQuiet hlog _).trans ?_
  simp only [result_bind, result_recordAll, result_logAll, result_pure]
  change _ = state.keep transformation.asset
  cases transformation.asset <;> rfl

end Run

/-- Compiling components leaves the state of the build as it is. -/
theorem UnitCompilation.isQuiet_compileComponents (compiler : ComponentCompiler)
    (options : CompileOptions) (components : List InlineComponent) :
    (compileComponents compiler options components : Run BuildError _).IsQuiet := by
  induction components with
  | nil => exact Run.isQuiet_pure []
  | cons component rest ih =>
    refine Run.IsQuiet.bind ?_ fun first => ih.bind fun others => Run.isQuiet_pure _
    exact (Run.isQuiet_record fun _ => rfl).bind fun _ =>
      (Run.isQuiet_logAll _).bind fun _ => Run.isQuiet_pure _

/-- Compiling a unit leaves the state of the build as it is. -/
theorem UnitCompilation.isQuiet_compile (compiler : ComponentCompiler) (extraction : Extraction)
    (options : CompileOptions) : (compile compiler extraction options).IsQuiet :=
  (Run.isQuiet_record fun _ => rfl).bind fun _ => (Run.isQuiet_ofExcept _).bind fun _ =>
    (isQuiet_compileComponents compiler options _).bind fun _ => Run.isQuiet_pure _

/-- The parent is compiled from the source without its components, and the components on their
own. -/
theorem UnitCompilation.result_compile (compiler : ComponentCompiler) (extraction : Extraction)
    (options : CompileOptions) :
    (compile compiler extraction options).result =
      ((compiler.compile extraction.source options).mapError
        (BuildError.parentCompile options.filename.toString)).map fun parent =>
          ⟨parent, extraction.components.map fun component => ⟨component,
            compiler.compile component.body (options.forFile component.syntheticFilename)⟩⟩ := by
  simp only [compile, Run.result_bind, Run.result_record, Run.result_ofExcept,
    result_compileComponents, Run.result_pure]
  cases compiler.compile extraction.source options <;> rfl

/-- A unit is compiled when its parent is. -/
theorem UnitCompilation.result_compile_eq_ok_iff {compiler : ComponentCompiler}
    {extraction : Extraction} {options : CompileOptions} {unit : UnitCompilation} :
    (compile compiler extraction options).result = .ok unit ↔
      ∃ parent, compiler.compile extraction.source options = .ok parent ∧
        unit = ⟨parent, extraction.components.map fun component => ⟨component,
          compiler.compile component.body (options.forFile component.syntheticFilename)⟩⟩ := by
  rw [result_compile]
  cases compiler.compile extraction.source options with
  | error error => exact iff_of_false (fun h => by contradiction) (by rintro ⟨_, h, -⟩; contradiction)
  | ok parent => simp [mapError_ok, Except.map, eq_comm]

namespace Plugin

variable {plugin : Plugin} {code id : String}

/-! ### The stages of a transformation -/

/-- What the stages of a transformation have given when it returns output. -/
structure Stages (plugin : Plugin) (code id : String) where
  prepared : Preprocessed
  extraction : Extraction
  unit : UnitCompilation
  linked : CompiledModule
  handles : plugin.handles id = true
  prepare_eq : (plugin.prepare code id).result = .ok prepared
  extract_eq : Extraction.extract prepared.code (.ofString id) = .ok extraction
  compile_eq : (UnitCompilation.compile plugin.compiler extraction
    { plugin.options.compileOptions (.ofString id) with sourcemap := prepared.map }).result =
      .ok unit
  link_eq : unit.parent.splice plugin.acceptsScript plugin.contract unit.children = .ok linked

/-- The transformation that a linked unit makes up. -/
def assemble (plugin : Plugin) (id : String) (dependencies : List FilePath)
    (unit : UnitCompilation) (linked : CompiledModule) : Transformation where
  output := {
    code := ((plugin.asset? id unit).elim linked linked.importing).code
    map := linked.map
    dependencies
    warnings := plugin.deliver unit }
  asset := plugin.asset? id unit

/-- The code that comes out is that of the linked module with an import of the asset, if there is
one. -/
theorem code_assemble (plugin : Plugin) (id : String) (dependencies : List FilePath)
    (unit : UnitCompilation) (linked : CompiledModule) :
    (plugin.assemble id dependencies unit linked).output.code =
      linked.code ++ (plugin.assemble id dependencies unit linked).asset.elim ""
        StyleAsset.importStatement := by
  simp only [assemble]
  cases plugin.asset? id unit with
  | none => exact String.append_empty.symm
  | some asset => rfl

/-- The transformation that the stages make up. -/
def Stages.transformation (stages : Stages plugin code id) : Transformation :=
  plugin.assemble id stages.prepared.dependencies stages.unit stages.linked

/-- A failure is reported under another name, a success is not. -/
theorem mapError_eq_ok_iff {ε ε' α : Type} {result : Except ε α} {f : ε → ε'} {value : α} :
    result.mapError f = .ok value ↔ result = .ok value := by
  cases result <;> simp [mapError_ok, mapError_error]

/-- A transformation returns output exactly when all its stages succeed. -/
theorem transform_eq_ok_some_iff {transformation : Transformation} :
    (plugin.transform code id).result = .ok (some transformation) ↔
      ∃ stages : Stages plugin code id, stages.transformation = transformation := by
  unfold transform
  split
  · rename_i hhandles
    simp only [transformHandled, extract, link, Run.result_bind, bind_eq_ok_iff,
      Run.result_ofExcept, Run.result_logAll, Run.result_recordAll, Run.result_pure,
      mapError_eq_ok_iff, Except.ok.injEq, Option.some.injEq, exists_const, true_and,
      exists_eq_right]
    constructor
    · rintro ⟨prepared, hprepare, extraction, hextract, unit, hcompile, linked, hlink, rfl⟩
      exact ⟨⟨prepared, extraction, unit, linked, hhandles, hprepare, hextract, hcompile, hlink⟩,
        rfl⟩
    · rintro ⟨⟨prepared, extraction, unit, linked, -, hprepare, hextract, hcompile, hlink⟩, rfl⟩
      exact ⟨prepared, hprepare, extraction, hextract, unit, hcompile, linked, hlink, rfl⟩
  · rename_i hhandles
    simp only [Run.result_pure, Except.ok.injEq, reduceCtorEq, false_iff]
    rintro ⟨stages, -⟩
    exact hhandles stages.handles

/-- A transformation that is returned, by one thing that is seen of it. -/
theorem exists_transformation_of_map {β : Type} (plugin : Plugin) (code id : String)
    (f : Transformation → β) (seen : β)
    (h : (plugin.transform code id).result.toOption.join.map f = some seen) :
    ∃ transformation, (plugin.transform code id).result = .ok (some transformation) ∧
      f transformation = seen := by
  obtain ⟨transformation, hjoin, hseen⟩ := Option.map_eq_some_iff.mp h
  refine ⟨transformation, ?_, hseen⟩
  cases hresult : (plugin.transform code id).result with
  | error error => rw [hresult] at hjoin; contradiction
  | ok value =>
    rw [hresult] at hjoin
    exact congrArg Except.ok (Option.some.inj (Option.join_eq_some_iff.mp hjoin))

/-! ### What requests do to the state -/

/-- The asset that a transformation keeps: none if it fails or returns nothing. -/
def keeps? (plugin : Plugin) (code id : String) : Option StyleAsset :=
  match (plugin.transform code id).result with
  | .ok (some transformation) => transformation.asset
  | _ => none

/-- Preprocessing leaves the state of the build as it is. -/
theorem isQuiet_prepare (plugin : Plugin) (code id : String) : (plugin.prepare code id).IsQuiet := by
  unfold prepare
  split
  · exact Run.isQuiet_pure _
  · exact (Run.isQuiet_record fun _ => rfl).bind fun _ => Run.isQuiet_ofExcept _

/-- Taking out components leaves the state of the build as it is. -/
theorem isQuiet_extract (file source : String) : (extract file source).IsQuiet :=
  (Run.isQuiet_ofExcept _).bind fun _ => (Run.isQuiet_logAll _).bind fun _ => Run.isQuiet_pure _

/-- Linking leaves the state of the build as it is. -/
theorem isQuiet_link (plugin : Plugin) (id : String) (unit : UnitCompilation) :
    (plugin.link id unit).IsQuiet :=
  (Run.isQuiet_ofExcept _).bind fun _ => (Run.isQuiet_logAll _).bind fun _ => Run.isQuiet_pure _

/-- A transformation keeps its asset, and a failed one leaves the state of the build as it is. -/
theorem keepsAsset_transformHandled (plugin : Plugin) (code id : String) :
    (plugin.transformHandled code id).KeepsAsset :=
  (isQuiet_prepare plugin code id).bind_keepsAsset fun _ =>
    (isQuiet_extract id _).bind_keepsAsset fun _ =>
      (UnitCompilation.isQuiet_compile plugin.compiler _ _).bind_keepsAsset fun unit =>
        (isQuiet_link plugin id unit).bind_keepsAsset fun _ =>
          (Run.isQuiet_logAll _).bind_keepsAsset fun _ => Run.keepsAsset_of_kept _ _

/-- A transformation keeps its asset when it returns output, and otherwise leaves the state of the
build as it is. -/
theorem next_transform (plugin : Plugin) (state : BuildState) (code id : String) :
    plugin.next state (.transform code id) = state.keep (plugin.keeps? code id) := by
  have hreply : state.afterRun (plugin.perform state (.transform code id)) =
      state.afterRun (plugin.transform code id) := by
    rw [BuildState.afterRun, perform, Run.events_bind_pure]
    rfl
  rw [next, hreply, keeps?, transform]
  split
  · rw [BuildState.afterRun, Run.events_bind_pure, Run.result_bind]
    refine (keepsAsset_transformHandled plugin code id state).trans ?_
    cases (plugin.transformHandled code id).result <;> rfl
  · rfl

/-- The end of a build leaves its state as it is. -/
theorem next_finalize (plugin : Plugin) (state : BuildState) :
    plugin.next state .finalize = state :=
  BuildState.afterRun_of_isQuiet ((Run.isQuiet_logAll _).bind fun _ => Run.isQuiet_pure _) state

/-- A resolution that gives an answer adds what the answer notes to the denials, and one that fails
leaves the state of the build as it is. -/
theorem afterRun_resolve (state : BuildState) (locator : ManifestLocator)
    (field specifier : String) (importer : FilePath) :
    state.afterRun (Resolution.resolve locator field specifier importer) =
      match (Resolution.resolve locator field specifier importer).result with
      | .ok answer => { state with denials := answer.note state.denials }
      | .error _ => state := by
  unfold Resolution.resolve
  split
  · rw [BuildState.afterRun_bind_of_isQuiet (Run.isQuiet_record fun _ => rfl), Run.result_bind]
    simp only [Run.result_record]
    rw [BuildState.afterRun_bind_of_isQuiet (Run.isQuiet_ofExcept _)]
    change _ = match (Run.ofExcept _ >>= _ : Run BuildError Resolution).result with
      | .ok answer => { state with denials := answer.note state.denials }
      | .error _ => state
    rw [Run.result_bind, Run.result_ofExcept]
    split
    · rename_i answer hanswer
      rw [hanswer]
      have hlog : (Run.logAll (answer.logLines specifier) >>= fun _ => pure answer :
          Run BuildError Resolution).IsQuiet :=
        (Run.isQuiet_logAll _).bind fun _ => Run.isQuiet_pure answer
      rw [BuildState.afterRun, Run.events_bind_of_ok _ (Run.result_recordAll _), List.foldl_append]
      refine (BuildState.afterRun_of_isQuiet hlog _).trans ?_
      cases answer <;> rfl
    · rename_i error herror
      rw [herror]
      rfl
  · rfl

/-- Resolving an import leaves the assets as they are. -/
theorem assets_next_resolve (plugin : Plugin) (state : BuildState) (specifier : String)
    (importer : Option FilePath) :
    (plugin.next state (.resolve specifier importer)).assets = state.assets := by
  change (state.afterRun (plugin.resolve state specifier importer)).assets = state.assets
  unfold resolve
  split
  · rfl
  · split
    · rfl
    · rw [BuildState.afterRun, Run.events_bind_pure]
      refine (congrArg BuildState.assets (afterRun_resolve state _ _ _ _)).trans ?_
      split <;> rfl

/-! ### Assets after requests -/

/-- The asset that a request keeps: only transformations keep one. -/
def keptBy? (plugin : Plugin) : Request → Option StyleAsset
  | .transform code id => plugin.keeps? code id
  | .buildStart | .resolve _ _ | .load _ | .finalize => none

/-- What is kept under a path after a request that does not start a build: what the request keeps
there, and otherwise what was there before. -/
theorem find?_next (plugin : Plugin) (state : BuildState) {request : Request}
    (h : request ≠ .buildStart) (path : String) :
    (plugin.next state request).assets.find? path =
      (((plugin.keptBy? request).filter (·.path = path)).map (·.css)).or
        (state.assets.find? path) := by
  cases request with
  | buildStart => contradiction
  | resolve specifier importer => rw [assets_next_resolve]; rfl
  | load id => rfl
  | finalize => rw [next_finalize]; rfl
  | transform code id =>
    rw [next_transform, keptBy?, BuildState.keep]
    cases plugin.keeps? code id with
    | none => rfl
    | some asset =>
      by_cases hpath : asset.path = path
      · subst hpath
        simp [AssetStore.insertAsset, Option.filter]
      · simp [AssetStore.insertAsset, AssetStore.find?_insert_of_ne _ _ (Ne.symm hpath), hpath,
          Option.filter]

end Plugin

end InlineComponents
