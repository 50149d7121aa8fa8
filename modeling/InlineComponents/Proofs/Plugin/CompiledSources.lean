import InlineComponents.Proofs.Extraction.Seams
import InlineComponents.Proofs.Plugin.Steps

/-!
# What the compiler is asked

A transformation asks the compiler for the cleaned source and, once that compiled, for the body of
each component, in source order and once each. No body holds a marker. So the compiler sees a marker
exactly when one arises in the cleaned source, where a block was deleted.
-/

namespace InlineComponents

open Text

namespace Run

variable {ε α β : Type}

/-- What a run asks the compiler to compile, in order. -/
def asked (run : Run ε α) : List (String × CompileOptions) :=
  run.events.filterMap fun
    | .compiled source options => some (source, options)
    | _ => none

/-- A run without a record asks nothing. -/
@[simp] theorem asked_ofExcept (result : Except ε α) : (ofExcept result).asked = [] := rfl

/-- A run that gives a value asks nothing. -/
@[simp] theorem asked_pure (value : α) : (pure value : Run ε α).asked = [] := rfl

/-- Asking the compiler is one thing asked. -/
@[simp] theorem asked_record_compiled (source : String) (options : CompileOptions) :
    (record (.compiled source options) : Run ε Unit).asked = [(source, options)] := rfl

/-- Writing to the log asks nothing. -/
@[simp] theorem asked_logAll (lines : List LogLine) : (logAll lines : Run ε Unit).asked = [] := by
  refine List.filterMap_eq_nil_iff.mpr fun event hevent => ?_
  obtain ⟨line, -, rfl⟩ := List.mem_map.mp hevent
  rfl

/-- Keeping assets asks nothing. -/
@[simp] theorem asked_recordAll_kept (assets : List StyleAsset) :
    (recordAll (assets.map .kept) : Run ε Unit).asked = [] := by
  refine List.filterMap_eq_nil_iff.mpr fun event hevent => ?_
  obtain ⟨asset, -, rfl⟩ := List.mem_map.mp hevent
  rfl

/-- What the second part asks is asked after the first part, if that succeeds. -/
theorem asked_bind (run : Run ε α) (next : α → Run ε β) :
    (run >>= next).asked = run.asked ++ match run.result with
      | .ok value => (next value).asked
      | .error _ => [] := by
  cases hresult : run.result with
  | error error => rw [asked, events_bind_of_error next hresult, List.append_nil, asked]
  | ok value => rw [asked, events_bind_of_ok next hresult, List.filterMap_append]; rfl

end Run

/-- A component is compiled once, from its body. -/
theorem ComponentCompilation.asked_compile {ε : Type} (compiler : ComponentCompiler)
    (options : CompileOptions) (component : InlineComponent) :
    (compile (ε := ε) compiler options component).asked =
      [(component.body, options.forFile component.syntheticFilename)] := by
  simp only [compile, Run.asked_bind, Run.asked_record_compiled, Run.result_record,
    Run.asked_logAll, Run.result_logAll, Run.asked_pure, List.append_nil]

/-- Compiling a component always gives a compilation. -/
theorem ComponentCompilation.result_compile {ε : Type} (compiler : ComponentCompiler)
    (options : CompileOptions) (component : InlineComponent) :
    (compile (ε := ε) compiler options component).result = .ok ⟨component,
      compiler.compile component.body (options.forFile component.syntheticFilename)⟩ := rfl

namespace UnitCompilation

/-- The bodies of the components are compiled one after the other. -/
theorem asked_compileComponents {ε : Type} (compiler : ComponentCompiler)
    (options : CompileOptions) (components : List InlineComponent) :
    (compileComponents (ε := ε) compiler options components).asked =
      components.map fun component =>
        (component.body, options.forFile component.syntheticFilename) := by
  induction components with
  | nil => rfl
  | cons component rest ih =>
    simp only [compileComponents, Run.asked_bind, ComponentCompilation.asked_compile,
      ComponentCompilation.result_compile, ih, result_compileComponents, Run.asked_pure,
      List.append_nil, List.singleton_append, List.map_cons]

/-- The parent is compiled first, and the components when that succeeded. -/
theorem asked_compile (compiler : ComponentCompiler) (extraction : Extraction)
    (options : CompileOptions) :
    (compile compiler extraction options).asked =
      (extraction.source, options) :: match compiler.compile extraction.source options with
        | .ok _ => extraction.components.map fun component =>
            (component.body, options.forFile component.syntheticFilename)
        | .error _ => [] := by
  simp only [compile, Run.asked_bind, Run.asked_record_compiled, Run.result_record,
    Run.asked_ofExcept, Run.result_ofExcept, asked_compileComponents, result_compileComponents,
    Run.asked_pure, List.append_nil, List.nil_append, List.singleton_append]
  cases compiler.compile extraction.source options <;> rfl

end UnitCompilation

namespace Plugin

variable {plugin : Plugin} {code id : String} {prepared : Preprocessed} {extraction : Extraction}

/-- Preprocessing compiles nothing. -/
theorem asked_prepare (plugin : Plugin) (code id : String) : (plugin.prepare code id).asked = [] := by
  unfold prepare
  split
  · rfl
  · simp only [Run.asked_bind, Run.result_record, Run.asked_ofExcept, List.append_nil]
    rfl

/-- Taking out components compiles nothing. -/
theorem asked_extract (file source : String) : (extract file source).asked = [] := by
  simp only [extract, Run.asked_bind, Run.asked_ofExcept, Run.asked_logAll, Run.asked_pure,
    Run.result_logAll, List.append_nil, List.nil_append]
  split <;> rfl

/-- Linking compiles nothing. -/
theorem asked_link (plugin : Plugin) (id : String) (unit : UnitCompilation) :
    (plugin.link id unit).asked = [] := by
  simp only [link, Run.asked_bind, Run.asked_ofExcept, Run.asked_logAll, Run.asked_pure,
    Run.result_logAll, List.append_nil, List.nil_append]
  split <;> rfl

/-- What a transformation asks the compiler, once the components are taken out. -/
theorem asked_transform (hhandles : plugin.handles id = true)
    (hprepare : (plugin.prepare code id).result = .ok prepared)
    (hextract : Extraction.extract prepared.code (.ofString id) = .ok extraction) :
    (plugin.transform code id).asked = (UnitCompilation.compile plugin.compiler extraction
      { plugin.options.compileOptions (.ofString id) with sourcemap := prepared.map }).asked := by
  have hresult : (extract id prepared.code).result = .ok extraction := by
    simp only [extract, Run.result_bind, Run.result_ofExcept, hextract, mapError_ok,
      Run.result_logAll, Run.result_pure]
    rfl
  have hbehind (run : Run BuildError Transformation) :
      (run >>= fun transformation => pure (some transformation)).asked = run.asked := by
    rw [Run.asked, Run.events_bind_pure, Run.asked]
  rw [transform, if_pos hhandles, hbehind, transformHandled]
  simp only [Run.asked_bind, asked_prepare, hprepare, asked_extract, hresult, List.nil_append,
    asked_link, Run.asked_logAll, Run.result_logAll, Run.asked_recordAll_kept,
    Run.result_recordAll, Run.asked_pure, List.append_nil]
  split
  · split <;> exact List.append_nil _
  · exact List.append_nil _

end Plugin

namespace Extraction

variable {source : String} {filename : FilePath} {extraction : Extraction}

/-- What an extraction leaves of the markers of its source. -/
structure Cleans (source : String) (extraction : Extraction) : Prop where
  /-- The cleaned source holds a marker exactly when one arises where stretches are joined. -/
  free_iff : Marker.Free extraction.source.toList ↔
    ¬ Marker.Arises (keptStretches source.toList 0 extraction.components)
  /-- None does when no brace is left open in front of a block. -/
  free_of_closesBraces :
    (∀ stretch ∈ (keptStretches source.toList 0 extraction.components).dropLast,
      Marker.ClosesBraces stretch) → Marker.Free extraction.source.toList
  /-- A second extraction takes out nothing exactly when the cleaned source holds no marker. -/
  again_iff : ∀ other, extract extraction.source other = .ok ⟨extraction.source, []⟩ ↔
    Marker.Free extraction.source.toList
  /-- The compiler sees no marker in the transformation of a module with this source exactly when
  the cleaned source holds none. -/
  asked_free_iff : ∀ (plugin : Plugin) (code id : String) (prepared : Preprocessed),
    plugin.handles id = true → (plugin.prepare code id).result = .ok prepared →
    prepared.code = source → extract source (.ofString id) = .ok extraction →
      ((∀ request ∈ (plugin.transform code id).asked, Marker.Free request.1.toList) ↔
        Marker.Free extraction.source.toList)

/-- Every extraction cleans its source up to the markers that arise across seams. -/
theorem cleans (h : extract source filename = .ok extraction) : extraction.Cleans source where
  free_iff := free_source_iff h
  free_of_closesBraces hclosed :=
    (free_source_iff h).mpr (Marker.not_arises_of_closesBraces hclosed)
  again_iff _ := extract_eq_self_iff
  asked_free_iff plugin code id prepared hhandles hprepare hsource hextract := by
    subst hsource
    rw [Plugin.asked_transform hhandles hprepare hextract, UnitCompilation.asked_compile]
    constructor
    · exact fun hall => hall _ List.mem_cons_self
    · intro hfree request hrequest
      rcases List.mem_cons.mp hrequest with rfl | hbody
      · exact hfree
      · split at hbody
        · obtain ⟨component, hcomponent, rfl⟩ := List.mem_map.mp hbody
          exact (partitions h).bodies_free component hcomponent
        · contradiction

/-- The front and the back of a marker around a block. -/
theorem cleans_split_marker :
    let source := "\x7b#comp\x7b#component A\x7dx\x7b/component\x7donent B\x7d"
    ∃ extraction, extract source (.ofString "App.svelte") = .ok extraction ∧
      extraction.source = "\x7b#component B\x7d" ∧
      ¬ Marker.Free extraction.source.toList ∧
      extract extraction.source (.ofString "App.svelte") ≠ .ok ⟨extraction.source, []⟩ ∧
      Marker.Arises (keptStretches source.toList 0 extraction.components) := by
  intro source
  have hseen : (extract source (.ofString "App.svelte")).toOption.map (·.source) =
      some "\x7b#component B\x7d" := by decide +kernel
  obtain ⟨extraction, hextract, hcleaned⟩ := exists_of_map_toOption hseen
  have hmarker : ¬ Marker.Free extraction.source.toList := by
    rw [hcleaned]
    decide +kernel
  have hcleans := cleans hextract
  exact ⟨extraction, hextract, hcleaned, hmarker,
    fun hagain => hmarker ((hcleans.again_iff _).mp hagain),
    Classical.not_not.mp fun hnone => hmarker (hcleans.free_iff.mpr hnone)⟩

end Extraction

end InlineComponents
