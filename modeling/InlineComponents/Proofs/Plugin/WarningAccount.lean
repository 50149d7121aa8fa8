import InlineComponents.Compilation.Table
import InlineComponents.Proofs.Extraction.Components
import InlineComponents.Proofs.Plugin.FailedComponent
import InlineComponents.Proofs.Text.Spans

/-!
# An account of the warnings of a unit

The warnings of a unit are those of the parent and then those of each component, or of its failure,
in source order. Two kinds are dropped: warnings that a component of the unit is not defined, and
warnings about unused styles while styles are not emitted. The host gets what the handler makes of
the others, one after the other.
-/

namespace InlineComponents

open Text

namespace Diagnostic

/-- A warning says that a name is not defined. -/
def ReportsUndefined (name : String) (warning : Diagnostic) : Prop :=
  warning.code = missingDeclaration ∧
    ("'" ++ name ++ "' is not defined").toList <+: warning.message.toList

instance (name : String) (warning : Diagnostic) : Decidable (warning.ReportsUndefined name) :=
  inferInstanceAs (Decidable (_ ∧ _))

/-- A name is read up to the next quote. -/
theorem readName?_eq_some_iff {text name after : Text} :
    readName? text = some (name, after) ↔
      name ≠ [] ∧ '\'' ∉ name ∧ text = name ++ '\'' :: after := by
  obtain ⟨front, back, rfl, hfront, hback⟩ := exists_stretch (· ≠ '\'') text
  have hquote : '\'' ∉ front := fun hmem => by simpa using List.all_eq_true.mp hfront _ hmem
  rw [readName?, takeWhile_stretch hfront hback, dropWhile_stretch hfront hback]
  cases back with
  | nil =>
    refine iff_of_false (by cases front <;> simp) ?_
    rintro ⟨-, -, heq⟩
    rw [List.append_nil] at heq
    exact hquote (by simp [heq])
  | cons c rest =>
    obtain rfl : c = '\'' := by simpa using stops_cons.mp hback
    cases front with
    | nil =>
      refine iff_of_false (by simp) ?_
      rintro ⟨hne, hname, heq⟩
      obtain ⟨first, others, rfl⟩ := List.exists_cons_of_ne_nil hne
      obtain ⟨rfl, -⟩ := List.cons.inj heq
      exact hname List.mem_cons_self
    | cons first others =>
      constructor
      · rintro h
        obtain ⟨rfl, rfl⟩ := Prod.mk.inj (Option.some.inj h)
        exact ⟨List.cons_ne_nil _ _, hquote, rfl⟩
      · rintro ⟨-, hname, heq⟩
        obtain ⟨rfl, rfl⟩ := cut_unique hquote hname heq
        rfl

/-- The name in a message stands between quotes at its front. -/
theorem nameInMessage?_eq_some_iff {message name : Text} :
    nameInMessage? message = some name ↔
      name ≠ [] ∧ '\'' ∉ name ∧ '\'' :: name ++ "' is not defined".toList <+: message := by
  constructor
  · intro h
    unfold nameInMessage? at h
    split at h
    · rename_i rest
      split at h
      · rename_i read after hread
        split at h
        · rename_i hafter
          obtain rfl := Option.some.inj h
          obtain ⟨hne, hquote, rfl⟩ := readName?_eq_some_iff.mp hread
          obtain ⟨behind, rfl⟩ := startsWith_iff.mp hafter
          exact ⟨hne, hquote, behind, by simp⟩
        · contradiction
      · contradiction
    · contradiction
  · rintro ⟨hne, hquote, behind, rfl⟩
    have hread : readName? (name ++ ("' is not defined".toList ++ behind)) =
        some (name, " is not defined".toList ++ behind) :=
      readName?_eq_some_iff.mpr ⟨hne, hquote, rfl⟩
    have hafter : startsWith " is not defined".toList (" is not defined".toList ++ behind) = true :=
      startsWith_iff.mpr ⟨behind, rfl⟩
    rw [List.cons_append, List.cons_append, List.append_assoc, nameInMessage?, hread]
    exact if_pos hafter

/-- A warning is about names without quotes exactly when it says that one of them is not defined. -/
theorem isAbout_iff {names : List String} {warning : Diagnostic}
    (h : ∀ name ∈ names, name.toList ≠ [] ∧ '\'' ∉ name.toList) :
    warning.isAbout names = true ↔ ∃ name ∈ names, warning.ReportsUndefined name := by
  have hundeclared (name : String) (hname : name ∈ names) :
      warning.undeclaredName? = some name ↔ warning.ReportsUndefined name := by
    have hmessage : (nameInMessage? warning.message.toList).map String.ofList = some name ↔
        ("'" ++ name ++ "' is not defined").toList <+: warning.message.toList := by
      rw [Option.map_eq_some_iff, String.toList_append, String.toList_append]
      constructor
      · rintro ⟨text, htext, rfl⟩
        have hname : (String.ofList text).toList = text := String.toList_ofList
        rw [hname]
        exact (nameInMessage?_eq_some_iff.mp htext).2.2
      · intro hprefix
        obtain ⟨hne, hquote⟩ := h name hname
        exact ⟨name.toList, nameInMessage?_eq_some_iff.mpr ⟨hne, hquote, hprefix⟩,
          String.ofList_toList⟩
    rw [undeclaredName?, ReportsUndefined, Option.ite_none_right_eq_some, hmessage]
  rw [isAbout, Option.any_eq_true]
  constructor
  · rintro ⟨name, hname, hcontained⟩
    have hmem : name ∈ names := List.contains_iff_mem.mp hcontained
    exact ⟨name, hmem, (hundeclared name hmem).mp hname⟩
  · rintro ⟨name, hmem, hreports⟩
    exact ⟨name, (hundeclared name hmem).mpr hreports, List.contains_iff_mem.mpr hmem⟩

end Diagnostic

namespace ComponentCompilation

/-- What compiling a component gives to report: its own warnings, with its file name where they have
none, or its failure. -/
def reported (compilation : ComponentCompilation) : List Diagnostic :=
  match compilation.outcome with
  | .ok module =>
    module.warnings.map (·.withDefaultFilename compilation.component.syntheticFilename.toString)
  | .error error => [compilation.component.failureWarning error]

/-- The warnings about a component are what is reported, without what is void. -/
theorem warnings_eq_reconcile (names : List String) (compilation : ComponentCompilation) :
    compilation.warnings names = Diagnostic.reconcile names compilation.reported := by
  obtain ⟨component, outcome⟩ := compilation
  cases outcome with
  | error error => rfl
  | ok module => exact (Diagnostic.reconcile_map_withDefaultFilename _ _ _).symm

end ComponentCompilation

namespace UnitCompilation

/-- What compiling a unit gives to report. -/
def reported (unit : UnitCompilation) : List Diagnostic :=
  unit.parent.warnings ++ unit.components.flatMap (·.reported)

/-- The warnings about a unit are what is reported, without what is void. -/
theorem warnings_eq_reconcile (unit : UnitCompilation) :
    unit.warnings = Diagnostic.reconcile unit.names unit.reported := by
  rw [warnings, reported, Diagnostic.reconcile, Diagnostic.reconcile, List.filter_append,
    List.filter_flatMap]
  simp only [ComponentCompilation.warnings_eq_reconcile]
  rfl

end UnitCompilation

namespace Plugin

/-- A warning reaches the handler, in a unit with components of these names: it does not say that
one of them is not defined, nor that a style is unused while styles are not emitted. -/
def Passes (plugin : Plugin) (names : List String) (warning : Diagnostic) : Prop :=
  (¬ ∃ name ∈ names, warning.ReportsUndefined name) ∧
    ¬ (plugin.options.emitCss = false ∧ warning.code = Diagnostic.unusedSelector)

instance (plugin : Plugin) (names : List String) (warning : Diagnostic) :
    Decidable (plugin.Passes names warning) :=
  inferInstanceAs (Decidable (_ ∧ _))

variable {plugin : Plugin} {code id : String}

/-- A failure is always passed on. -/
theorem passes_failureWarning (names : List String) (component : InlineComponent)
    (error : CompileError) : plugin.Passes names (component.failureWarning error) := by
  have hmissing : Diagnostic.compileFailed ≠ Diagnostic.missingDeclaration := by decide
  have hunused : Diagnostic.compileFailed ≠ Diagnostic.unusedSelector := by decide
  refine ⟨?_, ?_⟩
  · rintro ⟨name, -, hcode, -⟩
    exact hmissing hcode
  · rintro ⟨-, hcode⟩
    exact hunused hcode

/-- The warnings that are delivered are the answers of the handler to what is reported and
passes. -/
theorem deliver_eq_flatMap {unit : UnitCompilation}
    (h : ∀ name ∈ unit.names, name.toList ≠ [] ∧ '\'' ∉ name.toList) :
    plugin.deliver unit =
      (unit.reported.filter (plugin.Passes unit.names)).flatMap plugin.handler := by
  rw [deliver, Diagnostic.deliver, unit.warnings_eq_reconcile, Diagnostic.reconcile,
    List.filter_filter]
  refine congrArg (List.flatMap plugin.handler) (List.filter_congr fun warning _ => ?_)
  rw [Bool.eq_iff_iff, Bool.and_eq_true, Bool.not_eq_true', ← Bool.not_eq_true, Bool.not_eq_true',
    ← Bool.not_eq_true, Diagnostic.isAbout_iff h, and_comm, decide_eq_true_eq]
  refine and_congr_right fun _ => not_congr ?_
  rw [Diagnostic.isWithheld, Bool.and_eq_true, Bool.not_eq_true', beq_iff_eq]

/-- What compiling a parent and its components gives to report. -/
def reported (plugin : Plugin) (options : CompileOptions) (parent : CompiledModule)
    (components : List InlineComponent) : List Diagnostic :=
  parent.warnings ++ components.flatMap fun component => ComponentCompilation.reported
    ⟨component, plugin.compiler.compile component.body (options.forFile component.syntheticFilename)⟩

/-- What a transformation delivers of the warnings about a parent and the components of a source. -/
structure AccountsForWarnings (plugin : Plugin) (options : CompileOptions) (parent : CompiledModule)
    (extraction : Extraction) (delivered : List Diagnostic) : Prop where
  /-- The host gets the answers of the handler to what is reported of the parent, and then of each
  component in source order, as far as it passes. -/
  delivered_eq : delivered = ((plugin.reported options parent extraction.components).filter
    (plugin.Passes extraction.names)).flatMap plugin.handler
  /-- Without a handler the host gets just what passes. -/
  forwarded : plugin.handler = .forwardAll →
    delivered = (plugin.reported options parent extraction.components).filter
      (plugin.Passes extraction.names)
  /-- No failure is held back. -/
  passes_failure : ∀ component ∈ extraction.components, ∀ error,
    plugin.Passes extraction.names (component.failureWarning error)

/-- The names of the components of a source are not empty and hold no quotes. -/
theorem quotable_of_mem_names {source : String} {file : FilePath} {extraction : Extraction}
    (h : Extraction.extract source file = .ok extraction) :
    ∀ name ∈ extraction.names, name.toList ≠ [] ∧ '\'' ∉ name.toList := by
  intro name hname
  obtain ⟨component, hcomponent, rfl⟩ := List.mem_map.mp hname
  have hvalid := Extraction.isValidName_of_mem h hcomponent
  exact ⟨Marker.ne_nil_of_isValidName hvalid, fun hquote =>
    absurd (Marker.isAlphanum_of_isValidName hvalid _ hquote) (by decide)⟩

/-- Whatever a transformation returns, every warning about its unit is accounted for. -/
theorem accountsForWarnings {transformation : Transformation}
    (h : (plugin.transform code id).result = .ok (some transformation)) :
    ∃ prepared extraction parent,
      let options := { plugin.options.compileOptions (.ofString id) with sourcemap := prepared.map }
      (plugin.prepare code id).result = .ok prepared ∧
      Extraction.extract prepared.code (.ofString id) = .ok extraction ∧
      plugin.compiler.compile extraction.source options = .ok parent ∧
      plugin.AccountsForWarnings options parent extraction transformation.output.warnings := by
  obtain ⟨stages, rfl⟩ := transform_eq_ok_some_iff.mp h
  obtain ⟨parent, hparent, hunit⟩ :=
    UnitCompilation.result_compile_eq_ok_iff.mp stages.compile_eq
  have hnames : stages.unit.names = stages.extraction.names := by
    rw [hunit, UnitCompilation.names, List.map_map]
    rfl
  have hreported : stages.unit.reported = plugin.reported
      { plugin.options.compileOptions (.ofString id) with sourcemap := stages.prepared.map } parent
      stages.extraction.components := by
    rw [hunit, UnitCompilation.reported, List.flatMap_map, reported]
  have hdelivered : plugin.deliver stages.unit = _ :=
    deliver_eq_flatMap (hnames ▸ quotable_of_mem_names stages.extract_eq)
  rw [hnames, hreported] at hdelivered
  refine ⟨stages.prepared, stages.extraction, parent, stages.prepare_eq, stages.extract_eq, hparent,
    hdelivered, fun hhandler => ?_, fun component _ error => passes_failureWarning _ component error⟩
  rw [hhandler] at hdelivered
  exact hdelivered.trans (List.flatMap_singleton' _)

/-- A parent with a block that compiles and one that does not, and a handler that forwards one kind
twice. The warning about the name of a block is dropped, a warning that names a file keeps it, and
the failure is reported once. -/
theorem accountsForWarnings_of_two_blocks :
    let plugin : Plugin := {
      options := {}
      compiler := CompilerTable.compiler ⟨[
        ("App.svelte", .ok {
          code := "import { a } from \"svelte/internal\";\nexport default App;"
          warnings := [⟨"missing-declaration", "'Card' is not defined", none, none, none, none⟩,
            ⟨"missing-declaration", "'Other' is not defined", none, none, none, none⟩] }),
        ("App__Card.svelte", .ok {
          code := "import { a } from \"svelte/internal\";\nApp__Card;\nexport default App__Card;"
          warnings := [⟨"a", "first", none, none, none, none⟩,
            ⟨"b", "second", some "x", none, none, none⟩] }),
        ("App__Row.svelte", .error ⟨"bad", none, none, none⟩)], none⟩
      locator := fun package _ => .error (.notFound package)
      handler := .ofRules { twice := ["a"] }
      acceptsScript := fun _ => true }
    let delivered : List Diagnostic := [
      ⟨"missing-declaration", "'Other' is not defined", none, none, none, none⟩,
      ⟨"a", "first", some "App__Card.svelte", none, none, none⟩,
      ⟨"a", "first", some "App__Card.svelte", none, none, none⟩,
      ⟨"b", "second", some "x", none, none, none⟩,
      ⟨"subcomponent-compile-failed", "sub-component \"Row\" failed to compile: bad",
        some "App__Row.svelte", none, none, none⟩]
    let code := "\x7b#component Card\x7da\x7b/component\x7d" ++
      "\x7b#component Row\x7db\x7b/component\x7d"
    ∃ transformation options parent extraction,
      (plugin.transform code "App.svelte").result = .ok (some transformation) ∧
      transformation.output.warnings = delivered ∧
      plugin.AccountsForWarnings options parent extraction delivered := by
  intro plugin delivered code
  obtain ⟨transformation, hresult, hdelivered⟩ := exists_transformation_of_map plugin code
    "App.svelte" (·.output.warnings) delivered (by decide +kernel)
  obtain ⟨_, extraction, parent, -, -, -, haccount⟩ := accountsForWarnings hresult
  rw [hdelivered] at haccount
  exact ⟨transformation, _, parent, extraction, hresult, hdelivered, haccount⟩

end Plugin

end InlineComponents
