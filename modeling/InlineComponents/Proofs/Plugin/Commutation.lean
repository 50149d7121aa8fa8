import InlineComponents.Compilation.Table
import InlineComponents.Proofs.Plugin.AssetHistory
import InlineComponents.Proofs.Styles.AssetPath

/-!
# Two transformations in either order

A transformation gives the same output whatever was transformed before. What it leaves behind is its
asset, and the asset of a second module takes its place exactly when both modules have one asset
path. That is decided by the ids alone: they agree up to the last dot of their names. Ids that
differ in nothing but their extensions, or in idle pieces at their ends, do share an asset, so that
of the styles of two such modules only those transformed last are kept.
-/

namespace InlineComponents.Plugin

variable {plugin : Plugin}

/-- The styles of two transformations cannot both be kept: their modules share an asset, both have
styles, and the styles differ. -/
def Collide (firstId secondId : String) (first second : Transformation) : Prop :=
  StyleAsset.SharedBy firstId secondId ∧ ∃ one other, first.asset = some one ∧
    second.asset = some other ∧ one.css ≠ other.css

/-- Assets agree when they have the same styles if they have the same path. -/
def AssetsAgree (first second : Option StyleAsset) : Prop :=
  ∀ one other, first = some one → second = some other → one.path = other.path → one.css = other.css

/-- Agreement of assets is symmetric. -/
theorem AssetsAgree.symm {first second : Option StyleAsset} (h : AssetsAgree first second) :
    AssetsAgree second first :=
  fun other one hother hone hpath => (h one other hone hother hpath.symm).symm

/-- What a transformation keeps is its asset. -/
theorem keptBy?_transform {code id : String} {transformation : Transformation}
    (h : (plugin.transform code id).result = .ok (some transformation)) :
    plugin.keptBy? (.transform code id) = transformation.asset := by
  rw [keptBy?, keeps?, h]

/-- The asset of a transformation has the path that belongs to its id. -/
theorem path_of_asset {code id : String} {transformation : Transformation} {asset : StyleAsset}
    (h : (plugin.transform code id).result = .ok (some transformation))
    (hasset : transformation.asset = some asset) : asset.path = StyleAsset.pathFor id := by
  have hkept : plugin.keeps? code id = some asset := by rw [← hasset, ← keptBy?_transform h, keptBy?]
  have hemits := keeps?_eq_some_iff.mp hkept
  generalize asset.path = path at hemits ⊢
  cases hemits
  rfl

/-- A module that is transformed has an extension that the plugin handles. -/
theorem handlesExtension_of_transform {code id : String} {transformation : Transformation}
    (h : (plugin.transform code id).result = .ok (some transformation)) :
    plugin.options.handlesExtension (.ofString id) = true := by
  obtain ⟨stages, -⟩ := transform_eq_ok_some_iff.mp h
  exact (Bool.and_eq_true_iff.mp stages.handles).2

/-- What is kept under a path after two transformations. -/
theorem find?_run_pair (plugin : Plugin) (state : BuildState) (code₁ id₁ code₂ id₂ path : String) :
    (plugin.run state [.transform code₁ id₁, .transform code₂ id₂]).assets.find? path =
      (((plugin.keptBy? (.transform code₂ id₂)).filter (·.path = path)).map (·.css)).or
        ((((plugin.keptBy? (.transform code₁ id₁)).filter (·.path = path)).map (·.css)).or
          (state.assets.find? path)) := by
  change (plugin.next (plugin.next state _) _).assets.find? path = _
  rw [find?_next plugin _ (by simp), find?_next plugin _ (by simp)]

/-- The styles of an asset are still kept after another one exactly when the two agree. -/
theorem kept_iff_assetsAgree {first second : Option StyleAsset} {kept : String → Option Css} :
    (∀ asset, first = some asset →
      ((second.filter (·.path = asset.path)).map (·.css)).or
        (((first.filter (·.path = asset.path)).map (·.css)).or (kept asset.path)) =
          some asset.css) ↔ AssetsAgree first second := by
  constructor
  · intro h one other hone hother hpath
    have := h one hone
    rw [hone, hother] at this
    simpa [Option.filter, hpath, eq_comm] using this
  · intro h asset hasset
    subst hasset
    cases second with
    | none => simp [Option.filter]
    | some other =>
      by_cases hpath : other.path = asset.path
      · simp [Option.filter, hpath, h asset other rfl rfl hpath.symm]
      · simp [Option.filter, hpath]

/-- Two assets can be kept in either order exactly when they agree. -/
theorem kept_alike_iff_assetsAgree {first second : Option StyleAsset}
    {kept : String → Option Css} :
    (∀ path, ((second.filter (·.path = path)).map (·.css)).or
        (((first.filter (·.path = path)).map (·.css)).or (kept path)) =
      ((first.filter (·.path = path)).map (·.css)).or
        (((second.filter (·.path = path)).map (·.css)).or (kept path))) ↔
      AssetsAgree first second := by
  constructor
  · intro h one other hone hother hpath
    have := h one.path
    rw [hone, hother] at this
    simpa [Option.filter, hpath, eq_comm] using this
  · intro h path
    cases hfirst : (first.filter (·.path = path)).map (·.css) with
    | none => simp
    | some css =>
      cases hsecond : (second.filter (·.path = path)).map (·.css) with
      | none => simp
      | some other =>
        simp only [Option.map_eq_some_iff, Option.filter_eq_some_iff, decide_eq_true_eq]
          at hfirst hsecond
        obtain ⟨one, ⟨hone, rfl⟩, rfl⟩ := hfirst
        obtain ⟨two, ⟨htwo, hpath⟩, rfl⟩ := hsecond
        rw [h one two hone htwo hpath.symm]

/-- What a transformation answers does not depend on the state of the build. -/
theorem reply_transform_of_result {code id : String} {transformation : Transformation}
    (h : (plugin.transform code id).result = .ok (some transformation)) (state : BuildState) :
    plugin.reply state (.transform code id) =
      .ok (.transformed (some transformation.output)) := by
  rw [reply_transform, h]
  rfl

/-- Transformations note no package. -/
theorem denials_run_pair (state : BuildState) (code₁ id₁ code₂ id₂ : String) :
    (plugin.run state [.transform code₁ id₁, .transform code₂ id₂]).denials = state.denials := by
  change (plugin.next (plugin.next state _) _).denials = _
  rw [next_transform, next_transform]
  rfl

section Pair

variable {state : BuildState} {code₁ id₁ code₂ id₂ : String} {first second : Transformation}

/-- Two transformations do not collide exactly when their assets agree. -/
theorem not_collide_iff (hfirst : (plugin.transform code₁ id₁).result = .ok (some first))
    (hsecond : (plugin.transform code₂ id₂).result = .ok (some second)) :
    ¬ Collide id₁ id₂ first second ↔ AssetsAgree first.asset second.asset := by
  have hshared := StyleAsset.pathFor_eq_iff
    (PluginOptions.isSome_of_handlesExtension (handlesExtension_of_transform hfirst))
    (PluginOptions.isSome_of_handlesExtension (handlesExtension_of_transform hsecond))
  rw [Collide, ← hshared]
  constructor
  · intro h one other hone hother hpath
    by_contra hcss
    rw [path_of_asset hfirst hone, path_of_asset hsecond hother] at hpath
    exact h ⟨hpath, one, other, hone, hother, hcss⟩
  · rintro h ⟨hpath, one, other, hone, hother, hcss⟩
    rw [← path_of_asset hfirst hone, ← path_of_asset hsecond hother] at hpath
    exact hcss (h one other hone hother hpath)

/-- The styles of a transformation outlast another one exactly when their assets agree. -/
theorem outlasts_iff (hfirst : (plugin.transform code₁ id₁).result = .ok (some first))
    (hsecond : (plugin.transform code₂ id₂).result = .ok (some second)) :
    (∀ asset, first.asset = some asset →
      (plugin.run state [.transform code₁ id₁, .transform code₂ id₂]).assets.find? asset.path =
        some asset.css) ↔ AssetsAgree first.asset second.asset := by
  simp only [find?_run_pair, keptBy?_transform hfirst, keptBy?_transform hsecond]
  exact kept_iff_assetsAgree

/-- Two transformations keep the same styles in either order exactly when their assets agree. -/
theorem assets_alike_iff (hfirst : (plugin.transform code₁ id₁).result = .ok (some first))
    (hsecond : (plugin.transform code₂ id₂).result = .ok (some second)) :
    (∀ path,
      (plugin.run state [.transform code₁ id₁, .transform code₂ id₂]).assets.find? path =
        (plugin.run state [.transform code₂ id₂, .transform code₁ id₁]).assets.find? path) ↔
      AssetsAgree first.asset second.asset := by
  simp only [find?_run_pair, keptBy?_transform hfirst, keptBy?_transform hsecond]
  exact kept_alike_iff_assetsAgree

end Pair

/-- What comes of two transformations, one after the other in either order. -/
structure Interplay (plugin : Plugin) (state : BuildState) (code₁ id₁ code₂ id₂ : String)
    (first second : Transformation) : Prop where
  /-- The first module becomes the same before and after the second. -/
  first_alike : plugin.reply state (.transform code₁ id₁) =
      .ok (.transformed (some first.output)) ∧
    plugin.reply (plugin.next state (.transform code₂ id₂)) (.transform code₁ id₁) =
      .ok (.transformed (some first.output))
  /-- The second module becomes the same before and after the first. -/
  second_alike : plugin.reply state (.transform code₂ id₂) =
      .ok (.transformed (some second.output)) ∧
    plugin.reply (plugin.next state (.transform code₁ id₁)) (.transform code₂ id₂) =
      .ok (.transformed (some second.output))
  /-- No package is noted in either order. -/
  denials_alike :
    (plugin.run state [.transform code₁ id₁, .transform code₂ id₂]).denials = state.denials ∧
      (plugin.run state [.transform code₂ id₂, .transform code₁ id₁]).denials = state.denials
  /-- The same styles are kept in either order exactly when the two do not collide. -/
  assets_alike_iff : (∀ path,
    (plugin.run state [.transform code₁ id₁, .transform code₂ id₂]).assets.find? path =
      (plugin.run state [.transform code₂ id₂, .transform code₁ id₁]).assets.find? path) ↔
    ¬ Collide id₁ id₂ first second
  /-- The styles of the first outlast the second exactly when the two do not collide. -/
  first_outlasts_iff : (∀ asset, first.asset = some asset →
    (plugin.run state [.transform code₁ id₁, .transform code₂ id₂]).assets.find? asset.path =
      some asset.css) ↔ ¬ Collide id₁ id₂ first second
  /-- The styles of the second outlast the first exactly when the two do not collide. -/
  second_outlasts_iff : (∀ asset, second.asset = some asset →
    (plugin.run state [.transform code₂ id₂, .transform code₁ id₁]).assets.find? asset.path =
      some asset.css) ↔ ¬ Collide id₁ id₂ first second
  /-- With a single extension and no idle pieces at their ends, different ids do not collide. -/
  apart : ∀ extension, plugin.options.extensions = [extension] →
    (∀ id ∈ [id₁, id₂], ∀ cut, (FilePath.ofString id).extensionCut? = some cut →
      cut.behind = []) → id₁ ≠ id₂ → ¬ Collide id₁ id₂ first second

/-- Two transformations commute, in what they give and in what is kept after them, exactly when they
do not collide. -/
theorem transforms_interplay (state : BuildState) {code₁ id₁ code₂ id₂ : String}
    {first second : Transformation}
    (hfirst : (plugin.transform code₁ id₁).result = .ok (some first))
    (hsecond : (plugin.transform code₂ id₂).result = .ok (some second)) :
    Interplay plugin state code₁ id₁ code₂ id₂ first second where
  first_alike := ⟨reply_transform_of_result hfirst _, reply_transform_of_result hfirst _⟩
  second_alike := ⟨reply_transform_of_result hsecond _, reply_transform_of_result hsecond _⟩
  denials_alike := ⟨denials_run_pair .., denials_run_pair ..⟩
  assets_alike_iff := (assets_alike_iff hfirst hsecond).trans (not_collide_iff hfirst hsecond).symm
  first_outlasts_iff := (outlasts_iff hfirst hsecond).trans (not_collide_iff hfirst hsecond).symm
  second_outlasts_iff := by
    rw [outlasts_iff hsecond hfirst, not_collide_iff hfirst hsecond]
    exact ⟨AssetsAgree.symm, AssetsAgree.symm⟩
  apart := by
    rintro extension hextensions hplain hne ⟨hsame, -⟩
    exact hne (StyleAsset.eq_of_sharedBy hextensions (handlesExtension_of_transform hfirst)
      (handlesExtension_of_transform hsecond) hplain hsame)

/-- Two modules of one name and two handled extensions: the order decides whose styles are kept. -/
theorem transforms_interplay_of_two_extensions :
    let plugin : Plugin := {
      options := { extensions := [".svelte", ".svx"] }
      compiler := CompilerTable.compiler ⟨[
        ("a/App.svelte", .ok { code := "m", css := some ⟨"p", none⟩ }),
        ("a/App.svx", .ok { code := "n", css := some ⟨"q", none⟩ })], none⟩
      locator := fun package _ => .error (.notFound package)
      acceptsScript := fun _ => true }
    ∃ first second,
      (plugin.transform "" "a/App.svelte").result = .ok (some first) ∧
      (plugin.transform "" "a/App.svx").result = .ok (some second) ∧
      Collide "a/App.svelte" "a/App.svx" first second ∧
      ¬ ∀ path,
        (plugin.run {} [.transform "" "a/App.svelte", .transform "" "a/App.svx"]).assets.find? path =
          (plugin.run {} [.transform "" "a/App.svx",
            .transform "" "a/App.svelte"]).assets.find? path := by
  intro plugin
  obtain ⟨first, hfirst, hstyles⟩ := exists_transformation_of_map plugin "" "a/App.svelte"
    (fun transformation => transformation.asset.map (·.css.code)) (some "p") (by decide +kernel)
  obtain ⟨second, hsecond, hothers⟩ := exists_transformation_of_map plugin "" "a/App.svx"
    (fun transformation => transformation.asset.map (·.css.code)) (some "q") (by decide +kernel)
  obtain ⟨one, hone, hcode⟩ := Option.map_eq_some_iff.mp hstyles
  obtain ⟨other, hother, hcode'⟩ := Option.map_eq_some_iff.mp hothers
  have hcollide : Collide "a/App.svelte" "a/App.svx" first second := by
    refine ⟨⟨_, _, rfl, rfl, by decide +kernel, by decide +kernel⟩, one, other, hone, hother, ?_⟩
    intro hcss
    rw [hcss, hcode'] at hcode
    exact absurd hcode (by decide)
  refine ⟨first, second, hfirst, hsecond, hcollide, fun halike => ?_⟩
  exact (transforms_interplay {} hfirst hsecond).assets_alike_iff.mp halike hcollide

end InlineComponents.Plugin
