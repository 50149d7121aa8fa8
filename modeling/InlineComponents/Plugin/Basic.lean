import InlineComponents.Diagnostics.Delivery
import InlineComponents.Options
import InlineComponents.OutputContract
import InlineComponents.Package.Resolution
import InlineComponents.Styles.Asset

/-!
# Plugins and the state of a build

A plugin is made once from its options and the services it uses. What lives as long as one build
is the styles that wait to be loaded and the packages that hide their manifests.
-/

namespace InlineComponents

/-- A plugin: its options and the services it uses. The manifest field is the one that names the
entry of a package, and a script is accepted if it is a valid one. -/
structure Plugin where
  options : PluginOptions
  compiler : ComponentCompiler
  locator : ManifestLocator
  contract : OutputContract := {}
  manifestField : String := "svelte"
  handler : WarningHandler := .forwardAll
  acceptsScript : Text → Bool

/-- What lives as long as one build: the styles that were moved out of modules, and the packages
that hide their manifests. -/
structure BuildState where
  assets : AssetStore := {}
  denials : Denials := {}
  deriving BEq, Repr

/-- Whether a plugin takes a module: its filter accepts the id, and the extension is one of a
component. -/
def Plugin.handles (plugin : Plugin) (id : String) : Bool :=
  plugin.options.filter.accepts id &&
    plugin.options.handlesExtension (.ofString id)

end InlineComponents
