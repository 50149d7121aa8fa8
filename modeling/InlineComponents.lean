import InlineComponents.Compilation.Table
import InlineComponents.OutlineCompiler
import InlineComponents.Plugin.Session
import InlineComponents.Proofs.Linking.OrderIndependence
import InlineComponents.Proofs.Linking.ParentNames
import InlineComponents.Proofs.Linking.WrappedImports
import InlineComponents.Proofs.Package.Queries
import InlineComponents.Proofs.Plugin.Commutation
import InlineComponents.Proofs.Plugin.OutlineAgreement
import InlineComponents.Proofs.Plugin.WarningAccount
import InlineComponents.Script.Module
import InlineComponents.Wire.Types
import InlineComponents.Proofs.Json.Fields
import InlineComponents.Proofs.Wire.Record
import InlineComponents.Proofs.Wire.Stability
import InlineComponents.Proofs.Json.Reading
import InlineComponents.Proofs.Options.Forwarding
import InlineComponents.Proofs.Extraction.Partition
import InlineComponents.Proofs.Extraction.FirstFault
import InlineComponents.Proofs.Plugin.CompiledSources
import InlineComponents.Proofs.Linking.Completeness
import InlineComponents.Proofs.Imports.Layout
import InlineComponents.Proofs.Imports.RuntimeReadings
import InlineComponents.Proofs.Imports.RoundTrip
import InlineComponents.Proofs.Package.NearestManifest
import InlineComponents.Proofs.Glob
import InlineComponents.Proofs.Styles.Merging
import InlineComponents.Proofs.Styles.NamedAsset
import InlineComponents.Proofs.Imports.StaticImport
