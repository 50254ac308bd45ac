import ExtensionHost.Boundary.Exports
import ExtensionHost.Boundary.Methods
import ExtensionHost.Box.Growth
import ExtensionHost.Box.View
import ExtensionHost.Extension.Sample
import ExtensionHost.Lifecycle
import ExtensionHost.Object.Registry
import ExtensionHost.Proofs.Argument.Interchange
import ExtensionHost.Proofs.Argument.Pairs
import ExtensionHost.Proofs.Argument.RoundTrip
import ExtensionHost.Proofs.Boundary.Containers
import ExtensionHost.Proofs.Boundary.Conversions
import ExtensionHost.Proofs.Boundary.Growth
import ExtensionHost.Proofs.Format.Extraction
import ExtensionHost.Proofs.Format.Grammar
import ExtensionHost.Proofs.Method.Arity
import ExtensionHost.Proofs.Method.Table
import ExtensionHost.Proofs.Object.Traffic
import ExtensionHost.Proofs.Storage.Balance
import ExtensionHost.Proofs.Storage.Census
import ExtensionHost.Proofs.Storage.DoubleRelease
import ExtensionHost.Proofs.Storage.Drift
import ExtensionHost.Proofs.Storage.Fallback
import ExtensionHost.Proofs.Storage.Footprint
import ExtensionHost.Proofs.Storage.Growth
import ExtensionHost.Proofs.Storage.Isolation
import ExtensionHost.Proofs.Storage.Resizing
import ExtensionHost.Proofs.Storage.Reuse
import ExtensionHost.Proofs.Upkeep.Rollback
import ExtensionHost.Proofs.Upkeep.Room
import ExtensionHost.Proofs.Upkeep.Texts
import ExtensionHost.Session.Recipe
import ExtensionHost.Storage.Machine
