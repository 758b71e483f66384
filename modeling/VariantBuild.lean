import VariantBuild.Main
import VariantBuild.Selection.Notices
import VariantBuild.Proofs.FlagSet.Comparison
import VariantBuild.Proofs.Selection.Attempt
import VariantBuild.Proofs.Selection.Restarts
import VariantBuild.Proofs.Selection.Settled
import VariantBuild.Proofs.Selection.Accounting
import VariantBuild.Proofs.Selection.Divergence
import VariantBuild.Proofs.Selection.Confluence
import VariantBuild.Proofs.ObjectKey.Collision
import VariantBuild.Proofs.Path.Components
import VariantBuild.Proofs.ObjectKey.Placement
import VariantBuild.Proofs.ObjectKey.Variants
import VariantBuild.Proofs.ObjectKey.Switches
import VariantBuild.Proofs.ObjectKey.Size
import VariantBuild.Proofs.Except
import VariantBuild.Proofs.Build.Calls
import VariantBuild.Proofs.Build.Plan
import VariantBuild.Proofs.Build.Phases
import VariantBuild.Proofs.Disk.Directories
import VariantBuild.Proofs.Disk.Writing
import VariantBuild.Proofs.Build.Freshness
import VariantBuild.Proofs.Build.Linked
import VariantBuild.Proofs.Selection.Replay
import VariantBuild.Proofs.Disk.Shape
import VariantBuild.Proofs.Selection.Edits
import VariantBuild.Proofs.Build.WorkingDirectory
import VariantBuild.Proofs.Build.History
import VariantBuild.Proofs.Build.Switching
import VariantBuild.Proofs.Json.Numbers
import VariantBuild.Proofs.Json.RoundTrip
import VariantBuild.Proofs.Manifest.RoundTrip
import VariantBuild.Proofs.Activity
import VariantBuild.Proofs.Manifest.Saving
import VariantBuild.Proofs.Dependency.Rescan
import VariantBuild.Proofs.Build.Remade
import VariantBuild.Proofs.Build.Retry
import VariantBuild.Proofs.Selection.Directed
import VariantBuild.Proofs.Selection.Foreign
import VariantBuild.Proofs.Variant.CommandWidths
import VariantBuild.Proofs.Disk.Removing
import VariantBuild.Proofs.Build.Cleaning
import VariantBuild.Proofs.Variant.Switches
import VariantBuild.Proofs.Variant.Lineage
import VariantBuild.Proofs.Build.Batches
import VariantBuild.Proofs.Dependency.Layout
import VariantBuild.Proofs.ObjectKey.Tracking
import VariantBuild.Proofs.Staleness.FirstFault
import VariantBuild.Proofs.Config.Layers
import VariantBuild.Proofs.FlagSet.Schedules
import VariantBuild.Proofs.Config.Shapes
import VariantBuild.Proofs.Config.Faults
import VariantBuild.Proofs.Config.Reports
