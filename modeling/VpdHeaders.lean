import VpdHeaders.Fru.Header
import VpdHeaders.Inventory.Header
import VpdHeaders.Yaml.Document
import VpdHeaders.Diff.Unified
import VpdHeaders.Config.File
import VpdHeaders.Path
import VpdHeaders.FileSystem.Basic
import VpdHeaders.FileSystem.Access
import VpdHeaders.FileSystem.Listing
import VpdHeaders.Disk.Basic
import VpdHeaders.Disk.Output
import VpdHeaders.FileSystem.Disk
import VpdHeaders.CommandLine.Grammar
import VpdHeaders.CommandLine.Help
import VpdHeaders.Log.Filter
import VpdHeaders.Report
import VpdHeaders.Main
import VpdHeaders.Proofs.Traced
import VpdHeaders.Proofs.Pointwise
import VpdHeaders.Proofs.Description.Kept
import VpdHeaders.Proofs.Fru.WellFormed
import VpdHeaders.Proofs.Description.Pruned
import VpdHeaders.Proofs.Lenient
import VpdHeaders.Proofs.Text.Fields
import VpdHeaders.Proofs.Text.Blank
import VpdHeaders.Proofs.Text.Joined
import VpdHeaders.Proofs.Identifier.Usable
import VpdHeaders.Proofs.Reference
import VpdHeaders.Proofs.Scope.Spelled
import VpdHeaders.Proofs.Cpp.Scan
import VpdHeaders.Proofs.Cpp.LeadingLiteral
import VpdHeaders.Proofs.Cpp.Frame
import VpdHeaders.Proofs.Cpp.Parts
import VpdHeaders.Proofs.Fru.HeaderReading
import VpdHeaders.Proofs.Fru.Execution
import VpdHeaders.Proofs.Fru.Meaning
import VpdHeaders.Proofs.FileSystem.View
import VpdHeaders.Proofs.FileSystem.Paths
import VpdHeaders.Proofs.FileSystem.Grown
import VpdHeaders.Proofs.FileSystem.Output
import VpdHeaders.Proofs.Run.Header
import VpdHeaders.Proofs.Run.Atomic
import VpdHeaders.Proofs.FileSystem.Progress
import VpdHeaders.Proofs.Text.Bytes
import VpdHeaders.Proofs.FileSystem.Reading
import VpdHeaders.Proofs.Run.Check
import VpdHeaders.Proofs.Fru.Recovered
import VpdHeaders.Proofs.Cpp.Brackets
import VpdHeaders.Proofs.Cpp.Arithmetic
import VpdHeaders.Proofs.Inventory.Expression
import VpdHeaders.Proofs.Inventory.HeaderReading
import VpdHeaders.Proofs.Rearranged
import VpdHeaders.Proofs.Description.Reordered
import VpdHeaders.Proofs.Fru.Reordered
import VpdHeaders.Proofs.Inventory.WellFormed
import VpdHeaders.Proofs.Inventory.Reordered
import VpdHeaders.Proofs.OrderIndependence
import VpdHeaders.Proofs.Description.Appended
import VpdHeaders.Proofs.Independence
import VpdHeaders.Proofs.Description.Violations
import VpdHeaders.Proofs.Fru.Violations
import VpdHeaders.Proofs.FirstViolation
import VpdHeaders.Proofs.Cpp.Lookup
import VpdHeaders.Proofs.StandardLibrary
import VpdHeaders.Proofs.Cpp.NullTerminated
import VpdHeaders.Proofs.Fru.NullTerminated
import VpdHeaders.Proofs.Inventory.NullTerminated
import VpdHeaders.Proofs.NullFree
import VpdHeaders.Proofs.Cpp.Closed
import VpdHeaders.Proofs.ClosedHeaders
import VpdHeaders.Proofs.Text.Lines
import VpdHeaders.Proofs.Fru.LineKind
import VpdHeaders.Proofs.Fru.Lines
import VpdHeaders.Proofs.Description.Outline
import VpdHeaders.Proofs.Accounted
import VpdHeaders.Proofs.Diff.Covers
import VpdHeaders.Proofs.Diff.Compaction
import VpdHeaders.Proofs.Diff.Blocks
import VpdHeaders.Proofs.Diff.Hunks
import VpdHeaders.Proofs.Diff.Lines
import VpdHeaders.Proofs.Diff.Patch
import VpdHeaders.Proofs.Diff.Applied
import VpdHeaders.Proofs.Diff.Printed
import VpdHeaders.Proofs.Diff.Located
import VpdHeaders.Proofs.Diff.Faithful
import VpdHeaders.Proofs.Diff.Colour
import VpdHeaders.Proofs.Identifier.Derived
import VpdHeaders.Proofs.Run.Layers
import VpdHeaders.Proofs.Path.Ancestors
import VpdHeaders.Proofs.FileSystem.Parents
import VpdHeaders.Proofs.FileSystem.AllOrNothing
