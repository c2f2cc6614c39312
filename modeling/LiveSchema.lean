import LiveSchema.Base
import LiveSchema.Calendar
import LiveSchema.Checksum
import LiveSchema.CommandLine.Arguments
import LiveSchema.CommandLine.Commands
import LiveSchema.CommandLine.Failure
import LiveSchema.CommandLine.Paths
import LiveSchema.Compile.Batch
import LiveSchema.Compile.Error
import LiveSchema.CompiledType
import LiveSchema.Config
import LiveSchema.Decimal.Notation
import LiveSchema.Decimal.Shortest
import LiveSchema.Definition.Basic
import LiveSchema.Definition.Encoding
import LiveSchema.Definition.Source
import LiveSchema.Definition.Store
import LiveSchema.DerivedCaches
import LiveSchema.Emission
import LiveSchema.Engine
import LiveSchema.Entity
import LiveSchema.Files.Fault
import LiveSchema.Files.Layout
import LiveSchema.Files.Path
import LiveSchema.Files.SettingsDirectory
import LiveSchema.Files.Workspace
import LiveSchema.Generation
import LiveSchema.Hierarchy
import LiveSchema.Identifier
import LiveSchema.Index.Catalog
import LiveSchema.Index.Key
import LiveSchema.Index.Ledger
import LiveSchema.Index.Succession
import LiveSchema.Index.Sweep
import LiveSchema.Index.Synchronizer
import LiveSchema.Json.Basic
import LiveSchema.Json.Decode
import LiveSchema.Json.Document
import LiveSchema.Json.Fault
import LiveSchema.Json.Numeral
import LiveSchema.Json.Printer
import LiveSchema.Json.Reader
import LiveSchema.Lineage
import LiveSchema.Main
import LiveSchema.Proofs.Compile.Acceptance
import LiveSchema.Proofs.Compile.Arrangement
import LiveSchema.Proofs.Compile.Batch
import LiveSchema.Proofs.Compile.Building
import LiveSchema.Proofs.Compile.Inheritance
import LiveSchema.Proofs.Compile.Links
import LiveSchema.Proofs.Compile.Loop
import LiveSchema.Proofs.Compile.Merge
import LiveSchema.Proofs.Compile.ViewReport
import LiveSchema.Proofs.Compile.Violations
import LiveSchema.Proofs.Definition.Annotations
import LiveSchema.Proofs.Definition.Files
import LiveSchema.Proofs.Definition.Store
import LiveSchema.Proofs.DerivedCaches
import LiveSchema.Proofs.DerivedCaches.Readers
import LiveSchema.Proofs.Emission
import LiveSchema.Proofs.Emission.Report
import LiveSchema.Proofs.Engine.Indexes
import LiveSchema.Proofs.Engine.Overrides
import LiveSchema.Proofs.Engine.Reachable
import LiveSchema.Proofs.Engine.Reload
import LiveSchema.Proofs.Engine.Restart
import LiveSchema.Proofs.Engine.SingleFlight
import LiveSchema.Proofs.Entity
import LiveSchema.Proofs.Entity.Substitution
import LiveSchema.Proofs.Files.Path
import LiveSchema.Proofs.Generation
import LiveSchema.Proofs.Hierarchy
import LiveSchema.Proofs.Hierarchy.Agreement
import LiveSchema.Proofs.Hierarchy.Chains
import LiveSchema.Proofs.Hierarchy.Delivery
import LiveSchema.Proofs.History
import LiveSchema.Proofs.Index.Accord
import LiveSchema.Proofs.Index.Agenda
import LiveSchema.Proofs.Index.Coalescing
import LiveSchema.Proofs.Index.Convergence
import LiveSchema.Proofs.Index.Drain
import LiveSchema.Proofs.Index.Ledger
import LiveSchema.Proofs.Index.Queue
import LiveSchema.Proofs.Index.Resumption
import LiveSchema.Proofs.Index.Scans
import LiveSchema.Proofs.Index.Stages
import LiveSchema.Proofs.Index.Sweep
import LiveSchema.Proofs.Index.Units
import LiveSchema.Proofs.Index.Unreadable
import LiveSchema.Proofs.Index.Upkeep
import LiveSchema.Proofs.Index.Wanted
import LiveSchema.Proofs.Lineage
import LiveSchema.Proofs.Lineage.BuildOrder
import LiveSchema.Proofs.Lineage.Components
import LiveSchema.Proofs.PropertyType.Grammar
import LiveSchema.Proofs.PropertyType.Malformed
import LiveSchema.Proofs.PropertyType.Reading
import LiveSchema.Proofs.PropertyType.RoundTrip
import LiveSchema.Proofs.Registry
import LiveSchema.Proofs.Registry.Memoization
import LiveSchema.Proofs.Registry.Subscribers
import LiveSchema.Proofs.Registry.Subtyping
import LiveSchema.Proofs.Reload.Flight
import LiveSchema.Proofs.Reload.Run
import LiveSchema.Proofs.Settings
import LiveSchema.Proofs.Settings.Backends
import LiveSchema.Proofs.SortedMap
import LiveSchema.Proofs.Text.Bytes
import LiveSchema.Proofs.Text.Order
import LiveSchema.PropertyType.Accepts
import LiveSchema.PropertyType.Basic
import LiveSchema.PropertyType.Encoding
import LiveSchema.PropertyType.Parser
import LiveSchema.Registry
import LiveSchema.Reload.Coordinator
import LiveSchema.Reload.Flight
import LiveSchema.Reload.Outcome
import LiveSchema.Report.Basic
import LiveSchema.Report.Table
import LiveSchema.RunGuard
import LiveSchema.Settings.Basic
import LiveSchema.Settings.Encoding
import LiveSchema.Settings.StorageType
import LiveSchema.SortedMap
import LiveSchema.SourceUnit
import LiveSchema.Text.Blank
import LiveSchema.Text.Bytes
import LiveSchema.Text.Columns
import LiveSchema.Text.Digits
import LiveSchema.Text.Emoji
import LiveSchema.Text.Glyph
import LiveSchema.Text.Quoted
import LiveSchema.Text.Ranges
import LiveSchema.Text.Unprintable
import LiveSchema.Text.Width
