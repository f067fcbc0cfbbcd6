import PlatformBundle.Artifact
import PlatformBundle.Batch
import PlatformBundle.BundleConfig
import PlatformBundle.Closure
import PlatformBundle.ConfigModule
import PlatformBundle.Decimal.Shortest
import PlatformBundle.Disk.Call
import PlatformBundle.Disk.Cause
import PlatformBundle.Disk.Lookup
import PlatformBundle.Disk.Operations
import PlatformBundle.Disk.Tree
import PlatformBundle.Fault
import PlatformBundle.Files
import PlatformBundle.Input
import PlatformBundle.Json.Number
import PlatformBundle.Json.Printer
import PlatformBundle.Json.Reader
import PlatformBundle.Json.Record
import PlatformBundle.Json.Term
import PlatformBundle.Json.Value
import PlatformBundle.KeyMap
import PlatformBundle.Manifest
import PlatformBundle.Npm
import PlatformBundle.Package
import PlatformBundle.Path
import PlatformBundle.Platform
import PlatformBundle.Pool
import PlatformBundle.Process
import PlatformBundle.Registry
import PlatformBundle.Rehearsal
import PlatformBundle.Report
import PlatformBundle.Settings.Basic
import PlatformBundle.Settings.File
import PlatformBundle.Shell.Command
import PlatformBundle.Shell.Effect
import PlatformBundle.Shell.Evaluation
import PlatformBundle.Shell.Expansion
import PlatformBundle.Shell.FileUtility
import PlatformBundle.Shell.Format
import PlatformBundle.Shell.Launch
import PlatformBundle.Shell.Pattern
import PlatformBundle.Shell.Program
import PlatformBundle.Shell.Script
import PlatformBundle.Shell.Session
import PlatformBundle.Shell.Sum
import PlatformBundle.Shell.TextUtility
import PlatformBundle.Shell.Token
import PlatformBundle.Shell.Utility
import PlatformBundle.Staging
import PlatformBundle.Stitch
import PlatformBundle.Task
import PlatformBundle.Text.Blank
import PlatformBundle.Text.Lines
import PlatformBundle.Text.Pieces
import PlatformBundle.Text.Replace
import PlatformBundle.Text.Template
import PlatformBundle.Text.Utf8
import PlatformBundle.Text.Word
import PlatformBundle.Toml.Item
import PlatformBundle.Toml.Reader
import PlatformBundle.Toml.Record
import PlatformBundle.Toml.Scalar
import PlatformBundle.ToolLine
import PlatformBundle.ToolSearch
import PlatformBundle.Version
import PlatformBundle.Webpack
import PlatformBundle.World
import PlatformBundle.Proofs.BuiltSettings
import PlatformBundle.Proofs.ClassRuns
import PlatformBundle.Proofs.NamespaceSharing
import PlatformBundle.Proofs.RewrittenChunks
import PlatformBundle.Proofs.BundlingOutcome
import PlatformBundle.Proofs.BatchEnds
import PlatformBundle.Proofs.StageSteps
import PlatformBundle.Proofs.FailStop
import PlatformBundle.Proofs.Paths
import PlatformBundle.Proofs.TreeChanges
import PlatformBundle.Proofs.DiskOutcomes
import PlatformBundle.Proofs.DiskSteps
import PlatformBundle.Proofs.StagingRoot
import PlatformBundle.Proofs.PackageNames
import PlatformBundle.Proofs.SourceNames
import PlatformBundle.Proofs.StagedSources
import PlatformBundle.Proofs.RootNames
import PlatformBundle.Proofs.BundleSteps
import PlatformBundle.Proofs.ToolContracts
import PlatformBundle.Proofs.EmittedChunks
import PlatformBundle.Proofs.EntryArtifacts
import PlatformBundle.Proofs.DiskGrowth
import PlatformBundle.Proofs.PackageDirectories
import PlatformBundle.Proofs.KeyMaps
import PlatformBundle.Proofs.StagedManifests
import PlatformBundle.Proofs.ClosureCheck
import PlatformBundle.Proofs.ClosureGate
import PlatformBundle.Proofs.JsonReading
import PlatformBundle.Proofs.ManifestFiles
import PlatformBundle.Proofs.StagedBatches
import PlatformBundle.Proofs.SideBySide
import PlatformBundle.Proofs.OwnWork
import PlatformBundle.Proofs.Interleaving
import PlatformBundle.Proofs.SharedWorlds
import PlatformBundle.Proofs.MissingBase
import PlatformBundle.Proofs.FirstCalls
import PlatformBundle.Proofs.Latecomers
import PlatformBundle.Proofs.ParallelBatches
import PlatformBundle.Proofs.ConfinedTools
import PlatformBundle.Proofs.StitchedFiles
import PlatformBundle.Proofs.WrittenFiles
import PlatformBundle.Proofs.SpelledPlaces
import PlatformBundle.Proofs.ContainedStaging
import PlatformBundle.Proofs.OpenWays
import PlatformBundle.Proofs.TwinDisks
import PlatformBundle.Proofs.Pieces
import PlatformBundle.Proofs.StagedPieces
import PlatformBundle.Proofs.FileOrder
import PlatformBundle.Proofs.ClearedOutput
import PlatformBundle.Proofs.FitRoots
import PlatformBundle.Proofs.FreshOutput
import PlatformBundle.Proofs.PlatformRoots
import PlatformBundle.Proofs.CodeBearers
import PlatformBundle.Proofs.OverlappingBatches
import PlatformBundle.Proofs.FailingDisks
import PlatformBundle.Proofs.FirstRunReset
import PlatformBundle.Proofs.ByteOrder
import PlatformBundle.Proofs.Attribution
import PlatformBundle.Proofs.VerifiedOutputs
import PlatformBundle.Proofs.ChunkPlaces
import PlatformBundle.Proofs.LocalPackages
import PlatformBundle.Proofs.KeptSources
import PlatformBundle.Proofs.PathSteps
import PlatformBundle.Proofs.EarlyDirectories
import PlatformBundle.Proofs.InertFiles
import PlatformBundle.Proofs.BundleHistories
import PlatformBundle.Proofs.WideLayout
import PlatformBundle.Proofs.ModuleSlots
import PlatformBundle.Proofs.StreamLines
import PlatformBundle.Proofs.StreamedOutput
import PlatformBundle.Proofs.CapturedReports
import PlatformBundle.Proofs.Trimming
import PlatformBundle.Proofs.VersionGrammar
import PlatformBundle.Proofs.Constraints
import PlatformBundle.Proofs.StartedPrograms
import PlatformBundle.Proofs.UnknownKeys
import PlatformBundle.Proofs.WrittenPaths
import PlatformBundle.Proofs.FileExtensions
