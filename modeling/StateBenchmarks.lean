import StateBenchmarks.MockCl.ReplayProtocol
import StateBenchmarks.MockCl.ReplayChaining
import StateBenchmarks.MockCl.ReplayCsv
import StateBenchmarks.RlpToMocks.RoundTrip
import StateBenchmarks.LoadTests.Retention
import StateBenchmarks.Metrics.Baseline
import StateBenchmarks.Orchestrator.OverlayPristine
import StateBenchmarks.Orchestrator.OverlayHolders
import StateBenchmarks.Orchestrator.LoadTestRecording
import StateBenchmarks.RlpToMocks.Framing
import StateBenchmarks.LoadTests.RecentBlocks
import StateBenchmarks.Control.Traced
import StateBenchmarks.Metrics.Comparison
import StateBenchmarks.Metrics.Gate
import StateBenchmarks.Orchestrator.ConsensusMode
import StateBenchmarks.Orchestrator.OverlayStack
import StateBenchmarks.Orchestrator.DriverProcess
import StateBenchmarks.Orchestrator.OverlayPaths
import StateBenchmarks.MockCl.Recorder
import StateBenchmarks.Templates.KeptSnapshots
import StateBenchmarks.RlpToMocks.Shape
import StateBenchmarks.RlpToMocks.Peek
import StateBenchmarks.RlpToMocks.Slices
import StateBenchmarks.Control.Streak
import StateBenchmarks.Orchestrator.SyncMeasurement
import StateBenchmarks.Orchestrator.SyncConfirmation
import StateBenchmarks.Control.Paced
import StateBenchmarks.LoadTests.TransientFailures
import StateBenchmarks.MockCl.EngineRpc
import StateBenchmarks.MockCl.EngineBudget
import StateBenchmarks.MockCl.PollBound
import StateBenchmarks.Python.DateTime
import StateBenchmarks.Metrics.PreviousMilestone
import StateBenchmarks.MockCl.JwtSecret
import StateBenchmarks.Orchestrator.ConsensusOverride
import StateBenchmarks.Orchestrator.AuxiliaryMeasurements
import StateBenchmarks.MockCl.Pivot
import StateBenchmarks.Orchestrator.MountTable
import StateBenchmarks.Templates.RemovalGuard
import StateBenchmarks.Templates.SweepSummary
import StateBenchmarks.MockCl.ReplayLabels
import StateBenchmarks.Orchestrator.PivotAgreement
import StateBenchmarks.MockCl.Percentile
import StateBenchmarks.Control.Dialogue
import StateBenchmarks.RlpToMocks.Progress
import StateBenchmarks.SeedTestNode.Seed
import StateBenchmarks.SeedTestNode.Chain
import StateBenchmarks.SeedTestNode.Idempotence
import StateBenchmarks.MockCl.ExecutionLayer
import StateBenchmarks.MockCl.ReplayFollowed
import StateBenchmarks.MockCl.ReplayCompletes
import StateBenchmarks.Python.JsonRoundTrip
import StateBenchmarks.RlpToMocks.ReplayedStream
import StateBenchmarks.Python.JsonLines
import StateBenchmarks.MockCl.PayloadFile
import StateBenchmarks.MockCl.JwtToken
import StateBenchmarks.Orchestrator.RemoteCommand
import StateBenchmarks.Shell.Files
import StateBenchmarks.Orchestrator.DbSizeMetric
import StateBenchmarks.Python.Csv
import StateBenchmarks.LoadTests.ProofSizes
import StateBenchmarks.Metrics.Provenance
import StateBenchmarks.LoadTests.TargetAddresses
import StateBenchmarks.Python.ArgParse
import StateBenchmarks.MockCl.CommandLine
import StateBenchmarks.Orchestrator.DriverCommand
import StateBenchmarks.Templates.ConfigFiles
import StateBenchmarks.Templates.Manifest
