import Selfevals.Lib.Run
import Selfevals.Lib.Result
import Selfevals.Lib.Loop
import Selfevals.Lib.Effects
import Selfevals.Lib.JsonValue
import Selfevals.Lib.PyInt
import Selfevals.Lib.PyStr
import Selfevals.Lib.Sql
import Selfevals.Lib.SqlJoin
import Selfevals.Lib.ForeignKeys
import Selfevals.Lib.Mapping
import Selfevals.Lib.Interleaving
import Selfevals.Schemas.Base
import Selfevals.Schemas.Job
import Selfevals.Schemas.Enums
import Selfevals.Schemas.Experiments
import Selfevals.Repo.Loader.Models
import Selfevals.Repo.Loader.Agent
import Selfevals.Repo.Loader.Datasets
import Selfevals.Repo.Loader.GraderParams
import Selfevals.Repo.Loader.Funnel
import Selfevals.Repo.Loader.Graders
import Selfevals.Repo.Loader.Specs
import Selfevals.Repo.Loader.SpecRoundTrip
import Selfevals.Storage.Entity
import Selfevals.Storage.Concurrency
import Selfevals.Storage.WorkspaceScopes
import Selfevals.Storage.Tables
import Selfevals.Schemas.Datasets
import Selfevals.Schemas.Iterations
import Selfevals.Storage.DatasetStore
import Selfevals.Storage.TraceMetrics
import Selfevals.Repo.Datasets
import Selfevals.Storage.Columns
import Selfevals.Storage.ExperimentMapper
import Selfevals.Storage.ExperimentRoundTrip
import Selfevals.Storage.ScenarioQueries
import Selfevals.Api.RunJobs
import Selfevals.Api.JobSystem
import Selfevals.Api.RetrySafety
import Selfevals.Api.LeaseExclusion
import Selfevals.Api.TerminalAbsorption
import Selfevals.Api.AttemptBudget
import Selfevals.Api.RunLaunches
import Selfevals.Runner.ExperimentStates
import Selfevals.Graders.Base
import Selfevals.Graders.Confusion
import Selfevals.Graders.Select
import Selfevals.Optimization.Aggregator
import Selfevals.Optimization.AggregateOrder
import Selfevals.Optimization.ScenarioOutcomes
import Selfevals.Optimization.Coordinator
import Selfevals.Optimization.IterationLoop
import Selfevals.Reporter.StoredReports
import Selfevals.Worker.LeaseSweeper
import Selfevals.Worker.ScenarioRunner
import Selfevals.Worker.ScenarioBudget
import Selfevals.Worker.ScenarioLeases
import Selfevals.Worker.ScenarioDrain
import Selfevals.Runner.LaunchDatasets
import Selfevals.Api.DatasetWriter
import Selfevals.Api.DatasetSystem
import Selfevals.Api.FrozenDatasets
import Selfevals.Api.ExperimentCases
import Selfevals.Runner.DatasetResolution
import Selfevals.Api.ManifestIdentity
import Selfevals.Graders.Registry
import Selfevals.Runner.LaunchGraders
import Selfevals.Optimization.CaseGraders
import Selfevals.Decision.Matrix
import Selfevals.Optimization.CaseOutcomes
import Selfevals.Optimization.PassMetrics
import Selfevals.Optimization.Repetitions
import Selfevals.Runner.Baseline
import Selfevals.Runner.OtlpToRecorder
import Selfevals.Trace.Recorder
import Selfevals.Runner.OtlpRuns
import Selfevals.Runner.OtlpReceiver
import Selfevals.Lib.RateWindow
import Selfevals.Runner.Throttle
import Selfevals.Runner.LaunchAdapters
import Selfevals.Worker.RunRateLimit
import Selfevals.Api.RunExecution
import Selfevals.Api.RunRecords
import Selfevals.Ci.Regression
import Selfevals.Runner.Retry
import Selfevals.Trace.Context
import Selfevals.Graders.Classification
import Selfevals.Optimization.ConfusionCells
import Selfevals.Optimization.ConversationAccounting
import Selfevals.Api.ResultsGrid
import Selfevals.Schemas.Arenas
import Selfevals.Arena.Rounds
import Selfevals.Worker.RunStream
import Selfevals.Api.Sse
import Selfevals.Api.Broker
import Selfevals.Api.RedisBroker
import Selfevals.Lib.Relational
import Selfevals.Schemas.TraceRecords
import Selfevals.Storage.TraceMapper
import Selfevals.Storage.EntityRows
import Selfevals.Storage.TraceRoundTrip
import Selfevals.Schemas.IterationRecords
import Selfevals.Storage.IterationMapper
import Selfevals.Storage.IterationRoundTrip
import Selfevals.Storage.RecordRoundTrip
import Selfevals.Lib.PointerChains
import Selfevals.Schemas.FailureModes
import Selfevals.Api.FailureModeOps
import Selfevals.Trace.OtelLinking
import Selfevals.Analysis.Ingest
import Selfevals.Analysis.IngestPhases
import Selfevals.Analysis.IngestLaws
import Selfevals.Optimization.GridProposer
import Selfevals.Optimization.OptimizationRun
import Selfevals.Optimization.GridCoverage
import Selfevals.Api.SpanDelivery
import Selfevals.Api.SpanDeliveryLaws
import Selfevals.Lib.FileTree
import Selfevals.Storage.ObjectStore
import Selfevals.Storage.ObjectIsolation
import Selfevals.Lib.Base64
import Selfevals.Api.Tokens
import Selfevals.Runner.Executors
import Selfevals.Runner.MultiTurn
import Selfevals.Optimization.Proposers
import Selfevals.Optimization.CoordinatorRestart
import Selfevals.Lib.GreedyMatching
import Selfevals.Runner.PairwiseTournament
import Selfevals.Optimization.PrimaryGrader
import Selfevals.Lib.TokenAccount
import Selfevals.Runner.BucketWaiters
import Selfevals.Runner.RedisThrottle
import Selfevals.Optimization.Convergence
import Selfevals.Lib.WeightedVote
import Selfevals.Graders.PanelConsensus
import Selfevals.Graders.JudgePanel
import Selfevals.Lib.JsonPath
import Selfevals.Graders.SelectLoop
import Selfevals.Lib.Regex
import Selfevals.Graders.DoubleValue
import Selfevals.Runner.PairwiseCalibration
import Selfevals.Arena.CostEstimate
import Selfevals.Api.AppendAtomicity
import Selfevals.Graders.ConfusionLaws
import Selfevals.Optimization.PassOrdering
import Selfevals.Lib.Apportionment
import Selfevals.Optimization.Sampling
import Selfevals.Graders.Funnels
import Selfevals.Optimization.FunnelRollup
import Selfevals.Lib.PairedComparison
import Selfevals.Optimization.Rankings
import Selfevals.Optimization.BradleyTerry
import Selfevals.Optimization.EloRatings
import Selfevals.Lib.OpponentDraws
import Selfevals.Optimization.Pairing
import Selfevals.Lib.Floats
import Selfevals.Graders.Pairwise
import Selfevals.Runner.SimulatedThreads
import Selfevals.Runner.RetryBackoff
import Selfevals.Lib.JsonEquality
import Selfevals.Reporter.ProposalDiff
import Selfevals.Reporter.Compare
import Selfevals.Lib.SetScores
import Selfevals.Graders.SetMatch
import Selfevals.Trace.Programs
import Selfevals.Optimization.HypothesisRuns
import Selfevals.Reporter.PersistedTrees
import Selfevals.Lib.JsonStrings
import Selfevals.Lib.JsonText
import Selfevals.Lib.JsonNumbers
import Selfevals.Lib.CanonicalJson
import Selfevals.Trace.PayloadRouting
import Selfevals.Runner.RoutedPayloads
import Selfevals.Lib.Interpolation
import Selfevals.Optimization.Percentiles
import Selfevals.Graders.Artifact
import Selfevals.Graders.Trajectory
import Selfevals.Graders.LlmJudge
import Selfevals.Trace.OtelImport
import Selfevals.Trace.OtelImportLaws
import Selfevals.Trace.PlainExports
import Selfevals.Schemas.Workspaces
import Selfevals.Lib.Fluents
import Selfevals.Api.Members
import Selfevals.Api.Sessions
import Selfevals.Storage.Migrations
import Selfevals.Storage.MigrationSchemas
import Selfevals.Graders.Deterministic
import Selfevals.Analysis.Bundle
import Selfevals.Analysis.Handshake
