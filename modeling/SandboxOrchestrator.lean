import SandboxOrchestrator.Library.LabelledRuns
import SandboxOrchestrator.Library.KeyedTable
import SandboxOrchestrator.Library.Rounding
import SandboxOrchestrator.Models
import SandboxOrchestrator.World
import SandboxOrchestrator.Api
import SandboxOrchestrator.Worker
import SandboxOrchestrator.Reconcile
import SandboxOrchestrator.System
import SandboxOrchestrator.Handlers
import SandboxOrchestrator.WorldLemmas
import SandboxOrchestrator.Steps
import SandboxOrchestrator.Lifecycle
import SandboxOrchestrator.NoResurrection
import SandboxOrchestrator.Provenance
import SandboxOrchestrator.RowFields
import SandboxOrchestrator.History
import SandboxOrchestrator.Posting
import SandboxOrchestrator.LateWrite
import SandboxOrchestrator.Idempotency
import SandboxOrchestrator.Launch
import SandboxOrchestrator.Redelivery
import SandboxOrchestrator.Apart
import SandboxOrchestrator.SweepReads
import SandboxOrchestrator.Vanished
import SandboxOrchestrator.SweepStops
import SandboxOrchestrator.FastPath
import SandboxOrchestrator.LeakFree
import SandboxOrchestrator.Library.Inevitable
import SandboxOrchestrator.Sweep
import SandboxOrchestrator.Admission
import SandboxOrchestrator.StopDurable
import SandboxOrchestrator.StaleReads
import SandboxOrchestrator.Reports
import SandboxOrchestrator.StartAttempt
import SandboxOrchestrator.Library.TimedPaths
import SandboxOrchestrator.JobTimeout
import SandboxOrchestrator.EnsureContainer
import SandboxOrchestrator.Library.PyInt
import SandboxOrchestrator.Labels
import SandboxOrchestrator.ListSandboxes
import SandboxOrchestrator.Scrape
import SandboxOrchestrator.AgeGauge
import SandboxOrchestrator.Rollout
import SandboxOrchestrator.DuplicateAtCap
import SandboxOrchestrator.TryAlone
import SandboxOrchestrator.RetryLadder
import SandboxOrchestrator.CrashShape
import SandboxOrchestrator.CrashRedeliver
import SandboxOrchestrator.ExpiryChecks
import SandboxOrchestrator.Standing
import SandboxOrchestrator.SweepOverlap
import SandboxOrchestrator.Library.ShiftRegister
import SandboxOrchestrator.CanaryShare
import SandboxOrchestrator.WeightRuns
import SandboxOrchestrator.ScrapeAgrees
import SandboxOrchestrator.JobKeys
import SandboxOrchestrator.Attended
import SandboxOrchestrator.Abandoned
import SandboxOrchestrator.Serving
import SandboxOrchestrator.Library.Trails
import SandboxOrchestrator.AuditTrail
import SandboxOrchestrator.SweepEnforces
import SandboxOrchestrator.AnswersKept
import SandboxOrchestrator.Library.TopK
import SandboxOrchestrator.Listing
import SandboxOrchestrator.Ledger
import SandboxOrchestrator.Counters
import SandboxOrchestrator.Library.Polling
import SandboxOrchestrator.WaitReady
import SandboxOrchestrator.TimeToRunning
import SandboxOrchestrator.Library.FairRuns
import SandboxOrchestrator.Progress
import SandboxOrchestrator.StartWork
import SandboxOrchestrator.EndlessRuns
import SandboxOrchestrator.Liveness
