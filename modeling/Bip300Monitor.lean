import Bip300Monitor.Foundations.Runs
import Bip300Monitor.Foundations.Transaction
import Bip300Monitor.Foundations.Resumption
import Bip300Monitor.Store.Schema
import Bip300Monitor.Failure
import Bip300Monitor.Protobuf
import Bip300Monitor.Foundations.RecursiveQuery
import Bip300Monitor.Store.Evidence
import Bip300Monitor.Store.EventTable
import Bip300Monitor.Store.Certification
import Bip300Monitor.Store.History
import Bip300Monitor.Store.Health
import Bip300Monitor.Store.Fees
import Bip300Monitor.Store.CertifiedPrefix
import Bip300Monitor.Backfill.Engine
import Bip300Monitor.Backfill.Descent
import Bip300Monitor.Backfill.Pages
import Bip300Monitor.Backfill.Import
import Bip300Monitor.Backfill.Durable
import Bip300Monitor.Backfill.Loop
import Bip300Monitor.Backfill.Calls
import Bip300Monitor.Backfill.Agreement
import Bip300Monitor.Backfill.Quarantine
import Bip300Monitor.Backfill.Resumability
import Bip300Monitor.Store.Effects
import Bip300Monitor.Store.Conflicts
import Bip300Monitor.Store.Ledger
import Bip300Monitor.Store.CurrentSet
import Bip300Monitor.Store.CaptureSequences
import Bip300Monitor.Store.Fencing
import Bip300Monitor.Runtime.Readings
import Bip300Monitor.Runtime.Convert
import Bip300Monitor.Runtime.Refresh
import Bip300Monitor.Store.HistoryPages
import Bip300Monitor.Backfill.Cursor
import Bip300Monitor.Store.BlockFacts
import Bip300Monitor.Runtime.Recordings
import Bip300Monitor.Foundations.CommitOrder
import Bip300Monitor.Store.WriteOrder
import Bip300Monitor.Runtime.TipWriters
import Bip300Monitor.Runtime.MonitorSidechains
import Bip300Monitor.Store.WorkerRows
import Bip300Monitor.Runtime.BackfillSidechains
import Bip300Monitor.Runtime.QuarantineHealth
import Bip300Monitor.Backfill.Frame
import Bip300Monitor.Backfill.Rounds
import Bip300Monitor.Backfill.FailedRepair
import Bip300Monitor.Backfill.Termination
import Bip300Monitor.Backfill.Rooted
import Bip300Monitor.Backfill.PinnedRecord
import Bip300Monitor.Backfill.PinnedStart
import Bip300Monitor.Store.Additions
import Bip300Monitor.Runtime.Collectors
import Bip300Monitor.Runtime.InstanceTags
import Bip300Monitor.Runtime.NodeClient
import Bip300Monitor.Backfill.NodeWalk
import Bip300Monitor.Backfill.NodePages
import Bip300Monitor.Store.FeeJobs
import Bip300Monitor.Store.BmmCandidates
import Bip300Monitor.Runtime.FeeMonitor
import Bip300Monitor.Runtime.FeeScheduling
import Bip300Monitor.Runtime.FeeEvidence
import Bip300Monitor.Runtime.FeeFinality
import Bip300Monitor.Json
import Bip300Monitor.EventLogger.Format
import Bip300Monitor.Runtime.MainchainEvents
import Bip300Monitor.EventLogger.Agreement
import Bip300Monitor.Runtime.HistoryOwners
import Bip300Monitor.Foundations.Retries
import Bip300Monitor.Runtime.BmmSamples
import Bip300Monitor.Runtime.Retries
import Bip300Monitor.Runtime.FeeAmounts
import Bip300Monitor.Texts
import Bip300Monitor.Foundations.KeyedTables
import Bip300Monitor.Store.InstanceRows
import Bip300Monitor.Rendering
import Bip300Monitor.Store.WorkerHealth
import Bip300Monitor.Foundations.Performed
import Bip300Monitor.Foundations.Watchdog
import Bip300Monitor.Runtime.StateRefresh
import Bip300Monitor.Runtime.StreamWatchdog
import Bip300Monitor.Runtime.Startup
import Bip300Monitor.Backfill.PageSizes
import Bip300Monitor.Foundations.Following
import Bip300Monitor.Runtime.Gaps
import Bip300Monitor.Runtime.Boundaries
import Bip300Monitor.Foundations.LossyQueue
import Bip300Monitor.Runtime.Recorder
import Bip300Monitor.EventLogger.Live
import Bip300Monitor.Runtime.Handover
import Bip300Monitor.Store.Connect
import Bip300Monitor.Backfill.Completion
import Bip300Monitor.Runtime.NodeHealth
