import Bip300Monitor.Protobuf
import Bip300Monitor.Failure
import Bip300Monitor.Foundations.Transaction

/-!
# The record

The tables of the Postgres record (`shared/schema/`), as the migrations leave them,
with the columns the modelled statements read or write. A table with a declared key
that statements look rows up by (`history_coverage`) is a partial function of the
key; the others are lists of rows, oldest first. Columns that only say when a row was
written are left out.

A `CHECK` that a type can express is expressed by it: a natural number is not
negative, and the two columns of a block are one value, so neither is null alone.
-/

namespace Bip300Monitor

open Protobuf Transaction

/-! ### The vocabulary of the columns -/

/-- The identity of a dataset or of a run. -/
abbrev Uuid := ℕ

/-- The extractor that writes a row. -/
inductive Source where
  | enforcer | node
  deriving DecidableEq, Repr

/-- How an extractor acquired an observation. -/
inductive CaptureMethod where
  | startup | live | backfill | poll | reconcile
  deriving DecidableEq, Repr

/-- Whether the mainchain tip stayed fixed around a grouped snapshot. -/
inductive SnapshotConsistency where
  | stable | tipMatched | unknown | changed
  deriving DecidableEq, Repr

inductive RunStatus where
  | running | completed | failed
  deriving DecidableEq, Repr

inductive HistoryStatus where
  | running | complete | error | superseded
  deriving DecidableEq, Repr

/-- The status as the `Debug` form prints it. -/
def HistoryStatus.debug : HistoryStatus → String
  | .running => "Running"
  | .complete => "Complete"
  | .error => "Error"
  | .superseded => "Superseded"

/-- The historical streams: per-slot blocks, and the node's blocks. -/
inductive StreamName where
  | block | mainchainBlock
  deriving DecidableEq, Repr

/-- `history_kind`, and the SQL function `history_stream_kind`. -/
def StreamName.kind : StreamName → EventKind
  | .block => .blockConnected
  | .mainchainBlock => .mainchainBlock

/-- The independently supervised workers. -/
inductive ExtractorWorker where
  | nodeHistory | mainchainTip | bmmRequests | mainchainEvents | confirmedBmmFees
  | enforcerState | blockHistory
  deriving DecidableEq, Repr

/-- `ExtractorWorker::as_str`. -/
def ExtractorWorker.asStr : ExtractorWorker → String
  | .nodeHistory => "node_history"
  | .mainchainTip => "mainchain_tip"
  | .bmmRequests => "bmm_requests"
  | .mainchainEvents => "mainchain_events"
  | .confirmedBmmFees => "confirmed_bmm_fees"
  | .enforcerState => "enforcer_state"
  | .blockHistory => "block_history"

/-- A block by its two columns. -/
structure Block where
  hash : Bytes
  height : ℕ
  deriving DecidableEq, Repr

/-- The anchor that names the block. -/
def Block.observed (b : Block) : ObservedBlock := .atHeight b.hash b.height

/-! ### Rows -/

/-- `extractor_run`. -/
structure ExtractorRun where
  runId : Uuid
  datasetId : Uuid
  source : Source
  eventContractVersion : ℕ
  status : RunStatus
  lastCaptureSeq : ℕ
  deriving DecidableEq, Repr

/-- `event`: the envelope stands for both its encoding and its rendered payload. -/
structure EventRow where
  id : ℕ
  datasetId : Uuid
  eventContractVersion : ℕ
  source : Source
  kind : EventKind
  sidechain : Option ℕ
  sidechainInstanceId : Option String
  blockHash : Option Bytes
  height : Option ℕ
  previousHash : Option Bytes
  factSha256 : Bytes
  observedAt : ℕ
  envelope : Event
  deriving DecidableEq, Repr

/-- `event_observation`. -/
structure EventObservation where
  datasetId : Uuid
  runId : Uuid
  captureSeq : ℕ
  captureMethod : CaptureMethod
  eventId : ℕ
  snapshotGroupId : Option ℕ
  observedAt : ℕ
  deriving DecidableEq, Repr

/-- `event_conflict`. -/
structure EventConflict where
  datasetId : Uuid
  firstEventId : ℕ
  conflictingEventId : ℕ
  deriving DecidableEq, Repr

/-- `snapshot_group`. -/
structure SnapshotGroup where
  snapshotGroupId : ℕ
  datasetId : Uuid
  runId : Uuid
  captureMethod : CaptureMethod
  startedAt : ℕ
  finishedAt : ℕ
  tipBefore : Block
  tipAfter : Block
  consistency : SnapshotConsistency
  attempts : ℕ
  revisionBefore : Option String
  revisionAfter : Option String
  deriving DecidableEq, Repr

/-- `tip_observation`. -/
structure TipObservation where
  datasetId : Uuid
  runId : Uuid
  captureSeq : ℕ
  captureMethod : CaptureMethod
  tip : Block
  previousObserved : Option Block
  observedAt : ℕ
  deriving DecidableEq, Repr

/-- `sidechain_instance`. -/
structure SidechainInstanceRow where
  datasetId : Uuid
  sidechainInstanceId : String
  sidechain : ℕ
  rawDescription : Bytes
  descriptionSha256d : Bytes
  proposalHeight : ℕ
  activationHeight : ℕ
  firstSeenAt : ℕ
  lastSeenAt : ℕ
  deriving DecidableEq, Repr

/-- `current_sidechain_instance`. -/
structure CurrentInstanceRow where
  datasetId : Uuid
  sidechain : ℕ
  sidechainInstanceId : String
  observedAt : ℕ
  deriving DecidableEq, Repr

/-- The key of a history scope: `history_coverage_identity`. -/
structure ScopeKey where
  datasetId : Uuid
  eventContractVersion : ℕ
  source : Source
  stream : StreamName
  sidechain : Option ℕ
  sidechainInstanceId : Option String
  deriving DecidableEq, Repr

/-- `history_coverage`. -/
structure CoverageRow where
  coverageStartHeight : ℕ
  coveredTip : Option Block
  targetTip : Block
  /-- The parent that the walk must join, when it extends a proven range. -/
  floorHash : Option Bytes
  /-- The exclusive lower boundary; null only when genesis is included. -/
  floorHeight : Option ℕ
  /-- The inclusive cursor of the next page. -/
  next : Option Block
  status : HistoryStatus
  rowsRecorded : ℕ
  effectivePageBlocks : ℕ
  lastError : Option String
  deriving DecidableEq, Repr

/-- `history_certified_block`. -/
structure CertifiedRow where
  scope : ScopeKey
  blockHash : Bytes
  previousHash : Bytes
  height : ℕ
  deriving DecidableEq, Repr

/-- `extractor_status`. -/
structure ExtractorStatus where
  datasetId : Uuid
  source : Source
  runId : Uuid
  lastTip : Option Block
  lastError : Option String
  deriving DecidableEq, Repr

/-- `extractor_worker_status`. -/
structure WorkerStatus where
  runId : Uuid
  worker : ExtractorWorker
  consecutiveFailures : ℕ
  lastError : Option String
  deriving DecidableEq, Repr

/-- `observation_failure`. -/
structure ObservationFailure where
  datasetId : Uuid
  runId : Uuid
  worker : ExtractorWorker
  error : String
  deriving DecidableEq, Repr

/-- What has become of a fee enrichment. -/
inductive FeeJobStatus where
  | pending | done | abandoned
  deriving DecidableEq, Repr

/-- `bmm_fee_job`. -/
structure FeeJob where
  datasetId : Uuid
  eventContractVersion : ℕ
  source : Source
  sourceEventId : ℕ
  attempts : ℕ
  status : FeeJobStatus
  lastError : Option String
  deriving DecidableEq, Repr

/-- The record. -/
structure Db where
  runs : List ExtractorRun
  events : List EventRow
  /-- The next value of the identity sequence of `event`. -/
  nextEventId : ℕ
  observations : List EventObservation
  conflicts : List EventConflict
  snapshotGroups : List SnapshotGroup
  tipObservations : List TipObservation
  sidechainInstances : List SidechainInstanceRow
  currentInstances : List CurrentInstanceRow
  coverage : ScopeKey → Option CoverageRow
  certified : List CertifiedRow
  extractorStatus : List ExtractorStatus
  workerStatus : List WorkerStatus
  failures : List ObservationFailure
  feeJobs : List FeeJob

/-- A freshly migrated record. -/
def Db.empty : Db where
  runs := []
  events := []
  nextEventId := 1
  observations := []
  conflicts := []
  snapshotGroups := []
  tipObservations := []
  sidechainInstances := []
  currentInstances := []
  coverage := fun _ => none
  certified := []
  extractorStatus := []
  workerStatus := []
  failures := []
  feeJobs := []

/-- A record write: one transaction that commits or rolls back. -/
abbrev Write := Tx Db Failure

/-- Handle to the record: the run it writes for, and whose rows it writes. -/
structure Store where
  source : Source
  datasetId : Uuid
  runId : Uuid
  eventContractVersion : ℕ
  deriving DecidableEq, Repr

/-- The key of one of the handle's scopes. -/
def Store.scopeKey (store : Store) (stream : StreamName) (sidechain : Option ℕ)
    (sidechainInstanceId : Option String) : ScopeKey :=
  ⟨store.datasetId, store.eventContractVersion, store.source, stream, sidechain,
    sidechainInstanceId⟩

/-! ### Looking rows up -/

/-- The facts of one scope: `event` rows of its kind, slot and instance. -/
def EventRow.inScope (e : EventRow) (k : ScopeKey) : Prop :=
  e.datasetId = k.datasetId ∧ e.eventContractVersion = k.eventContractVersion ∧
    e.source = k.source ∧ e.kind = k.stream.kind ∧ e.sidechain = k.sidechain ∧
    e.sidechainInstanceId = k.sidechainInstanceId

instance (e : EventRow) (k : ScopeKey) : Decidable (e.inScope k) :=
  inferInstanceAs (Decidable (_ ∧ _))

/-- The columns of a scope, as statements and triggers compare two facts. -/
def EventRow.sameScope (e e' : EventRow) : Prop :=
  e.datasetId = e'.datasetId ∧ e.eventContractVersion = e'.eventContractVersion ∧
    e.source = e'.source ∧ e.kind = e'.kind ∧ e.sidechain = e'.sidechain ∧
    e.sidechainInstanceId = e'.sidechainInstanceId

instance (e e' : EventRow) : Decidable (e.sameScope e') := inferInstanceAs (Decidable (_ ∧ _))

/-- The columns of the constraint `event_identity`. -/
def EventRow.sameIdentity (e e' : EventRow) : Prop :=
  e.sameScope e' ∧ e.blockHash = e'.blockHash ∧ e.factSha256 = e'.factSha256

instance (e e' : EventRow) : Decidable (e.sameIdentity e') :=
  inferInstanceAs (Decidable (_ ∧ _))

/-- Some proven block of the scope has this hash. -/
def Db.isCertified (db : Db) (k : ScopeKey) (hash : Bytes) : Prop :=
  ∃ c ∈ db.certified, c.scope = k ∧ c.blockHash = hash

instance (db : Db) (k : ScopeKey) (hash : Bytes) : Decidable (db.isCertified k hash) :=
  inferInstanceAs (Decidable (∃ c ∈ db.certified, _))

/-- The instance is registered in the dataset. -/
def Db.isRegistered (db : Db) (dataset : Uuid) (sidechainInstanceId : String) : Prop :=
  ∃ i ∈ db.sidechainInstances,
    i.datasetId = dataset ∧ i.sidechainInstanceId = sidechainInstanceId

instance (db : Db) (dataset : Uuid) (id : String) : Decidable (db.isRegistered dataset id) :=
  inferInstanceAs (Decidable (∃ i ∈ db.sidechainInstances, _))

/-- `current_sidechain_instance_id`: the instance current in a slot. -/
def Db.currentInstance (db : Db) (dataset : Uuid) (sidechain : ℕ) : Option String :=
  (db.currentInstances.find? fun c => c.datasetId = dataset ∧ c.sidechain = sidechain).map
    (·.sidechainInstanceId)

/-- Replace the row of one scope. -/
def Db.setCoverage (db : Db) (k : ScopeKey) (row : CoverageRow) : Db :=
  { db with coverage := fun k' => if k' = k then some row else db.coverage k' }

@[simp] theorem Db.setCoverage_coverage_self (db : Db) (k : ScopeKey) (row : CoverageRow) :
    (db.setCoverage k row).coverage k = some row := by
  simp [Db.setCoverage]

theorem Db.setCoverage_coverage_of_ne (db : Db) {k k' : ScopeKey} (row : CoverageRow)
    (h : k' ≠ k) : (db.setCoverage k row).coverage k' = db.coverage k' := by
  simp [Db.setCoverage, h]

@[simp] theorem Db.setCoverage_events (db : Db) (k : ScopeKey) (row : CoverageRow) :
    (db.setCoverage k row).events = db.events := rfl

@[simp] theorem Db.setCoverage_certified (db : Db) (k : ScopeKey) (row : CoverageRow) :
    (db.setCoverage k row).certified = db.certified := rfl

@[simp] theorem Db.setCoverage_conflicts (db : Db) (k : ScopeKey) (row : CoverageRow) :
    (db.setCoverage k row).conflicts = db.conflicts := rfl

end Bip300Monitor
