import Bip300Monitor.Backfill.Import

/-!
# The node's worker

`monitor` in `extractors/enforcer/src/node.rs`: the second extractor of the process opens a run of its own,
and reads the node's tip again and again. Each time it records the tip, lets `backfill::run_history` bring
the history of the node's blocks up to it, and records in its health row what came of that.

## The model

`NodeMonitor` is the record and the worker, between two awaits. The call of `run_history` is the program of
`Bip300Monitor.Backfill.Engine`, operation by operation. What the node answers, and the connection to the
record, stand in a `NodeEnvironment`; `client.tip` and `client.header` are each one answer here, and may be
any. A process can be killed, and another one be started on the same record. The rest of the monitor
executes commands on the record; only the worker writes its own row and its own history. `fees::monitor`,
which runs beside the worker, is part of that rest, and can end it. `reports` is looked at by statements
only.
-/

namespace Bip300Monitor

open Protobuf Transaction Resumption Backfill

/-! ### The worker -/

/-- What the worker is started with. -/
structure NodeArgs where
  datasetId : Uuid
  eventContractVersion : ℕ
  activationHeight : ℕ
  activationBlockHash : Option Bytes
  backfillPageBlocks : ℕ
  backfillPagePause : ℕ
  confirmedBmmFees : Bool
  /-- The start height of every scope. -/
  startOf : ScopeKey → ℕ
  start_eq : startOf ⟨datasetId, eventContractVersion, .node, .mainchainBlock, none, none⟩ = activationHeight

namespace NodeArgs

/-- The import of the node's history. -/
def history (args : NodeArgs) : Import MainchainBlock where
  stream := NodeHistory args.activationHeight args.activationBlockHash
  source := .node
  datasetId := args.datasetId
  eventContractVersion := args.eventContractVersion
  startOf := args.startOf
  start_eq := args.start_eq

/-- Raw blocks are large, so that pages are small. -/
def settings (args : NodeArgs) : Settings := ⟨min args.backfillPageBlocks 4, args.backfillPagePause⟩

end NodeArgs

/-- What the worker records of itself: it has reached a target, or an error. -/
inductive NodeReport where
  | success (target : ObservedBlock)
  | failure (error : String)
  deriving DecidableEq, Repr

/-- The error that the row shows for it. -/
def NodeReport.error : NodeReport → Option String
  | .success _ => none
  | .failure error => some error

/-- What is left of a call of `run_history`. -/
abbrev NodeRun := Proc (Op MainchainBlock) Op.Resp Failure Locals Outcome

/-- The await at which `monitor` is. -/
inductive NodeAt where
  /-- There is no process, or it has returned this. -/
  | stopped (result : Option (Result Unit))
  /-- `getblockhash` of the activation height. -/
  | probing (expected : Bytes)
  /-- `connect_with_manifest`. -/
  | connecting
  /-- `initialize_worker_statuses`. -/
  | initializing
  /-- The head of the loop. -/
  | waking
  | readingTip
  | readingHeader (tip : ObservedBlock)
  /-- `record`, of the tip with its header. -/
  | recordingTip (tip : ObservedBlock) (event : Event)
  /-- `record_tip_observation`. -/
  | observingTip (tip : ObservedBlock)
  | importing (call : NodeRun)
  /-- `record_worker_success` or `record_worker_failure`, and the error that is returned after it. -/
  | reporting (report : NodeReport) (fatal : Option Failure)
  | sleeping
  /-- `finish_run`. -/
  | finishing (result : Result Unit)

/-- The loop has begun, and the run is not yet being closed. -/
def NodeAt.looping : NodeAt → Bool
  | .stopped _ | .probing _ | .connecting | .initializing | .finishing _ => false
  | _ => true

/-- The record, and the worker of this run. -/
structure NodeMonitor where
  record : Record
  run : Uuid
  at' : NodeAt
  /-- What the run has recorded of the worker. -/
  reports : List NodeReport

/-- What an await is answered. -/
structure NodeEnvironment extends Environment MainchainBlock where
  /-- The hash of the block at the activation height. -/
  activation : Result Bytes
  header : Result BlockHeader
  observedAt : ℕ

/-- The command writes the health row of this worker of this run. -/
def Command.ofWorker (run : Uuid) (worker : ExtractorWorker) : Command → Prop
  | .initializeWorkerStatuses store workers => store.runId = run ∧ worker ∈ workers
  | .recordWorkerFailure store other _ _ | .recordWorkerSuccess store other => store.runId = run ∧ other = worker
  | _ => False

instance (run : Uuid) (worker : ExtractorWorker) : ∀ c, Decidable (Command.ofWorker run worker c)
  | .initializeWorkerStatuses _ workers => inferInstanceAs (Decidable (_ ∧ worker ∈ workers))
  | .recordWorkerFailure .. | .recordWorkerSuccess .. => inferInstanceAs (Decidable (_ ∧ _))
  | .initializeIdentity .. | .finishRun .. | .record .. | .recordSnapshot .. | .recordTipObservation ..
  | .historyCoverage .. | .beginHistoryCycle .. | .setHistoryFloor .. | .recordHistoryPage ..
  | .resizeHistoryPage .. | .resumeHistory .. | .settleHistoryFailure .. | .supersedeHistory ..
  | .recordFeeEnrichment .. | .recordFeeFailure .. => isFalse id

/-- What happens next. -/
inductive NodeAction where
  /-- A process is started, with the identity of a run that is new. -/
  | start (run : Uuid)
  /-- The await of the worker is answered. -/
  | advance (env : NodeEnvironment)
  /-- `fees::monitor` returns. -/
  | feesReturned (result : Result Unit)
  | crash
  /-- Anything else that writes the record. -/
  | other (command : Command)

namespace NodeMonitor

/-- Nothing is recorded. -/
def init : NodeMonitor := ⟨.empty, 0, .stopped none, []⟩

/-- The error ends `monitor`, without a run to close. -/
def orStop {α : Type} (next : α → NodeAt) : Result α → NodeAt
  | .ok a => next a
  | .error e => .stopped (some (.error e))

/-- The error ends the worker. -/
def orFinish {α : Type} (next : α → NodeAt) : Result α → NodeAt
  | .ok a => next a
  | .error e => .finishing (.error e)

/-- A transaction is answered. -/
def await {α : Type} (s : NodeMonitor) (env : NodeEnvironment) (out : Result α × Db) (next : Result α → NodeAt) :
    NodeMonitor :=
  let answer := env.deliver s.record.db out
  { s with
    record := { s.record with db := answer.2 }
    at' := next answer.1 }

/-- The report is recorded, if the transaction has taken effect. -/
def reported {α : Type} (s : NodeMonitor) (env : NodeEnvironment) (out : Result α × Db) (report : NodeReport)
    (fatal : Option Failure) : NodeMonitor :=
  let t := s.await env out (orFinish fun _ => fatal.elim .sleeping fun e => .finishing (.error e))
  if env.takesEffect ∧ out.1.isOk then { t with reports := s.reports ++ [report] } else t

/-- What becomes of the outcome of a pass. -/
def passed : Outcome → NodeAt
  | .upToDate target | .completed target .. => .reporting (.success target) none
  | .quarantined _ => .reporting (.failure historyConflict) none
  | .deferred target .. => .reporting (.failure ("node history toward " ++ hexEncode target.hash ++
      " deferred after a page failure")) none
  | .interrupted .. | .superseded .. => .sleeping

/-- Reading the tip has failed. -/
def unread (text : String) : NodeAt := .reporting (.failure text) none

section
variable [Digests]

/-- The await of the worker is answered. -/
def advance (args : NodeArgs) (s : NodeMonitor) (env : NodeEnvironment) : Option NodeMonitor :=
  let db := s.record.db
  let store := args.history.store s.run
  match s.at' with
  | .stopped _ => none
  | .probing expected => some { s with
      at' := orStop (fun actual => if actual = expected then .connecting
        else .stopped (some (.error (.bail "node activation identity mismatch")))) env.activation }
  | .connecting => some (s.await env (Tx.commit (initializeIdentity .node args.datasetId s.run
      args.eventContractVersion) db) fun answer =>
        orStop (fun _ => .initializing) (Result.context answer "connecting the event record"))
  | .initializing => some (s.await env (Tx.commit (initializeWorkerStatuses store [.nodeHistory]) db)
      (orStop fun _ => .waking))
  | .waking => some { s with at' := if env.shutdown then .finishing (.ok ()) else .readingTip }
  | .readingTip => some { s with
      at' := match env.tip with
        | .ok tip => .readingHeader tip
        | .error e => unread e.message }
  | .readingHeader tip => some { s with
      at' := match env.header with
        | .ok header => orFinish (.recordingTip tip) (nodeEvent (.chainTip ⟨some header⟩) tip env.now)
        | .error e => unread ("reading the tip header: " ++ e.message) }
  | .recordingTip tip event => some (s.await env (Tx.commit (recordBatch store [event] .live none) db)
      fun answer => orFinish (fun _ => .observingTip tip) (Result.context answer "recording observed events"))
  | .observingTip tip => some (s.await env (Tx.commit (recordTipObservation store tip none .poll
      env.observedAt) db) (orFinish fun _ => .importing (runHistory args.history.stream tip args.settings)))
  | .importing (.ret (.ok (.inl l))) =>
    some { s with at' := .importing (iterate args.history.stream args.settings l) }
  | .importing (.ret (.ok (.inr outcome))) => some { s with at' := passed outcome }
  | .importing (.ret (.error e)) => some { s with at' := .reporting (.failure e.message) (some e) }
  | .importing (.op e k) =>
    let out := args.history.perform s.run env.toEnvironment db e
    some { s with
      record := { s.record with db := out.2 }
      at' := .importing (k out.1) }
  | .reporting (.success target) fatal => some (s.reported env (Tx.commit (recordWorkerSuccess store
      .nodeHistory) db) (.success target) fatal)
  | .reporting (.failure error) fatal => some (s.reported env (Tx.commit (recordWorkerFailure store
      .nodeHistory error 1) db) (.failure error) fatal)
  | .sleeping => some { s with at' := if env.shutdown then .finishing (.ok ()) else .waking }
  | .finishing result =>
    let status : RunStatus := if result.isOk then .completed else .failed
    some (s.await env (Tx.commit (finishRun store status (some "node worker stopped")) db)
      (orStop fun _ => .stopped (some result)))

/-- One step. -/
def step (args : NodeArgs) (s : NodeMonitor) : NodeAction → Option NodeMonitor
  | .start run =>
    match s.at' with
    | .stopped _ =>
      if ∀ row ∈ s.record.db.workerStatus, row.runId ≠ run then
        some ⟨s.record, run, args.activationBlockHash.elim .connecting .probing, []⟩
      else none
    | _ => none
  | .advance env => s.advance args env
  | .feesReturned result =>
    if args.confirmedBmmFees ∧ s.at'.looping then some { s with at' := .finishing result } else none
  | .crash => some { s with at' := .stopped none }
  | .other command =>
    if command.coverageKey = some args.history.key ∨ command.ofWorker s.run .nodeHistory then none
    else (s.record.step args.startOf command).map fun r => { s with record := r }

end

end NodeMonitor

end Bip300Monitor
