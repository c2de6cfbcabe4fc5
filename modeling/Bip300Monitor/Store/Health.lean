import Bip300Monitor.Store.EventTable
import Mathlib.Data.List.Sort

/-!
# Runs and worker health

The operations of `shared/src/store.rs` that open and close an extractor run and keep
the durable health of its workers. A worker's row must exist before a failure or a
success of the worker can be recorded: `initialize_worker_statuses` creates the rows,
once, at startup.
-/

namespace Bip300Monitor

open Protobuf Transaction

/-- `initialize_identity`, from the point where the dataset is resolved: close an orphaned
run of the source, open a new one under a fresh identity, and claim the status row. Also
returns the last tip the source recorded before. -/
def initializeIdentity (source : Source) (datasetId runId : Uuid) (eventContractVersion : ℕ) :
    Write (Store × Option ObservedBlock) := do
  Tx.modify fun db => { db with runs := db.runs.map fun r =>
    if r.datasetId = datasetId ∧ r.source = source ∧ r.status = .running then
      { r with status := .failed }
    else r }
  let db ← Tx.read
  Tx.require (∀ r ∈ db.runs, r.runId ≠ runId) (.bail "starting an extractor run: duplicate run id")
  let earlier := (db.runs.filter fun r => r.datasetId = datasetId ∧ r.source = source).getLast?
  Tx.modify fun db => { db with
    runs := db.runs ++ [⟨runId, datasetId, source, eventContractVersion, .running, 0⟩]
    failures := db.failures ++
      (if source = .enforcer ∧ 8 ≤ eventContractVersion then earlier.toList else []).map fun r =>
        ⟨datasetId, runId, .mainchainEvents, "subscription restarted after run " ++
          toString r.runId ++ "; offline transitions are unknown (no replay continuity) until the" ++
          " next mainchain_transition subscription boundary"⟩ }
  let status := db.extractorStatus.find? fun row => row.datasetId = datasetId ∧ row.source = source
  let claim (row : ExtractorStatus) : ExtractorStatus :=
    if row.datasetId = datasetId ∧ row.source = source then
      { row with runId := runId, lastError := none }
    else row
  Tx.modify fun db => { db with
    extractorStatus :=
      if status.isSome then db.extractorStatus.map claim
      else db.extractorStatus ++ [⟨datasetId, source, runId, none, none⟩] }
  pure (⟨source, datasetId, runId, eventContractVersion⟩,
    (status.bind (·.lastTip)).map Block.observed)

/-- `string_agg(worker || ': ' || last_error, '; ' ORDER BY worker)` over the rows of a run. -/
def aggregateError (rows : List WorkerStatus) (runId : Uuid) : Option String :=
  let texts := (rows.filter fun w => w.runId = runId).filterMap fun w =>
    w.lastError.map fun error => (w.worker.asStr, w.worker.asStr ++ ": " ++ error)
  let sorted := texts.insertionSort fun a b => a.1 ≤ b.1
  if sorted = [] then none else some ("; ".intercalate (sorted.map (·.2)))

/-- `recompute_extractor_error`. -/
def recomputeExtractorError (store : Store) : Write Unit :=
  Tx.modify fun db => { db with extractorStatus := db.extractorStatus.map fun row =>
    if row.datasetId = store.datasetId ∧ row.source = store.source ∧ row.runId = store.runId then
      { row with lastError := aggregateError db.workerStatus store.runId }
    else row }

/-- The run has a health row for the worker. -/
def Db.workerInitialized (db : Db) (runId : Uuid) (worker : ExtractorWorker) : Prop :=
  ∃ w ∈ db.workerStatus, w.runId = runId ∧ w.worker = worker

instance (db : Db) (runId : Uuid) (worker : ExtractorWorker) :
    Decidable (db.workerInitialized runId worker) :=
  inferInstanceAs (Decidable (∃ w ∈ db.workerStatus, _))

/-- `INSERT INTO extractor_worker_status … ON CONFLICT DO NOTHING`. -/
def Db.initializeWorker (runId : Uuid) (db : Db) (worker : ExtractorWorker) : Db :=
  if db.workerInitialized runId worker then db
  else { db with workerStatus := db.workerStatus ++ [⟨runId, worker, 0, none⟩] }

/-- `initialize_worker_statuses`. -/
def initializeWorkerStatuses (store : Store) (workers : List ExtractorWorker) : Write Unit := do
  Tx.modify fun db => workers.foldl (Db.initializeWorker store.runId) db
  recomputeExtractorError store

/-- Change the health row of a worker of the run. -/
def Db.updateWorker (db : Db) (runId : Uuid) (worker : ExtractorWorker)
    (set : WorkerStatus → WorkerStatus) : Db :=
  { db with workerStatus := db.workerStatus.map fun w =>
      if w.runId = runId ∧ w.worker = worker then set w else w }

/-- `record_worker_failure`: the error shows from the threshold on. Returns the
consecutive failures. -/
def recordWorkerFailure (store : Store) (worker : ExtractorWorker) (error : String)
    (degradedAfter : ℕ) : Write ℕ := do
  Tx.require (degradedAfter ≠ 0) (.bail "worker degradation threshold must be positive")
  let threshold ← Tx.lift ((narrow maxHeight degradedAfter).context
    "worker degradation threshold does not fit in an i32")
  let db ← Tx.read
  let row ← Tx.expect (db.workerStatus.find? fun w => w.runId = store.runId ∧ w.worker = worker)
    (.bail (worker.asStr ++ " worker status was not initialized"))
  Tx.modify fun db => db.updateWorker store.runId worker fun w => { w with
    consecutiveFailures := w.consecutiveFailures + 1
    lastError := if threshold ≤ w.consecutiveFailures + 1 then some error else none }
  Tx.modify fun db => { db with
    failures := db.failures ++ [⟨store.datasetId, store.runId, worker, error⟩] }
  recomputeExtractorError store
  pure (row.consecutiveFailures + 1)

/-- `record_worker_success`. -/
def recordWorkerSuccess (store : Store) (worker : ExtractorWorker) : Write Unit := do
  let db ← Tx.read
  Tx.require (db.workerInitialized store.runId worker)
    (.bail (worker.asStr ++ " worker status was not initialized"))
  Tx.modify fun db => db.updateWorker store.runId worker fun w =>
    { w with consecutiveFailures := 0, lastError := none }
  recomputeExtractorError store

/-- `finish_run`: close a run cleanly. -/
def finishRun (store : Store) (status : RunStatus) (reason : Option String) : Write Unit := do
  Tx.require (status ≠ .running) (.bail "invalid terminal extractor run status `running`")
  Tx.modify fun db => { db with
    runs := db.runs.map fun r =>
      if r.runId = store.runId ∧ r.status = .running then { r with status := status } else r
    extractorStatus := db.extractorStatus.map fun row =>
      if row.datasetId = store.datasetId ∧ row.source = store.source ∧ row.runId = store.runId then
        { row with lastError := if status = .failed then reason else none }
      else row }

/-! ### What they write -/

/-- Only the tables of health differ. -/
structure OnlyHealth (s t : Db) : Prop where
  eq : t = { s with
    extractorStatus := t.extractorStatus, workerStatus := t.workerStatus, failures := t.failures }

instance : Std.Refl OnlyHealth := ⟨fun _ => ⟨rfl⟩⟩

instance : IsTrans Db OnlyHealth := ⟨fun s t u h h' => ⟨by rw [h'.eq, h.eq]⟩⟩

theorem OnlyHealth.sameFacts {s t : Db} (h : OnlyHealth s t) : SameFacts s t := by
  rw [h.eq]
  exact ⟨rfl, rfl, rfl, rfl, rfl⟩

theorem onlyHealth_recomputeExtractorError (store : Store) :
    Tx.Guarantees OnlyHealth (recomputeExtractorError store) :=
  Tx.guarantees_modify fun _ => ⟨rfl⟩

theorem OnlyHealth.initializeWorkers (runId : Uuid) (workers : List ExtractorWorker) (db : Db) :
    OnlyHealth db (workers.foldl (Db.initializeWorker runId) db) := by
  induction workers generalizing db with
  | nil => exact Std.Refl.refl db
  | cons worker rest ih =>
    refine IsTrans.trans _ _ _ ?_ (ih _)
    unfold Db.initializeWorker
    split_ifs
    · exact Std.Refl.refl db
    · exact ⟨rfl⟩

theorem onlyHealth_initializeWorkerStatuses (store : Store) (workers : List ExtractorWorker) :
    Tx.Guarantees OnlyHealth (initializeWorkerStatuses store workers) :=
  (Tx.guarantees_modify fun db => OnlyHealth.initializeWorkers _ workers db).bind fun _ =>
    onlyHealth_recomputeExtractorError store

theorem onlyHealth_recordWorkerFailure (store : Store) (worker : ExtractorWorker) (error : String)
    (degradedAfter : ℕ) :
    Tx.Guarantees OnlyHealth (recordWorkerFailure store worker error degradedAfter) :=
  (Tx.guarantees_require _ _).bind fun _ => (Tx.guarantees_lift _).bind fun _ =>
    Tx.guarantees_read.bind fun _ => (Tx.guarantees_expect _ _).bind fun _ =>
      (Tx.guarantees_modify fun _ => ⟨rfl⟩).bind fun _ =>
        (Tx.guarantees_modify fun _ => ⟨rfl⟩).bind fun _ =>
          (onlyHealth_recomputeExtractorError store).bind fun _ => Tx.guarantees_pure _

theorem onlyHealth_recordWorkerSuccess (store : Store) (worker : ExtractorWorker) :
    Tx.Guarantees OnlyHealth (recordWorkerSuccess store worker) :=
  Tx.guarantees_read.bind fun _ => (Tx.guarantees_require _ _).bind fun _ =>
    (Tx.guarantees_modify fun _ => ⟨rfl⟩).bind fun _ => onlyHealth_recomputeExtractorError store

theorem sameFacts_initializeWorkerStatuses (store : Store) (workers : List ExtractorWorker) :
    Tx.Guarantees SameFacts (initializeWorkerStatuses store workers) :=
  (onlyHealth_initializeWorkerStatuses store workers).mono fun _ _ h => h.sameFacts

theorem sameFacts_recordWorkerFailure (store : Store) (worker : ExtractorWorker) (error : String)
    (degradedAfter : ℕ) :
    Tx.Guarantees SameFacts (recordWorkerFailure store worker error degradedAfter) :=
  (onlyHealth_recordWorkerFailure store worker error degradedAfter).mono fun _ _ h => h.sameFacts

theorem sameFacts_recordWorkerSuccess (store : Store) (worker : ExtractorWorker) :
    Tx.Guarantees SameFacts (recordWorkerSuccess store worker) :=
  (onlyHealth_recordWorkerSuccess store worker).mono fun _ _ h => h.sameFacts

theorem sameFacts_initializeIdentity (source : Source) (datasetId runId : Uuid) (version : ℕ) :
    Tx.Guarantees SameFacts (initializeIdentity source datasetId runId version) :=
  (Tx.guarantees_modify fun _ => ⟨rfl, rfl, rfl, rfl, rfl⟩).bind fun _ =>
    Tx.guarantees_read.bind fun _ => (Tx.guarantees_require _ _).bind fun _ =>
      (Tx.guarantees_modify fun _ => ⟨rfl, rfl, rfl, rfl, rfl⟩).bind fun _ =>
        (Tx.guarantees_modify fun _ => ⟨rfl, rfl, rfl, rfl, rfl⟩).bind fun _ =>
          Tx.guarantees_pure _

theorem sameFacts_finishRun (store : Store) (status : RunStatus) (reason : Option String) :
    Tx.Guarantees SameFacts (finishRun store status reason) :=
  (Tx.guarantees_require _ _).bind fun _ =>
    Tx.guarantees_modify fun _ => ⟨rfl, rfl, rfl, rfl, rfl⟩

end Bip300Monitor
