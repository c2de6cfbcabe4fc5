import Bip300Monitor.Store.WorkerRows

/-!
# The health of the workers of a run

Each worker of a run has its row, and the status row of the run's source shows the errors of all of
them. The row and what is shown are written in the same transaction (`shared/src/store.rs`).

## The model

`Watched` is the record, and for each worker of a run the errors of its failures since its last
success. The commands are those of any process; those on the run's workers are of the run's own store,
with a fixed threshold for each worker.

## What is proved

* `Db.exec_sameHealth` — no other write touches a health row or an error that is shown;
* `recordWorkerFailure_others`, `recordWorkerSuccess_others` — nor does a worker another's row;
* `Watched.step_health` — each command keeps the rows and the error that is shown in step;
* `worker_health_aggregated` — so they are after every run of commands.
-/

namespace Bip300Monitor

open Protobuf Transaction Runs

/-! ### What leaves the health alone -/

/-- What a status row shows. -/
def ExtractorStatus.shown (row : ExtractorStatus) : Uuid × Source × Uuid × Option String :=
  (row.datasetId, row.source, row.runId, row.lastError)

/-- The health rows, and the errors that are shown, are as they were. -/
structure SameHealth (s t : Db) : Prop where
  workerStatus : t.workerStatus = s.workerStatus
  shown : t.extractorStatus.map (·.shown) = s.extractorStatus.map (·.shown)

instance : Std.Refl SameHealth := ⟨fun _ => ⟨rfl, rfl⟩⟩

instance : IsTrans Db SameHealth := ⟨fun _ _ _ h h' =>
  ⟨h'.workerStatus.trans h.workerStatus, h'.shown.trans h.shown⟩⟩

instance : Apart SameHealth where
  of_eq hworkers _ hstatus := ⟨hworkers, by rw [hstatus]⟩
  tip s mine _ tip _ := by
    refine ⟨rfl, ?_⟩
    rw [List.map_map]
    refine List.map_congr_left fun row _ => ?_
    simp only [Function.comp_apply]
    split_ifs
    · rfl
    · rfl

theorem sameHealth_scheduleFeeJob (store : Store) (sourceEventId : ℕ) (done : Bool)
    (error : Option String) :
    Tx.Guarantees SameHealth (scheduleFeeJob store sourceEventId done error) := by
  refine Tx.guarantees_read.bind fun _ => (Tx.guarantees_require _ _).bind fun _ => ?_
  refine Tx.guarantees_modify fun db => ?_
  by_cases h : ∃ job ∈ db.feeJobs, job.isOf store sourceEventId
  · rw [if_pos h]
    exact ⟨rfl, rfl⟩
  · rw [if_neg h]
    exact ⟨rfl, rfl⟩

/-- The command opens or closes a run, or writes the health of its workers. -/
def Command.ofHealth : Command → Bool
  | .initializeIdentity .. | .finishRun .. | .initializeWorkerStatuses .. | .recordWorkerFailure ..
  | .recordWorkerSuccess .. => true
  | _ => false

section
variable [Digests]

theorem sameHealth_recordFeeEnrichment (store : Store) (candidates : List (ℕ × Bytes))
    (sourceEventId : ℕ) (event : Event) :
    Tx.Guarantees SameHealth (recordFeeEnrichment store candidates sourceEventId event) := by
  intro s a t h
  obtain ⟨first, u, n, v, done, hreserve, hinsert, hschedule⟩ := recordFeeEnrichment_inv h
  have hsu : SameHealth s u := apart_reserveCaptureSequences _ _ hreserve
  have huv : SameHealth u v := apart_insertAll _ _ _ _ _ _ _ _ hinsert
  exact IsTrans.trans _ _ _ (IsTrans.trans _ _ _ hsu huv) (sameHealth_scheduleFeeJob _ _ _ _ hschedule)

/-- **No other write touches the health.** -/
theorem Db.exec_sameHealth (startOf : ScopeKey → ℕ) (db : Db) {c : Command} (hc : c.ofHealth = false) :
    SameHealth db (db.exec startOf c) := by
  cases c with
  | initializeIdentity | finishRun | initializeWorkerStatuses | recordWorkerFailure
  | recordWorkerSuccess => cases hc
  | historyCoverage => exact Std.Refl.refl db
  | recordTipObservation => exact (apart_recordTipObservation _ _ _ _ _).commit db
  | record => exact (apart_recordBatch _ _ _ _).commit db
  | recordSnapshot => exact (apart_recordSnapshot _ _ _ _).commit db
  | recordFeeEnrichment => exact (sameHealth_recordFeeEnrichment _ _ _ _).commit db
  | recordFeeFailure => exact (sameHealth_scheduleFeeJob _ _ _ _).commit db
  | beginHistoryCycle => exact apart_beginHistoryCycle.commit db
  | setHistoryFloor => exact apart_setHistoryFloor.commit db
  | resizeHistoryPage => exact apart_resizeHistoryPage.commit db
  | resumeHistory => exact apart_resumeHistory.commit db
  | settleHistoryFailure => exact apart_settleHistoryFailure.commit db
  | supersedeHistory => exact apart_supersedeHistory.commit db
  | recordHistoryPage => exact (apart_recordHistoryPageTx _ _ _).commit db

end

/-! ### What the workers write -/

/-- The status row is the one of the source of the store. -/
def ExtractorStatus.isOf (store : Store) (row : ExtractorStatus) : Prop :=
  row.datasetId = store.datasetId ∧ row.source = store.source

/-- A status row with the errors of the workers' rows, when it is the one of the run. -/
def ExtractorStatus.recompute (store : Store) (rows : List WorkerStatus) (row : ExtractorStatus) :
    ExtractorStatus :=
  if row.datasetId = store.datasetId ∧ row.source = store.source ∧ row.runId = store.runId then
    { row with lastError := aggregateError rows store.runId }
  else row

/-- A worker's row after a failure. -/
def WorkerStatus.fail (threshold : ℕ) (error : String) (w : WorkerStatus) : WorkerStatus :=
  { w with
    consecutiveFailures := w.consecutiveFailures + 1
    lastError := if threshold ≤ w.consecutiveFailures + 1 then some error else none }

/-- A worker's row after a success. -/
def WorkerStatus.succeed (w : WorkerStatus) : WorkerStatus :=
  { w with
    consecutiveFailures := 0
    lastError := none }

theorem WorkerStatus.fail_key (threshold : ℕ) (error : String) (w : WorkerStatus) :
    (w.fail threshold error).runId = w.runId ∧ (w.fail threshold error).worker = w.worker := ⟨rfl, rfl⟩

theorem WorkerStatus.succeed_key (w : WorkerStatus) :
    w.succeed.runId = w.runId ∧ w.succeed.worker = w.worker := ⟨rfl, rfl⟩

theorem recordWorkerFailure_inv {store : Store} {worker : ExtractorWorker} {error : String}
    {degradedAfter failures : ℕ} {s t : Db}
    (h : recordWorkerFailure store worker error degradedAfter s = .ok (failures, t)) :
    s.workerInitialized store.runId worker ∧ degradedAfter ≠ 0 ∧
      t.workerStatus =
        (s.updateWorker store.runId worker (·.fail degradedAfter error)).workerStatus ∧
      t.extractorStatus = s.extractorStatus.map (·.recompute store t.workerStatus) := by
  obtain ⟨hpositive, hrest⟩ := Tx.require_bind_eq_ok.mp h
  obtain ⟨threshold, hthreshold, hread⟩ := Tx.lift_bind_eq_ok.mp hrest
  obtain ⟨-, rfl⟩ := narrow_eq_ok.mp (Result.context_eq_ok.mp hthreshold)
  rw [Tx.read_bind_eq_ok] at hread
  obtain ⟨row, hrow, hwrite⟩ := Tx.expect_bind_eq_ok.mp hread
  rw [Tx.modify_bind_eq_ok, Tx.modify_bind_eq_ok, recomputeExtractorError, Tx.modify_bind_eq_ok] at hwrite
  obtain ⟨-, rfl⟩ := Tx.pure_eq_ok.mp hwrite
  have hof : row.runId = store.runId ∧ row.worker = worker := by simpa using List.find?_some hrow
  exact ⟨⟨row, List.mem_of_find?_eq_some hrow, hof⟩, hpositive, rfl, rfl⟩

theorem recordWorkerSuccess_inv {store : Store} {worker : ExtractorWorker} {s t : Db}
    (h : recordWorkerSuccess store worker s = .ok ((), t)) :
    s.workerInitialized store.runId worker ∧
      t.workerStatus = (s.updateWorker store.runId worker (·.succeed)).workerStatus ∧
      t.extractorStatus = s.extractorStatus.map (·.recompute store t.workerStatus) := by
  obtain ⟨hthere, h⟩ := Tx.require_bind_eq_ok.mp (Tx.read_bind_eq_ok.mp h)
  rw [Tx.modify_bind_eq_ok] at h
  obtain rfl := Tx.modify_eq_ok.mp h
  exact ⟨hthere, rfl, rfl⟩

/-- Rows that a change of one worker's leaves. -/
theorem filter_updateWorker (db : Db) (run : Uuid) (worker : ExtractorWorker)
    {set : WorkerStatus → WorkerStatus} {p : WorkerStatus → Bool}
    (hset : ∀ w, w.runId = run → w.worker = worker → p w = false ∧ p (set w) = false) :
    (db.updateWorker run worker set).workerStatus.filter p = db.workerStatus.filter p := by
  simp only [Db.updateWorker]
  induction db.workerStatus with
  | nil => rfl
  | cons w rest ih =>
    rw [List.map_cons, List.filter_cons, List.filter_cons, ih]
    by_cases hof : w.runId = run ∧ w.worker = worker
    · rw [if_pos hof, (hset w hof.1 hof.2).1, (hset w hof.1 hof.2).2]
      rfl
    · rw [if_neg hof]

/-- The rows of the other workers, and of the other runs. -/
def Db.otherWorkers (db : Db) (run : Uuid) (worker : ExtractorWorker) : List WorkerStatus :=
  db.workerStatus.filter fun w => ¬ (w.runId = run ∧ w.worker = worker)

theorem otherWorkers_updateWorker (db : Db) (run : Uuid) (worker : ExtractorWorker)
    {set : WorkerStatus → WorkerStatus}
    (hset : ∀ w, (set w).runId = w.runId ∧ (set w).worker = w.worker) :
    (db.updateWorker run worker set).otherWorkers run worker = db.otherWorkers run worker := by
  refine filter_updateWorker db run worker fun w hrun hworker => ?_
  simp [(hset w).1, (hset w).2, hrun, hworker]

/-- **A failure leaves the rows of the other workers.** -/
theorem recordWorkerFailure_others {store : Store} {worker : ExtractorWorker} {error : String}
    {degradedAfter failures : ℕ} {s t : Db}
    (h : recordWorkerFailure store worker error degradedAfter s = .ok (failures, t)) :
    t.otherWorkers store.runId worker = s.otherWorkers store.runId worker := by
  obtain ⟨-, -, hrows, -⟩ := recordWorkerFailure_inv h
  rw [Db.otherWorkers, hrows]
  exact otherWorkers_updateWorker s _ _ (WorkerStatus.fail_key _ _)

/-- **So does a success.** -/
theorem recordWorkerSuccess_others {store : Store} {worker : ExtractorWorker} {s t : Db}
    (h : recordWorkerSuccess store worker s = .ok ((), t)) :
    t.otherWorkers store.runId worker = s.otherWorkers store.runId worker := by
  obtain ⟨-, hrows, -⟩ := recordWorkerSuccess_inv h
  rw [Db.otherWorkers, hrows]
  exact otherWorkers_updateWorker s _ _ WorkerStatus.succeed_key

/-! ### The error that is shown -/

/-- The errors of the rows of a run, with their workers. -/
def workerErrors (rows : List WorkerStatus) (run : Uuid) : List (ExtractorWorker × String) :=
  (rows.filter fun w => w.runId = run).filterMap fun w => w.lastError.map fun error => (w.worker, error)

/-- A text of the errors of workers, in the order of the workers' names. -/
def ShowsErrors (text : Option String) (errors : List (ExtractorWorker × String)) : Prop :=
  ∃ sorted : List (ExtractorWorker × String), sorted.Perm errors ∧
    sorted.Pairwise (fun a b => a.1.asStr ≤ b.1.asStr) ∧
    text = if sorted = [] then none
      else some ("; ".intercalate (sorted.map fun e => e.1.asStr ++ ": " ++ e.2))

/-- The aggregate is of exactly the rows that have an error. -/
theorem aggregateError_shows (rows : List WorkerStatus) (run : Uuid) :
    ShowsErrors (aggregateError rows run) (workerErrors rows run) := by
  let byName (a b : ExtractorWorker × String) : Prop := a.1.asStr ≤ b.1.asStr
  let text (e : ExtractorWorker × String) : String × String := (e.1.asStr, e.1.asStr ++ ": " ++ e.2)
  have : Std.Total byName := ⟨fun a b => Std.le_total⟩
  have : IsTrans (ExtractorWorker × String) byName := ⟨fun _ _ _ => Std.le_trans⟩
  have htexts : ((rows.filter fun w => w.runId = run).filterMap fun w =>
      w.lastError.map fun error => (w.worker.asStr, w.worker.asStr ++ ": " ++ error)) =
      (workerErrors rows run).map text := by
    rw [workerErrors, List.map_filterMap]
    congr 1
    funext w
    cases w.lastError <;> rfl
  have hsorted : ((workerErrors rows run).map text).insertionSort (fun a b => a.1 ≤ b.1) =
      ((workerErrors rows run).insertionSort byName).map text :=
    (List.map_insertionSort byName _ text _ fun _ _ _ _ => Iff.rfl).symm
  refine ⟨(workerErrors rows run).insertionSort byName, List.perm_insertionSort _ _,
    List.pairwise_insertionSort _ _, ?_⟩
  rw [aggregateError, htexts, hsorted]
  simp only [List.map_eq_nil_iff, List.map_map]
  rfl

/-- The aggregate is of the run's own rows. -/
theorem aggregateError_congr {rows rows' : List WorkerStatus} {run : Uuid}
    (h : rows'.filter (fun w => w.runId = run) = rows.filter fun w => w.runId = run) :
    aggregateError rows' run = aggregateError rows run := by
  rw [aggregateError, aggregateError, h]

/-- The status row of the source is the run's, and shows the errors of the run's workers. -/
structure Db.Shows (store : Store) (db : Db) : Prop where
  claimed : ∃ row ∈ db.extractorStatus, row.isOf store
  shows : ∀ row ∈ db.extractorStatus, row.isOf store → row.runId = store.runId ∧
    row.lastError = aggregateError db.workerStatus store.runId

section
variable {store : Store} {s t : Db}

theorem Db.Shows.of_sameHealth (h : s.Shows store) (hst : SameHealth s t) : t.Shows store where
  claimed := by
    obtain ⟨row, hrow, hof⟩ := h.claimed
    have hmem : row.shown ∈ t.extractorStatus.map (·.shown) := hst.shown ▸ List.mem_map_of_mem hrow
    obtain ⟨row', hrow', heq⟩ := List.mem_map.mp hmem
    simp only [ExtractorStatus.shown, Prod.mk.injEq] at heq
    exact ⟨row', hrow', heq.1.trans hof.1, heq.2.1.trans hof.2⟩
  shows row hrow hof := by
    have hmem : row.shown ∈ s.extractorStatus.map (·.shown) := hst.shown ▸ List.mem_map_of_mem hrow
    obtain ⟨row', hrow', heq⟩ := List.mem_map.mp hmem
    simp only [ExtractorStatus.shown, Prod.mk.injEq] at heq
    obtain ⟨hrun, herror⟩ := h.shows row' hrow' ⟨heq.1.trans hof.1, heq.2.1.trans hof.2⟩
    rw [hst.workerStatus]
    exact ⟨heq.2.2.1.symm.trans hrun, heq.2.2.2.symm.trans herror⟩

/-- A change of status rows that keeps whose they are. -/
theorem Db.Shows.map (h : s.Shows store) {set : ExtractorStatus → ExtractorStatus}
    (ht : t.extractorStatus = s.extractorStatus.map set)
    (hof : ∀ row, (set row).isOf store ↔ row.isOf store)
    (hset : ∀ row, row.isOf store → row.runId = store.runId →
      row.lastError = aggregateError s.workerStatus store.runId →
      (set row).runId = store.runId ∧
        (set row).lastError = aggregateError t.workerStatus store.runId) : t.Shows store where
  claimed := by
    obtain ⟨row, hrow, hrow'⟩ := h.claimed
    exact ⟨set row, ht ▸ List.mem_map_of_mem hrow, (hof row).mpr hrow'⟩
  shows row hrow hrow' := by
    rw [ht] at hrow
    obtain ⟨row, hmem, rfl⟩ := List.mem_map.mp hrow
    have hours := (hof row).mp hrow'
    obtain ⟨hrun, herror⟩ := h.shows row hmem hours
    exact hset row hours hrun herror

theorem ExtractorStatus.recompute_isOf (other : Store) (rows : List WorkerStatus)
    (row : ExtractorStatus) : (row.recompute other rows).isOf store ↔ row.isOf store := by
  unfold ExtractorStatus.recompute
  split_ifs
  · rfl
  · rfl

/-- Recomputing for the run shows the rows as they are now. -/
theorem Db.Shows.recompute (h : s.Shows store)
    (ht : t.extractorStatus = s.extractorStatus.map (·.recompute store t.workerStatus)) :
    t.Shows store := by
  refine h.map ht (ExtractorStatus.recompute_isOf _ _) fun row hof hrun _ => ?_
  rw [ExtractorStatus.recompute, if_pos ⟨hof.1, hof.2, hrun⟩]
  exact ⟨hrun, rfl⟩

/-- Recomputing for another run shows the run's rows as before. -/
theorem Db.Shows.recompute_other (h : s.Shows store) {other : Store} {rows : List WorkerStatus}
    (hother : other.runId ≠ store.runId)
    (ht : t.extractorStatus = s.extractorStatus.map (·.recompute other rows))
    (hrows : t.workerStatus.filter (fun w => w.runId = store.runId) =
      s.workerStatus.filter fun w => w.runId = store.runId) : t.Shows store := by
  refine h.map ht (ExtractorStatus.recompute_isOf _ _) fun row _ hrun herror => ?_
  rw [ExtractorStatus.recompute, if_neg fun h => hother (h.2.2.symm.trans hrun),
    aggregateError_congr hrows]
  exact ⟨hrun, herror⟩

end

/-! ### Runs of commands -/

/-- The record, and for each worker of a run the errors of its failures since its last success. -/
structure Watched where
  db : Db
  failures : ExtractorWorker → List String

/-- What may run while the run of the store is open. The store is the run's only writer, and knows
the threshold of each worker. -/
def Command.During (store : Store) (threshold : ExtractorWorker → ℕ) : Command → Prop
  | .initializeIdentity source datasetId _ _ => ¬ (datasetId = store.datasetId ∧ source = store.source)
  | .finishRun other _ _ => other.runId ≠ store.runId
  | .initializeWorkerStatuses other _ => other.runId = store.runId → other = store
  | .recordWorkerFailure other worker _ degradedAfter =>
    other.runId = store.runId → other = store ∧ degradedAfter = threshold worker
  | .recordWorkerSuccess other _ => other.runId = store.runId → other = store
  | _ => True

section
variable [Digests]

/-- A command; a failure of the run that is recorded is remembered until a success is. -/
def Watched.step (startOf : ScopeKey → ℕ) (run : Uuid) (w : Watched) (c : Command) : Watched where
  db := w.db.exec startOf c
  failures := match c with
    | .recordWorkerFailure store worker error degradedAfter =>
      if store.runId = run ∧
          (Tx.commit (recordWorkerFailure store worker error degradedAfter) w.db).1.isOk then
        Function.update w.failures worker (w.failures worker ++ [error])
      else w.failures
    | .recordWorkerSuccess store worker =>
      if store.runId = run ∧ (Tx.commit (recordWorkerSuccess store worker) w.db).1.isOk then
        Function.update w.failures worker []
      else w.failures
    | _ => w.failures

end

/-- The row of a worker that has failed with these errors since it last succeeded. -/
structure WorkerStatus.Tells (threshold : ℕ) (failures : List String) (w : WorkerStatus) : Prop where
  count : w.consecutiveFailures = failures.length
  error : w.lastError = if threshold ≤ failures.length then failures.getLast? else none

theorem WorkerStatus.tells_nil (threshold : ℕ) (run : Uuid) (worker : ExtractorWorker) :
    WorkerStatus.Tells threshold [] ⟨run, worker, 0, none⟩ := ⟨rfl, (ite_self none).symm⟩

theorem WorkerStatus.Tells.fail {threshold : ℕ} {failures : List String} {w : WorkerStatus}
    (h : w.Tells threshold failures) (error : String) :
    (w.fail threshold error).Tells threshold (failures ++ [error]) where
  count := by rw [WorkerStatus.fail, h.count, List.length_append, List.length_singleton]
  error := by
    rw [WorkerStatus.fail, h.count, List.length_append, List.length_singleton, List.getLast?_concat]

theorem WorkerStatus.tells_succeed (threshold : ℕ) (w : WorkerStatus) :
    w.succeed.Tells threshold [] := ⟨rfl, (ite_self none).symm⟩

/-- An error shows exactly when the failures have reached the threshold. -/
theorem WorkerStatus.Tells.visible {threshold : ℕ} {failures : List String} {w : WorkerStatus}
    (h : w.Tells threshold failures) (hthreshold : 0 < threshold) :
    w.lastError.isSome ↔ threshold ≤ w.consecutiveFailures := by
  rw [h.error, h.count]
  split_ifs with hreached
  · have hne : failures ≠ [] := List.ne_nil_of_length_pos (hthreshold.trans_le hreached)
    simp [hne, hreached]
  · simp [hreached]

/-- The rows of the run's workers tell their failures, and the status row the rows' errors. -/
structure Watched.Health (store : Store) (threshold : ExtractorWorker → ℕ) (w : Watched) : Prop where
  rows : ∀ row ∈ w.db.workerStatus, row.runId = store.runId →
    row.Tells (threshold row.worker) (w.failures row.worker)
  missing : ∀ worker, ¬ w.db.workerInitialized store.runId worker → w.failures worker = []
  shown : w.db.Shows store

section
variable {store : Store} {threshold : ExtractorWorker → ℕ} {w : Watched} {t : Db}

/-- What leaves the rows of the run. -/
theorem Watched.Health.of_rows (h : w.Health store threshold)
    (hrows : t.workerStatus.filter (fun row => row.runId = store.runId) =
      w.db.workerStatus.filter fun row => row.runId = store.runId)
    (hshown : t.Shows store) : Watched.Health store threshold ⟨t, w.failures⟩ := by
  have hmem (row : WorkerStatus) (hrun : row.runId = store.runId) :
      row ∈ t.workerStatus ↔ row ∈ w.db.workerStatus := by
    have := congrArg (row ∈ ·) hrows
    simpa [List.mem_filter, hrun] using this
  refine ⟨fun row hrow hrun => h.rows row ((hmem row hrun).mp hrow) hrun, fun worker hnone => ?_, hshown⟩
  refine h.missing worker fun ⟨row, hrow, hrun, hworker⟩ => hnone ?_
  exact ⟨row, (hmem row hrun).mpr hrow, hrun, hworker⟩

/-- What changes the rows of one worker, as its failures. -/
theorem Watched.Health.of_worker (h : w.Health store threshold) {worker : ExtractorWorker}
    {failures : List String} {set : WorkerStatus → WorkerStatus}
    (hthere : w.db.workerInitialized store.runId worker)
    (hkey : ∀ row, (set row).runId = row.runId ∧ (set row).worker = row.worker)
    (hset : ∀ row : WorkerStatus, row.Tells (threshold worker) (w.failures worker) →
      (set row).Tells (threshold worker) failures)
    (hrows : t.workerStatus = (w.db.updateWorker store.runId worker set).workerStatus)
    (hstatus : t.extractorStatus = w.db.extractorStatus.map (·.recompute store t.workerStatus)) :
    Watched.Health store threshold ⟨t, Function.update w.failures worker failures⟩ where
  rows row hrow hrun := by
    rw [hrows] at hrow
    obtain ⟨row', hrow', rfl⟩ := List.mem_map.mp hrow
    by_cases hof : row'.runId = store.runId ∧ row'.worker = worker
    · rw [if_pos hof] at hrun ⊢
      simp only [(hkey row').2, hof.2, Function.update_self]
      exact hset row' (hof.2 ▸ h.rows row' hrow' hof.1)
    · rw [if_neg hof] at hrun ⊢
      simp only [Function.update_of_ne fun hworker => hof ⟨hrun, hworker⟩]
      exact h.rows row' hrow' hrun
  missing other hnone := by
    have hnone' : ¬ w.db.workerInitialized store.runId other := by
      rwa [Db.workerInitialized, hrows, ← Db.workerInitialized,
        workerInitialized_updateWorker _ _ _ _ _ hkey] at hnone
    have hne : other ≠ worker := by
      rintro rfl
      exact hnone' hthere
    simp only [Function.update_of_ne hne]
    exact h.missing other hnone'
  shown := h.shown.recompute hstatus

end

/-- A status row as the opening of a run leaves it. -/
def ExtractorStatus.claim (source : Source) (datasetId runId : Uuid) (row : ExtractorStatus) :
    ExtractorStatus :=
  if row.datasetId = datasetId ∧ row.source = source then
    { row with
      runId := runId
      lastError := none }
  else row

/-- Opening a run claims the status row of its source, which is made when there is none. -/
theorem initializeIdentity_status {source : Source} {datasetId runId : Uuid} {version : ℕ}
    {answer : Store × Option ObservedBlock} {s t : Db}
    (h : initializeIdentity source datasetId runId version s = .ok (answer, t)) :
    answer.1 = ⟨source, datasetId, runId, version⟩ ∧ t.workerStatus = s.workerStatus ∧
      ((t.extractorStatus = s.extractorStatus.map (·.claim source datasetId runId) ∧
          ∃ row ∈ s.extractorStatus, row.datasetId = datasetId ∧ row.source = source) ∨
        (t.extractorStatus = s.extractorStatus ++ [⟨datasetId, source, runId, none, none⟩] ∧
          ∀ row ∈ s.extractorStatus, ¬ (row.datasetId = datasetId ∧ row.source = source))) := by
  rw [initializeIdentity, Tx.modify_bind_eq_ok, Tx.read_bind_eq_ok, Tx.require_bind_eq_ok,
    Tx.modify_bind_eq_ok, Tx.modify_bind_eq_ok, Tx.pure_eq_ok] at h
  obtain ⟨-, rfl, rfl⟩ := h
  refine ⟨rfl, rfl, ?_⟩
  by_cases hfind : (s.extractorStatus.find? fun row =>
      row.datasetId = datasetId ∧ row.source = source).isSome
  · obtain ⟨row, hrow, hof⟩ := List.find?_isSome.mp hfind
    exact .inl ⟨if_pos hfind, row, hrow, by simpa using hof⟩
  · refine .inr ⟨if_neg hfind, fun row hrow hof => hfind (List.find?_isSome.mpr ⟨row, hrow, ?_⟩)⟩
    simpa using hof

/-- Opening a run of another source leaves the status row of this one. -/
theorem Db.Shows.initializeIdentity {store : Store} {source : Source} {datasetId runId : Uuid}
    {version : ℕ} {answer : Store × Option ObservedBlock} {s t : Db} (hs : s.Shows store)
    (hother : ¬ (datasetId = store.datasetId ∧ source = store.source))
    (h : initializeIdentity source datasetId runId version s = .ok (answer, t)) : t.Shows store := by
  obtain ⟨-, hrows, ⟨ht, -⟩ | ⟨ht, -⟩⟩ := initializeIdentity_status h
  · refine hs.map ht (fun row => ?_) fun row hof hrun herror => ?_
    · unfold ExtractorStatus.claim
      split_ifs
      · rfl
      · rfl
    · rw [ExtractorStatus.claim, if_neg fun h => hother ⟨h.1.symm.trans hof.1, h.2.symm.trans hof.2⟩,
        hrows]
      exact ⟨hrun, herror⟩
  · refine ⟨?_, fun row hrow hof => ?_⟩
    · obtain ⟨row, hrow, hof⟩ := hs.claimed
      exact ⟨row, ht ▸ List.mem_append_left _ hrow, hof⟩
    · rw [ht] at hrow
      rcases List.mem_append.mp hrow with hrow | hrow
      · rw [hrows]
        exact hs.shows row hrow hof
      · obtain rfl := List.mem_singleton.mp hrow
        exact (hother hof).elim

/-- The status row of a new run shows no error, as none of its workers has a row. -/
theorem Db.Shows.opened {source : Source} {datasetId runId : Uuid} {version : ℕ} {s t : Db}
    {answer : Store × Option ObservedBlock} (hfresh : ∀ w ∈ s.workerStatus, w.runId ≠ runId)
    (h : Bip300Monitor.initializeIdentity source datasetId runId version s = .ok (answer, t)) :
    t.Shows answer.1 := by
  obtain ⟨hstore, hrows, hstatus⟩ := initializeIdentity_status h
  have hnone : aggregateError t.workerStatus runId = none := by
    have hfilter : (t.workerStatus.filter fun w => w.runId = runId) = [] :=
      List.filter_eq_nil_iff.mpr fun w hw => by simpa using hfresh w (hrows ▸ hw)
    rw [aggregateError, hfilter]
    rfl
  rw [hstore]
  rcases hstatus with ⟨ht, row, hrow, hof⟩ | ⟨ht, hnew⟩
  · refine ⟨⟨_, ht ▸ List.mem_map_of_mem hrow, ?_⟩, fun row' hrow' hof' => ?_⟩
    · rw [ExtractorStatus.claim, if_pos hof]
      exact hof
    · rw [ht] at hrow'
      obtain ⟨row'', -, rfl⟩ := List.mem_map.mp hrow'
      by_cases hof'' : row''.datasetId = datasetId ∧ row''.source = source
      · rw [ExtractorStatus.claim, if_pos hof'', hnone]
        exact ⟨rfl, rfl⟩
      · rw [ExtractorStatus.claim, if_neg hof''] at hof'
        exact (hof'' hof').elim
  · refine ⟨⟨_, ht ▸ List.mem_append_right _ (List.mem_singleton_self _), rfl, rfl⟩, ?_⟩
    intro row hrow hof
    rw [ht] at hrow
    rcases List.mem_append.mp hrow with hrow | hrow
    · exact (hnew row hrow hof).elim
    · obtain rfl := List.mem_singleton.mp hrow
      rw [hnone]
      exact ⟨rfl, rfl⟩

/-- So does closing another run. -/
theorem Db.Shows.finishRun {store other : Store} {status : RunStatus} {reason : Option String}
    {s t : Db} (hs : s.Shows store) (hother : other.runId ≠ store.runId)
    (h : finishRun other status reason s = .ok ((), t)) : t.Shows store := by
  obtain ⟨-, h⟩ := Tx.require_bind_eq_ok.mp h
  obtain rfl := Tx.modify_eq_ok.mp h
  refine hs.map rfl (fun row => ?_) fun row hof hrun herror => ?_
  · split_ifs
    · rfl
    · rfl
    · rfl
  · rw [if_neg fun h => hother (h.2.2.symm.trans hrun)]
    exact ⟨hrun, herror⟩

/-! ### What a command does to the health -/

theorem initializeWorkerStatuses_inv {store : Store} {workers : List ExtractorWorker} {s t : Db}
    (h : initializeWorkerStatuses store workers s = .ok ((), t)) :
    t.workerStatus = (workers.foldl (Db.initializeWorker store.runId) s).workerStatus ∧
      t.extractorStatus = s.extractorStatus.map (·.recompute store t.workerStatus) := by
  rw [initializeWorkerStatuses, Tx.modify_bind_eq_ok] at h
  obtain rfl := Tx.modify_eq_ok.mp h
  refine ⟨rfl, ?_⟩
  simp only [extractorStatus_initializeWorkers]
  rfl

/-- The rows that are made are of workers that had none, and say that nothing has failed. -/
theorem mem_initializeWorkers {run : Uuid} {workers : List ExtractorWorker} {db : Db}
    {row : WorkerStatus} (h : row ∈ (workers.foldl (Db.initializeWorker run) db).workerStatus) :
    row ∈ db.workerStatus ∨
      (row = ⟨run, row.worker, 0, none⟩ ∧ ¬ db.workerInitialized run row.worker) := by
  induction workers generalizing db with
  | nil => exact .inl h
  | cons worker rest ih =>
    rw [List.foldl_cons] at h
    rcases ih h with hrow | ⟨hrow, hnone⟩
    · unfold Db.initializeWorker at hrow
      split_ifs at hrow with hthere
      · exact .inl hrow
      · rcases List.mem_append.mp hrow with hrow | hrow
        · exact .inl hrow
        · obtain rfl := List.mem_singleton.mp hrow
          exact .inr ⟨rfl, hthere⟩
    · rw [workerInitialized_initializeWorker, not_or] at hnone
      exact .inr ⟨hrow, hnone.1⟩

theorem filter_initializeWorkers {run other : Uuid} (hother : other ≠ run)
    (workers : List ExtractorWorker) (db : Db) :
    (workers.foldl (Db.initializeWorker other) db).workerStatus.filter (fun w => w.runId = run) =
      db.workerStatus.filter fun w => w.runId = run := by
  induction workers generalizing db with
  | nil => rfl
  | cons worker rest ih =>
    rw [List.foldl_cons, ih, Db.initializeWorker]
    split_ifs
    · rfl
    · simp [hother]

theorem Watched.Health.initialize {store : Store} {threshold : ExtractorWorker → ℕ} {w : Watched}
    (h : w.Health store threshold) {workers : List ExtractorWorker} {t : Db}
    (ht : initializeWorkerStatuses store workers w.db = .ok ((), t)) :
    Watched.Health store threshold ⟨t, w.failures⟩ := by
  obtain ⟨hrows, hstatus⟩ := initializeWorkerStatuses_inv ht
  refine ⟨fun row hrow hrun => ?_, fun worker hnone => h.missing worker ?_, h.shown.recompute hstatus⟩
  · rcases mem_initializeWorkers (hrows ▸ hrow) with hrow | ⟨hnew, hnone⟩
    · exact h.rows row hrow hrun
    · rw [h.missing row.worker hnone, hnew]
      exact WorkerStatus.tells_nil _ _ _
  · rw [Db.workerInitialized, hrows, ← Db.workerInitialized,
      workerInitialized_initializeWorkers, not_or] at hnone
    exact hnone.1

section
variable [Digests]

/-- **Each command of a run keeps its health told.** -/
theorem Watched.step_health {startOf : ScopeKey → ℕ} {store : Store}
    {threshold : ExtractorWorker → ℕ} {w : Watched} {c : Command}
    (h : w.Health store threshold) (hc : c.During store threshold) :
    (w.step startOf store.runId c).Health store threshold := by
  have others {other : Store} {t : Db} (hother : other.runId ≠ store.runId)
      (hrows : t.workerStatus.filter (fun row => row.runId = store.runId) =
        w.db.workerStatus.filter fun row => row.runId = store.runId)
      (hstatus : t.extractorStatus = w.db.extractorStatus.map (·.recompute other t.workerStatus)) :
      Watched.Health store threshold ⟨t, w.failures⟩ :=
    h.of_rows hrows (h.shown.recompute_other hother hstatus hrows)
  have quiet (hquiet : c.ofHealth = false) :
      Watched.Health store threshold ⟨w.db.exec startOf c, w.failures⟩ := by
    have hsame := w.db.exec_sameHealth startOf hquiet
    exact h.of_rows (by rw [hsame.workerStatus]) (h.shown.of_sameHealth hsame)
  cases c with
  | initializeIdentity source datasetId runId version =>
    rcases Tx.commit_snd_cases (initializeIdentity source datasetId runId version) w.db with
      ⟨answer, t, hok, hcommit⟩ | ⟨e, -, hcommit⟩
    · simp only [Watched.step, Db.exec, hcommit]
      refine h.of_rows ?_ (h.shown.initializeIdentity hc hok)
      rw [(initializeIdentity_status hok).2.1]
    · simp only [Watched.step, Db.exec, hcommit]
      exact h
  | finishRun other status reason =>
    rcases Tx.commit_snd_cases (finishRun other status reason) w.db with
      ⟨_, t, hok, hcommit⟩ | ⟨e, -, hcommit⟩
    · simp only [Watched.step, Db.exec, hcommit]
      refine h.of_rows ?_ (h.shown.finishRun hc hok)
      rw [(sameTasks_finishRun _ _ _ hok).workers.workerStatus]
    · simp only [Watched.step, Db.exec, hcommit]
      exact h
  | initializeWorkerStatuses other workers =>
    rcases Tx.commit_snd_cases (initializeWorkerStatuses other workers) w.db with
      ⟨_, t, hok, hcommit⟩ | ⟨e, -, hcommit⟩
    · simp only [Watched.step, Db.exec, hcommit]
      by_cases hrun : other.runId = store.runId
      · obtain rfl := hc hrun
        exact h.initialize hok
      · obtain ⟨hrows, hstatus⟩ := initializeWorkerStatuses_inv hok
        exact others hrun (hrows ▸ filter_initializeWorkers hrun workers w.db) hstatus
    · simp only [Watched.step, Db.exec, hcommit]
      exact h
  | recordWorkerFailure other worker error degradedAfter =>
    rcases Tx.commit_snd_cases (recordWorkerFailure other worker error degradedAfter) w.db with
      ⟨failures, t, hok, hcommit⟩ | ⟨e, -, hcommit⟩
    · obtain ⟨hthere, -, hrows, hstatus⟩ := recordWorkerFailure_inv hok
      simp only [Watched.step, Db.exec, hcommit]
      by_cases hrun : other.runId = store.runId
      · obtain ⟨rfl, rfl⟩ := hc hrun
        rw [if_pos ⟨rfl, rfl⟩]
        exact h.of_worker hthere (WorkerStatus.fail_key _ _) (fun row hrow => hrow.fail error) hrows hstatus
      · rw [if_neg fun h => hrun h.1]
        refine others hrun (hrows ▸ filter_updateWorker _ _ _ fun row hrow _ => ?_) hstatus
        simp [WorkerStatus.fail, hrow, hrun]
    · simp only [Watched.step, Db.exec, hcommit]
      rw [if_neg fun h => Bool.false_ne_true h.2]
      exact h
  | recordWorkerSuccess other worker =>
    rcases Tx.commit_snd_cases (recordWorkerSuccess other worker) w.db with
      ⟨_, t, hok, hcommit⟩ | ⟨e, -, hcommit⟩
    · obtain ⟨hthere, hrows, hstatus⟩ := recordWorkerSuccess_inv hok
      simp only [Watched.step, Db.exec, hcommit]
      by_cases hrun : other.runId = store.runId
      · obtain rfl := hc hrun
        rw [if_pos ⟨rfl, rfl⟩]
        exact h.of_worker hthere WorkerStatus.succeed_key
          (fun row _ => WorkerStatus.tells_succeed _ row) hrows hstatus
      · rw [if_neg fun h => hrun h.1]
        refine others hrun (hrows ▸ filter_updateWorker _ _ _ fun row hrow _ => ?_) hstatus
        simp [WorkerStatus.succeed, hrow, hrun]
    · simp only [Watched.step, Db.exec, hcommit]
      rw [if_neg fun h => Bool.false_ne_true h.2]
      exact h
  | record | recordSnapshot | recordTipObservation | historyCoverage | beginHistoryCycle
  | setHistoryFloor | recordHistoryPage | resizeHistoryPage | resumeHistory | settleHistoryFailure
  | supersedeHistory | recordFeeEnrichment | recordFeeFailure => exact quiet rfl

/-- The worker, and its run, whose failure or success is recorded. -/
def Command.worker : Command → Option (Uuid × ExtractorWorker)
  | .recordWorkerFailure store worker _ _ => some (store.runId, worker)
  | .recordWorkerSuccess store worker => some (store.runId, worker)
  | _ => none

/-- **A worker's failure or success leaves the rows of the others**, whether it is recorded or not. -/
theorem Db.exec_otherWorkers (startOf : ScopeKey → ℕ) (db : Db) {c : Command} {run : Uuid}
    {worker : ExtractorWorker} (hc : c.worker = some (run, worker)) :
    (db.exec startOf c).otherWorkers run worker = db.otherWorkers run worker := by
  cases c with
  | recordWorkerFailure store worker' error degradedAfter =>
    obtain ⟨rfl, rfl⟩ := Prod.mk.inj (Option.some.inj hc)
    rcases Tx.commit_snd_cases (recordWorkerFailure store worker' error degradedAfter) db with
      ⟨_, t, hok, hcommit⟩ | ⟨e, -, hcommit⟩
    · simp only [Db.exec, hcommit]
      exact recordWorkerFailure_others hok
    · simp only [Db.exec, hcommit]
  | recordWorkerSuccess store worker' =>
    obtain ⟨rfl, rfl⟩ := Prod.mk.inj (Option.some.inj hc)
    rcases Tx.commit_snd_cases (recordWorkerSuccess store worker') db with
      ⟨_, t, hok, hcommit⟩ | ⟨e, -, hcommit⟩
    · simp only [Db.exec, hcommit]
      exact recordWorkerSuccess_others hok
    · simp only [Db.exec, hcommit]
  | _ => cases hc

/-- **The health of the workers adds up**, from the opening of a run on and whatever commands run
until it is closed, when the rows of workers are of runs that exist. The status row shows the errors of
exactly the rows that have one; a row tells the failures since the last success, and shows the last of
them once they have reached the threshold; a worker's operation leaves the rows of the others, and what
is not about runs and workers leaves all of it. -/
theorem worker_health_aggregated (startOf : ScopeKey → ℕ) {s t : Db} {source : Source}
    {datasetId runId : Uuid} {version : ℕ} {store : Store} {tip : Option ObservedBlock}
    {threshold : ExtractorWorker → ℕ} {cs : List Command}
    (hruns : ∀ row ∈ s.workerStatus, ∃ r ∈ s.runs, r.runId = row.runId)
    (hopen : initializeIdentity source datasetId runId version s = .ok ((store, tip), t))
    (hcs : ∀ c ∈ cs, c.During store threshold) :
    let w := cs.foldl (Watched.step startOf store.runId) ⟨t, fun _ => []⟩
    (∃ row ∈ w.db.extractorStatus, row.isOf store) ∧
      (∀ row ∈ w.db.extractorStatus, row.isOf store → row.runId = store.runId ∧
        ShowsErrors row.lastError (workerErrors w.db.workerStatus store.runId)) ∧
      (∀ row ∈ w.db.workerStatus, row.runId = store.runId →
        row.consecutiveFailures = (w.failures row.worker).length ∧
        row.lastError = (if threshold row.worker ≤ (w.failures row.worker).length then
          (w.failures row.worker).getLast? else none) ∧
        (0 < threshold row.worker →
          (row.lastError.isSome ↔ threshold row.worker ≤ (w.failures row.worker).length))) ∧
      (∀ (c : Command) (run : Uuid) (worker : ExtractorWorker), c.worker = some (run, worker) →
        (w.db.exec startOf c).otherWorkers run worker = w.db.otherWorkers run worker) ∧
      ∀ c : Command, c.ofHealth = false → SameHealth w.db (w.db.exec startOf c) := by
  intro w
  obtain ⟨hstore, hrows, -⟩ := initializeIdentity_status hopen
  obtain rfl : store = ⟨source, datasetId, runId, version⟩ := hstore
  have hfresh : ∀ row ∈ s.workerStatus, row.runId ≠ runId := by
    intro row hrow hrun
    obtain ⟨r, hr, heq⟩ := hruns row hrow
    refine (initializeIdentity_inv hopen).1 _ (List.mem_map_of_mem hr) ?_
    rw [ExtractorRun.orphan]
    split_ifs
    · exact heq.trans hrun
    · exact heq.trans hrun
  have hstart : Watched.Health ⟨source, datasetId, runId, version⟩ threshold ⟨t, fun _ => []⟩ :=
    ⟨fun row hrow hrun => (hfresh row (hrows ▸ hrow) hrun).elim, fun _ _ => rfl,
      Db.Shows.opened hfresh hopen⟩
  have hhealth : w.Health ⟨source, datasetId, runId, version⟩ threshold :=
    List.foldlRecOn cs _ hstart fun _ h c hc => Watched.step_health h (hcs c hc)
  refine ⟨hhealth.shown.claimed, fun row hrow hof => ?_, fun row hrow hrun => ?_,
    fun c run worker hc => w.db.exec_otherWorkers startOf hc, fun c hc => w.db.exec_sameHealth startOf hc⟩
  · obtain ⟨hrun, herror⟩ := hhealth.shown.shows row hrow hof
    exact ⟨hrun, herror ▸ aggregateError_shows _ _⟩
  · have htells := hhealth.rows row hrow hrun
    exact ⟨htells.count, htells.error, fun hpositive => htells.count ▸ htells.visible hpositive⟩

end

/-! ### Two workers that fail -/

namespace FailingWorkers

@[reducible] def digests : Digests := .ofPayloads []

def store : Store := ⟨.enforcer, 0, 0, 9⟩

/-- A failure to read the tip shows at once, one to read the requests the third time. -/
def threshold : ExtractorWorker → ℕ
  | .bmmRequests => 3
  | _ => 1

def commands : List Command :=
  [.initializeWorkerStatuses store [.mainchainTip, .bmmRequests],
    .recordWorkerFailure store .mainchainTip "tip RPC unavailable" 1,
    .recordWorkerFailure store .bmmRequests "attempt 1" 3,
    .recordWorkerFailure store .bmmRequests "attempt 2" 3,
    .recordWorkerFailure store .bmmRequests "attempt 3" 3]

end FailingWorkers

open FailingWorkers in
/-- The status row shows both. -/
theorem worker_health_aggregated_failing :
    ∃ t tip, initializeIdentity .enforcer 0 0 9 Db.empty = .ok ((store, tip), t) ∧
      ∃ row ∈ (commands.foldl (@Watched.step FailingWorkers.digests (fun _ => 5) 0)
          ⟨t, fun _ => []⟩).db.extractorStatus, row.isOf store ∧
        ShowsErrors row.lastError
          [(.mainchainTip, "tip RPC unavailable"), (.bmmRequests, "attempt 3")] := by
  let _ := FailingWorkers.digests
  have hruns : ∀ row ∈ Db.empty.workerStatus, ∃ r ∈ Db.empty.runs, r.runId = row.runId := by
    simp [Db.empty]
  have hcs : ∀ c ∈ commands, c.During store threshold := by
    simp [commands, Command.During, threshold]
  refine ⟨_, _, rfl, ?_⟩
  obtain ⟨⟨row, hrow, hof⟩, hshows, -⟩ := worker_health_aggregated (fun _ => 5) hruns rfl hcs
  exact ⟨row, hrow, hof, (hshows row hrow hof).2⟩

end Bip300Monitor
