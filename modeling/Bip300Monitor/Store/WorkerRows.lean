import Bip300Monitor.Store.Effects

/-!
# The health rows of workers

A worker's failure or success can only be recorded when the run has a health row for the worker,
and only `initialize_worker_statuses` makes one.

## What is proved

* `apart_insertAll`, `apart_recordHistoryPageTx` — what writes evidence or coverage leaves the rows;
* `Db.exec_workerInitialized` — the rows that are there after a command: those that were, and
  those it initializes;
* `Db.exec_hashedTips` — the last tips of the sources, beside the rows, keep hashes of 32 bytes.
-/

namespace Bip300Monitor

open Protobuf Transaction

/-- The health rows are as they were. -/
structure SameWorkers (s t : Db) : Prop where
  workerStatus : t.workerStatus = s.workerStatus

instance : Std.Refl SameWorkers := ⟨fun _ => ⟨rfl⟩⟩

instance : IsTrans Db SameWorkers := ⟨fun _ _ _ h h' => ⟨h'.workerStatus.trans h.workerStatus⟩⟩

/-- The last tips of the sources have hashes of 32 bytes. -/
def Db.HashedTips (db : Db) : Prop :=
  ∀ row ∈ db.extractorStatus, ∀ tip ∈ row.lastTip, tip.hash.length = 32

/-- A change of rows that keeps what their last tips are. -/
theorem Db.HashedTips.map {s t : Db} (h : s.HashedTips) {set : ExtractorStatus → ExtractorStatus}
    (hset : ∀ row, (set row).lastTip = row.lastTip)
    (ht : t.extractorStatus = s.extractorStatus.map set) : t.HashedTips := by
  intro row hrow tip htip
  rw [ht] at hrow
  obtain ⟨row', hrow', rfl⟩ := List.mem_map.mp hrow
  rw [hset] at htip
  exact h row' hrow' tip htip

/-- The health rows and the fee jobs are as they were, and last tips keep to their form. -/
structure SameTasks (s t : Db) : Prop where
  workers : SameWorkers s t
  feeJobs : t.feeJobs = s.feeJobs
  tips : s.HashedTips → t.HashedTips

/-- Neither the tasks nor the status rows are touched. -/
theorem SameTasks.of_eq {s t : Db} (hworkers : t.workerStatus = s.workerStatus)
    (hjobs : t.feeJobs = s.feeJobs) (hstatus : t.extractorStatus = s.extractorStatus) :
    SameTasks s t where
  workers := ⟨hworkers⟩
  feeJobs := hjobs
  tips h := by rwa [Db.HashedTips, hstatus]

instance : Std.Refl SameTasks := ⟨fun _ => .of_eq rfl rfl rfl⟩

instance : IsTrans Db SameTasks := ⟨fun _ _ _ h h' =>
  ⟨IsTrans.trans _ _ _ h.workers h'.workers, h'.feeJobs.trans h.feeJobs, h'.tips ∘ h.tips⟩⟩

/-- A relation between the record before and after a write that leaves the health rows, the fee jobs
and the status rows alone, but for a last tip. -/
class Apart (R : Db → Db → Prop) : Prop extends Std.Refl R, IsTrans Db R where
  of_eq {s t : Db} : t.workerStatus = s.workerStatus → t.feeJobs = s.feeJobs →
    t.extractorStatus = s.extractorStatus → R s t
  tip (s : Db) (mine : ExtractorStatus → Prop) [DecidablePred mine] {tip : Block} :
    tip.hash.length = 32 → R s { s with
      extractorStatus := s.extractorStatus.map fun row =>
        if mine row then { row with lastTip := some tip } else row }

instance : Apart SameTasks where
  of_eq := .of_eq
  tip s mine _ tip htip := by
    refine ⟨⟨rfl⟩, rfl, fun h row hrow tip' htip' => ?_⟩
    obtain ⟨row', hrow', rfl⟩ := List.mem_map.mp hrow
    split_ifs at htip'
    · cases htip'
      exact htip
    · exact h row' hrow' tip' htip'

/-! ### Everything else keeps the rows -/

variable {R : Db → Db → Prop} [Apart R]

theorem apart_insertFact (row : EventRow) : Tx.Guarantees R (insertFact row) := by
  intro s a t h
  rcases (insertFact_eq_ok.mp h).2 with ⟨_, -, -, rfl⟩ | ⟨-, -, -, rfl⟩
  · exact Std.Refl.refl t
  · exact Apart.of_eq rfl rfl rfl

theorem apart_insertObservation (row : EventObservation) :
    Tx.Guarantees R (insertObservation row) :=
  Tx.guarantees_read.bind fun _ => (Tx.guarantees_require _ _).bind fun _ =>
    Tx.guarantees_modify fun _ => Apart.of_eq rfl rfl rfl

theorem apart_reserveCaptureSequences (runId : Uuid) (count : ℕ) :
    Tx.Guarantees R (reserveCaptureSequences runId count) :=
  (Tx.guarantees_require _ _).bind fun _ => Tx.guarantees_read.bind fun _ =>
    (Tx.guarantees_expect _ _).bind fun _ =>
      Tx.Guarantees.bind (Tx.guarantees_modify fun _ => Apart.of_eq rfl rfl rfl) fun _ =>
        Tx.guarantees_pure _

theorem apart_recordSidechainInstance (row : SidechainInstanceRow) :
    Tx.Guarantees R (recordSidechainInstance row) := by
  refine (Tx.guarantees_require _ _).bind fun _ => Tx.guarantees_modify fun db => ?_
  split_ifs
  · exact Apart.of_eq rfl rfl rfl
  · exact Apart.of_eq rfl rfl rfl

theorem requireHash_eq_ok {hash : Bytes} {name : String} {u : Unit} :
    requireHash hash name = .ok u ↔ hash.length = 32 := by
  by_cases h : hash.length = 32 <;> simp [requireHash, h]

theorem apart_updateExtractorStatus (store : Store) {tip : ObservedBlock}
    (htip : tip.hash.length = 32) : Tx.Guarantees R (updateExtractorStatus store tip) :=
  (Tx.guarantees_lift _).bind fun _ => (Tx.guarantees_lift _).bind fun _ =>
    Tx.guarantees_modify fun db => Apart.tip db _ htip

theorem apart_recordTipObservation (store : Store) (tip : ObservedBlock)
    (previous : Option ObservedBlock) (method : CaptureMethod) (observedAt : ℕ) :
    Tx.Guarantees R (recordTipObservation store tip previous method observedAt) :=
  (Tx.guarantees_lift _).bind fun _ => (Tx.guarantees_lift _).bind fun _ =>
    Tx.guarantees_lift_bind fun _ hhash => (Tx.guarantees_lift _).bind fun _ =>
      (apart_reserveCaptureSequences _ _).bind fun _ => Tx.guarantees_read.bind fun _ =>
        (Tx.guarantees_require _ _).bind fun _ =>
          Tx.Guarantees.bind (Tx.guarantees_modify fun _ => Apart.of_eq rfl rfl rfl) fun _ =>
            apart_updateExtractorStatus _ (requireHash_eq_ok.mp hhash)

/-- A checked snapshot ends at a tip whose hash has 32 bytes. -/
theorem checkSnapshot_tipAfter {store : Store} {metadata : SnapshotMetadata} {u : Unit}
    (h : checkSnapshot store metadata = .ok u) : metadata.tipAfter.hash.length = 32 := by
  obtain ⟨_, -, h⟩ := Result.bind_eq_ok.mp h
  obtain ⟨_, hafter, -⟩ := Result.bind_eq_ok.mp h
  exact requireHash_eq_ok.mp hafter

theorem apart_insertSnapshotGroup (store : Store) (method : CaptureMethod)
    (metadata : SnapshotMetadata) (before after : ℕ) :
    Tx.Guarantees R (insertSnapshotGroup store method metadata before after) :=
  (Tx.guarantees_require _ _).bind fun _ => Tx.guarantees_read.bind fun _ =>
    Tx.Guarantees.bind (Tx.guarantees_modify fun _ => Apart.of_eq rfl rfl rfl) fun _ => Tx.guarantees_pure _

/-- Writing a row of coverage, with the trigger. -/
theorem apart_writeCoverage (k : ScopeKey) (row : CoverageRow) :
    Tx.Guarantees R (writeCoverage k row) := by
  intro s a t h
  obtain ⟨-, u, hcertify, rfl⟩ := writeCoverage_inv h
  by_cases hstatus : row.status = .complete
  · obtain ⟨-, -, -, rfl⟩ := (certifyHistory_eq_ok hstatus).mp hcertify
    exact Apart.of_eq rfl rfl rfl
  · rw [certifyHistory, if_pos hstatus, Tx.pure_eq_ok] at hcertify
    obtain ⟨-, rfl⟩ := hcertify
    exact Apart.of_eq rfl rfl rfl

theorem sameTasks_initializeIdentity (source : Source) (datasetId runId : Uuid) (version : ℕ) :
    Tx.Guarantees SameTasks (initializeIdentity source datasetId runId version) := by
  refine (Tx.guarantees_modify fun _ => .of_eq rfl rfl rfl).bind fun _ => Tx.guarantees_read.bind fun _ =>
    (Tx.guarantees_require _ _).bind fun _ =>
      (Tx.guarantees_modify fun _ => .of_eq rfl rfl rfl).bind fun _ =>
        (Tx.guarantees_modify fun _ => ⟨⟨rfl⟩, rfl, fun h row hrow tip htip => ?_⟩).bind fun _ =>
          Tx.guarantees_pure _
  simp only at hrow
  split_ifs at hrow
  · obtain ⟨row', hrow', rfl⟩ := List.mem_map.mp hrow
    split_ifs at htip
    · exact h row' hrow' tip htip
    · exact h row' hrow' tip htip
  · rcases List.mem_append.mp hrow with hrow | hrow
    · exact h row hrow tip htip
    · obtain rfl := List.mem_singleton.mp hrow
      cases htip

theorem sameTasks_finishRun (store : Store) (status : RunStatus) (reason : Option String) :
    Tx.Guarantees SameTasks (finishRun store status reason) := by
  refine (Tx.guarantees_require _ _).bind fun _ => Tx.guarantees_modify fun db => ?_
  refine ⟨⟨rfl⟩, rfl, fun h => h.map (fun row => ?_) rfl⟩
  split
  · rfl
  · rfl

/-! ### Coverage -/

section
variable {store : Store} {scope : HistoryScope}

theorem apart_historyCoverage : Tx.Guarantees R (historyCoverage store scope) := by
  unfold historyCoverage
  exact (Tx.guarantees_lift _).bind fun _ => Tx.guarantees_read.bind fun _ => Tx.guarantees_pure _

theorem apart_certifiedHistoryFloor {hashes : List Bytes} :
    Tx.Guarantees R (certifiedHistoryFloor store scope hashes) :=
  Tx.guarantees_read.bind fun _ => Tx.guarantees_pure _

theorem apart_beginHistoryCycle {start floorPage : ℕ} {coveredTip : Option ObservedBlock}
    {targetTip : ObservedBlock} {floorHash : Option Bytes} {floorHeight : Option ℕ} :
    Tx.Guarantees R (beginHistoryCycle store scope start coveredTip targetTip floorHash
      floorHeight floorPage) := by
  intro s a t h
  obtain ⟨_, _, -, -, -, -, -, rfl, -⟩ := beginHistoryCycle_inv h
  exact Apart.of_eq rfl rfl rfl

theorem apart_setHistoryFloor {cursor : ObservedBlock} {floorHash : Option Bytes}
    {floorHeight : Option ℕ} :
    Tx.Guarantees R (setHistoryFloor store scope cursor floorHash floorHeight) := by
  intro s a t h
  obtain ⟨_, -, -, -, -, rfl⟩ := setHistoryFloor_inv h
  exact Apart.of_eq rfl rfl rfl

theorem apart_resizeHistoryPage {page : ℕ} {error : String} :
    Tx.Guarantees R (resizeHistoryPage store scope page error) := by
  intro s a t h
  obtain ⟨_, -, -, -, rfl⟩ := resizeHistoryPage_inv h
  exact Apart.of_eq rfl rfl rfl

theorem apart_resumeHistory : Tx.Guarantees R (resumeHistory store scope) := by
  intro s a t h
  obtain ⟨_, -, -, -, -, rfl⟩ := resumeHistory_inv h
  exact Apart.of_eq rfl rfl rfl

theorem apart_settleHistoryFailure {error : String} :
    Tx.Guarantees R (settleHistoryFailure store scope error) := by
  intro s a t h
  obtain ⟨_, -, ⟨-, -, rfl⟩ | ⟨-, -, -, rfl⟩ | ⟨-, -, -, rfl⟩⟩ := settleHistoryFailure_inv h
  · exact Apart.of_eq rfl rfl rfl
  · exact Apart.of_eq rfl rfl rfl
  · exact Apart.of_eq rfl rfl rfl

theorem apart_supersedeHistory {stream : StreamName} {sidechain : ℕ} {id reason : String} :
    Tx.Guarantees R (supersedeHistory store stream sidechain id reason) := by
  intro s a t h
  rcases supersedeHistory_inv h with ⟨rfl, -⟩ | ⟨_, -, -, -, rfl⟩
  · exact Apart.of_eq rfl rfl rfl
  · exact Apart.of_eq rfl rfl rfl

end

/-! ### Evidence -/

section
variable [Digests]

theorem apart_updateSidechainInstances (dataset : Uuid) (event : Event) (observedAt : ℕ)
    (cache : InstanceCache) (authoritative : Bool) :
    Tx.Guarantees R
      (updateSidechainInstances dataset event observedAt cache authoritative) := by
  have hinstances : ∀ sidechains, Tx.Guarantees R
      (recordInstances dataset observedAt sidechains) := by
    intro sidechains
    induction sidechains with
    | nil => exact Tx.guarantees_pure _
    | cons sidechain rest ih =>
      exact (Tx.guarantees_lift _).bind fun _ => (Tx.guarantees_require _ _).bind fun _ =>
        (Tx.guarantees_lift _).bind fun _ => (Tx.guarantees_lift _).bind fun _ =>
          (Tx.guarantees_lift _).bind fun _ =>
            (apart_recordSidechainInstance _).bind fun _ => ih.bind fun _ =>
              Tx.guarantees_pure _
  unfold updateSidechainInstances updateSidechainInstancesWith
  split
  · exact Tx.guarantees_pure _
  · refine (hinstances _).bind fun _ => ?_
    split_ifs
    · exact Tx.Guarantees.bind (Tx.guarantees_modify fun _ => Apart.of_eq rfl rfl rfl) fun _ =>
        Tx.guarantees_pure _
    · exact Tx.guarantees_pure _

/-- Recording events. -/
theorem apart_insertAll (store : Store) (method : CaptureMethod) (group slot : Option ℕ)
    (id : Option String) (captureSeq : ℕ) (events : List Event) (cache : InstanceCache) :
    Tx.Guarantees R (insertAll store method group slot id captureSeq events cache) := by
  induction events generalizing captureSeq cache with
  | nil => exact Tx.guarantees_pure _
  | cons event rest ih =>
    refine Tx.Guarantees.bind (fun s r t h => ?_) fun _ => (ih _ _).bind fun _ => Tx.guarantees_pure _
    obtain ⟨_, _, _, _, u, _, _, v, -, -, -, hupdate, -, hfact, hobservation, -⟩ := insert_pieces h
    have hsu : R s u := apart_updateSidechainInstances _ _ _ _ _ hupdate
    have huv : R u v := apart_insertFact _ hfact
    exact IsTrans.trans _ _ _ (IsTrans.trans _ _ _ hsu huv)
      (apart_insertObservation _ hobservation)

theorem apart_recordBatch (store : Store) (events : List Event) (method : CaptureMethod)
    (inst : Option SidechainInstanceRef) :
    Tx.Guarantees R (recordBatch store events method inst) := by
  unfold recordBatch
  split_ifs
  · exact Tx.guarantees_pure _
  · exact (reads_validateExplicit _ _ _).of_eq.bind fun _ =>
      (apart_reserveCaptureSequences _ _).bind fun _ => apart_insertAll _ _ _ _ _ _ _ _

theorem apart_recordSnapshot (store : Store) (events : List Event) (method : CaptureMethod)
    (metadata : SnapshotMetadata) :
    Tx.Guarantees R (recordSnapshot store events method metadata) := by
  unfold recordSnapshot
  split_ifs
  · exact Tx.guarantees_pure _
  · exact Tx.guarantees_lift_bind fun _ hcheck => (Tx.guarantees_lift _).bind fun _ =>
      (Tx.guarantees_lift _).bind fun _ => (Tx.guarantees_lift _).bind fun _ =>
        (Tx.guarantees_lift _).bind fun _ => (Tx.guarantees_lift _).bind fun _ =>
          (Tx.guarantees_require _ _).bind fun _ =>
            (apart_insertSnapshotGroup _ _ _ _ _).bind fun _ =>
              (apart_reserveCaptureSequences _ _).bind fun _ =>
                (apart_insertAll _ _ _ _ _ _ _ _).bind fun _ =>
                  (apart_updateExtractorStatus _ (checkSnapshot_tipAfter hcheck)).bind fun _ =>
                    Tx.guarantees_pure _

theorem apart_recordHistoryPageTx (store : Store) (events : List Event) (page : HistoryPage) :
    Tx.Guarantees R (recordHistoryPageTx store events page) := by
  intro s a t h
  obtain ⟨-, _, _, _, u, -, -, hinsert, -, -, -, -, hw⟩ := recordHistoryPageTx_inv h
  have hu : Tx.Guarantees R (insertPage store events page.scope) :=
    (reads_validateExplicit _ _ _).of_eq.bind fun _ =>
      (apart_reserveCaptureSequences _ _).bind fun _ => apart_insertAll _ _ _ _ _ _ _ _
  exact IsTrans.trans _ _ _ (hu hinsert) (apart_writeCoverage _ _ hw)

omit [Digests] in
theorem sameWorkers_scheduleFeeJob (store : Store) (sourceEventId : ℕ) (done : Bool)
    (error : Option String) :
    Tx.Guarantees SameWorkers (scheduleFeeJob store sourceEventId done error) := by
  refine Tx.guarantees_read.bind fun _ => (Tx.guarantees_require _ _).bind fun _ => ?_
  refine Tx.guarantees_modify fun db => ?_
  by_cases h : ∃ job ∈ db.feeJobs, job.isOf store sourceEventId
  · rw [if_pos h]
    exact ⟨rfl⟩
  · rw [if_neg h]
    exact ⟨rfl⟩

theorem sameWorkers_recordFeeEnrichment (store : Store) (candidates : List (ℕ × Bytes))
    (sourceEventId : ℕ) (event : Event) :
    Tx.Guarantees SameWorkers (recordFeeEnrichment store candidates sourceEventId event) := by
  intro s a t h
  obtain ⟨first, u, n, v, done, hreserve, hinsert, hschedule⟩ := recordFeeEnrichment_inv h
  have hsu := (apart_reserveCaptureSequences (R := SameTasks) _ _ hreserve).workers
  have huv := (apart_insertAll (R := SameTasks) _ _ _ _ _ _ _ _ hinsert).workers
  exact IsTrans.trans _ _ _ (IsTrans.trans _ _ _ hsu huv) (sameWorkers_scheduleFeeJob _ _ _ _ hschedule)

end

/-! ### Rows that are made -/

/-- The workers for which a command makes rows in the run, where there are none. -/
def Command.initializes (run : Uuid) : Command → List ExtractorWorker
  | .initializeWorkerStatuses store workers => if store.runId = run then workers else []
  | _ => []

theorem SameWorkers.workerInitialized {s t : Db} (h : SameWorkers s t) (run : Uuid)
    (worker : ExtractorWorker) : t.workerInitialized run worker ↔ s.workerInitialized run worker := by
  rw [Db.workerInitialized, h.workerStatus, Db.workerInitialized]

/-- A change to a row leaves it the row of its worker. -/
theorem workerInitialized_updateWorker (db : Db) (run run' : Uuid) (worker worker' : ExtractorWorker)
    {set : WorkerStatus → WorkerStatus} (hset : ∀ w, (set w).runId = w.runId ∧ (set w).worker = w.worker) :
    (db.updateWorker run worker set).workerInitialized run' worker' ↔
      db.workerInitialized run' worker' := by
  have hkey : ∀ w : WorkerStatus, (if w.runId = run ∧ w.worker = worker then set w else w).runId = w.runId ∧
      (if w.runId = run ∧ w.worker = worker then set w else w).worker = w.worker := by
    intro w
    split_ifs
    · exact hset w
    · exact ⟨rfl, rfl⟩
  constructor
  · rintro ⟨w, hw, hrun, hworker⟩
    obtain ⟨w', hw', rfl⟩ := List.mem_map.mp hw
    exact ⟨w', hw', (hkey w').1.symm.trans hrun, (hkey w').2.symm.trans hworker⟩
  · rintro ⟨w, hw, hrun, hworker⟩
    exact ⟨_, List.mem_map_of_mem hw, (hkey w).1.trans hrun, (hkey w).2.trans hworker⟩

theorem workerInitialized_initializeWorker (db : Db) (run run' : Uuid)
    (worker worker' : ExtractorWorker) :
    (Db.initializeWorker run db worker).workerInitialized run' worker' ↔
      db.workerInitialized run' worker' ∨ (run = run' ∧ worker' = worker) := by
  unfold Db.initializeWorker
  split_ifs with h
  · refine ⟨.inl, ?_⟩
    rintro (hthere | ⟨rfl, rfl⟩)
    · exact hthere
    · exact h
  · simp only [Db.workerInitialized, List.mem_append, List.mem_singleton, or_and_right, exists_or,
      exists_eq_left]
    simp only [eq_comm]

theorem workerInitialized_initializeWorkers (run run' : Uuid) (workers : List ExtractorWorker)
    (worker : ExtractorWorker) (db : Db) :
    (workers.foldl (Db.initializeWorker run) db).workerInitialized run' worker ↔
      db.workerInitialized run' worker ∨ (run = run' ∧ worker ∈ workers) := by
  induction workers generalizing db with
  | nil => simp
  | cons first rest ih =>
    rw [List.foldl_cons, ih, workerInitialized_initializeWorker, List.mem_cons, or_assoc, and_or_left]

/-- Recomputing the error that is shown leaves the rows. -/
theorem sameWorkers_recomputeExtractorError (store : Store) :
    Tx.Guarantees SameWorkers (recomputeExtractorError store) := Tx.guarantees_modify fun _ => ⟨rfl⟩

/-- A failure changes the row it is recorded in. -/
theorem recordWorkerFailure_workerInitialized {store : Store} {worker worker' : ExtractorWorker}
    {error : String} {degradedAfter failures : ℕ} {run : Uuid} {s t : Db}
    (h : recordWorkerFailure store worker error degradedAfter s = .ok (failures, t)) :
    t.workerInitialized run worker' ↔ s.workerInitialized run worker' := by
  obtain ⟨-, h⟩ := Tx.require_bind_eq_ok.mp h
  obtain ⟨threshold, -, h⟩ := Tx.lift_bind_eq_ok.mp h
  obtain ⟨row, -, h⟩ := Tx.expect_bind_eq_ok.mp (Tx.read_bind_eq_ok.mp h)
  rw [Tx.modify_bind_eq_ok, Tx.modify_bind_eq_ok] at h
  obtain ⟨_, u, hrecompute, h⟩ := Tx.bind_eq_ok.mp h
  obtain ⟨-, rfl⟩ := Tx.pure_eq_ok.mp h
  rw [(sameWorkers_recomputeExtractorError _ hrecompute).workerInitialized]
  exact workerInitialized_updateWorker s _ _ _ _ fun _ => ⟨rfl, rfl⟩

/-- So does a success. -/
theorem recordWorkerSuccess_workerInitialized {store : Store} {worker worker' : ExtractorWorker}
    {run : Uuid} {s t : Db} (h : recordWorkerSuccess store worker s = .ok ((), t)) :
    t.workerInitialized run worker' ↔ s.workerInitialized run worker' := by
  obtain ⟨-, h⟩ := Tx.require_bind_eq_ok.mp (Tx.read_bind_eq_ok.mp h)
  rw [Tx.modify_bind_eq_ok] at h
  rw [(sameWorkers_recomputeExtractorError _ h).workerInitialized]
  exact workerInitialized_updateWorker s _ _ _ _ fun _ => ⟨rfl, rfl⟩

section
variable [Digests]

/-- **The rows after a command** are those that were there, and those it initializes. -/
theorem Db.exec_workerInitialized (startOf : ScopeKey → ℕ) (db : Db) (c : Command) (run : Uuid)
    (worker : ExtractorWorker) :
    (db.exec startOf c).workerInitialized run worker ↔
      db.workerInitialized run worker ∨ worker ∈ c.initializes run := by
  have same {α : Type} {x : Write α} (h : Tx.Guarantees SameWorkers x) :
      (Tx.commit x db).2.workerInitialized run worker ↔
        db.workerInitialized run worker ∨ worker ∈ [] := by
    rw [(h.commit db).workerInitialized, or_iff_left List.not_mem_nil]
  have tasks {α : Type} {x : Write α} (h : Tx.Guarantees SameTasks x) :
      (Tx.commit x db).2.workerInitialized run worker ↔
        db.workerInitialized run worker ∨ worker ∈ [] := same (h.mono fun _ _ h => h.workers)
  cases c with
  | initializeIdentity => exact tasks (sameTasks_initializeIdentity _ _ _ _)
  | finishRun => exact tasks (sameTasks_finishRun _ _ _)
  | initializeWorkerStatuses store workers =>
    have hrows : (db.exec startOf (.initializeWorkerStatuses store workers)).workerInitialized run
        worker ↔ _ := workerInitialized_initializeWorkers store.runId run workers worker db
    rw [hrows, Command.initializes]
    split_ifs with hrun
    · simp [hrun]
    · simp [hrun]
  | recordWorkerFailure store w error degradedAfter =>
    rcases Tx.commit_snd_cases (recordWorkerFailure store w error degradedAfter) db with
      ⟨_, t, hok, hcommit⟩ | ⟨e, -, hcommit⟩
    · simp only [Db.exec, hcommit, Command.initializes, List.not_mem_nil, or_false]
      exact recordWorkerFailure_workerInitialized hok
    · simp only [Db.exec, hcommit, Command.initializes, List.not_mem_nil, or_false]
  | recordWorkerSuccess store w =>
    rcases Tx.commit_snd_cases (recordWorkerSuccess store w) db with
      ⟨_, t, hok, hcommit⟩ | ⟨e, -, hcommit⟩
    · simp only [Db.exec, hcommit, Command.initializes, List.not_mem_nil, or_false]
      exact recordWorkerSuccess_workerInitialized hok
    · simp only [Db.exec, hcommit, Command.initializes, List.not_mem_nil, or_false]
  | recordTipObservation => exact tasks (apart_recordTipObservation _ _ _ _ _)
  | historyCoverage => exact (or_iff_left List.not_mem_nil).symm
  | record => exact tasks (apart_recordBatch _ _ _ _)
  | recordSnapshot => exact tasks (apart_recordSnapshot _ _ _ _)
  | recordFeeEnrichment => exact same (sameWorkers_recordFeeEnrichment _ _ _ _)
  | recordFeeFailure => exact same (sameWorkers_scheduleFeeJob _ _ _ _)
  | beginHistoryCycle => exact tasks apart_beginHistoryCycle
  | setHistoryFloor => exact tasks apart_setHistoryFloor
  | resizeHistoryPage => exact tasks apart_resizeHistoryPage
  | resumeHistory => exact tasks apart_resumeHistory
  | settleHistoryFailure => exact tasks apart_settleHistoryFailure
  | supersedeHistory => exact tasks apart_supersedeHistory
  | recordHistoryPage => exact tasks (apart_recordHistoryPageTx _ _ _)

end

/-! ### The last tips of the sources -/

theorem hashedTips_recomputeExtractorError (store : Store) :
    Tx.Guarantees (Tx.Preserves Db.HashedTips) (recomputeExtractorError store) := by
  refine Tx.guarantees_modify fun db h => h.map (fun row => ?_) rfl
  split
  · rfl
  · rfl

theorem extractorStatus_initializeWorkers (run : Uuid) (workers : List ExtractorWorker) (db : Db) :
    (workers.foldl (Db.initializeWorker run) db).extractorStatus = db.extractorStatus := by
  induction workers generalizing db with
  | nil => rfl
  | cons worker rest ih =>
    rw [List.foldl_cons, ih, Db.initializeWorker]
    split_ifs
    · rfl
    · rfl

theorem hashedTips_initializeWorkerStatuses (store : Store) (workers : List ExtractorWorker) :
    Tx.Guarantees (Tx.Preserves Db.HashedTips) (initializeWorkerStatuses store workers) := by
  refine (Tx.guarantees_modify fun db h => ?_).bind fun _ => hashedTips_recomputeExtractorError store
  rwa [Db.HashedTips, extractorStatus_initializeWorkers]

theorem hashedTips_recordWorkerFailure (store : Store) (worker : ExtractorWorker) (error : String)
    (degradedAfter : ℕ) : Tx.Guarantees (Tx.Preserves Db.HashedTips)
      (recordWorkerFailure store worker error degradedAfter) :=
  (Tx.guarantees_require _ _).bind fun _ => (Tx.guarantees_lift _).bind fun _ =>
    Tx.guarantees_read.bind fun _ => (Tx.guarantees_expect _ _).bind fun _ =>
      (Tx.guarantees_modify fun _ => id).bind fun _ => (Tx.guarantees_modify fun _ => id).bind fun _ =>
        (hashedTips_recomputeExtractorError store).bind fun _ => Tx.guarantees_pure _

theorem hashedTips_recordWorkerSuccess (store : Store) (worker : ExtractorWorker) :
    Tx.Guarantees (Tx.Preserves Db.HashedTips) (recordWorkerSuccess store worker) :=
  Tx.guarantees_read.bind fun _ => (Tx.guarantees_require _ _).bind fun _ =>
    (Tx.guarantees_modify fun _ => id).bind fun _ => hashedTips_recomputeExtractorError store

theorem hashedTips_scheduleFeeJob (store : Store) (sourceEventId : ℕ) (done : Bool)
    (error : Option String) : Tx.Guarantees (Tx.Preserves Db.HashedTips)
      (scheduleFeeJob store sourceEventId done error) := by
  refine Tx.guarantees_read.bind fun _ => (Tx.guarantees_require _ _).bind fun _ =>
    Tx.guarantees_modify fun db => ?_
  split
  · exact id
  · exact id

section
variable [Digests]

theorem hashedTips_recordFeeEnrichment (store : Store) (candidates : List (ℕ × Bytes))
    (sourceEventId : ℕ) (event : Event) : Tx.Guarantees (Tx.Preserves Db.HashedTips)
      (recordFeeEnrichment store candidates sourceEventId event) := by
  intro s a t h hs
  obtain ⟨first, u, n, v, done, hreserve, hinsert, hschedule⟩ := recordFeeEnrichment_inv h
  have hu := (apart_reserveCaptureSequences (R := SameTasks) _ _ hreserve).tips hs
  have hv := (apart_insertAll (R := SameTasks) _ _ _ _ _ _ _ _ hinsert).tips hu
  exact hashedTips_scheduleFeeJob _ _ _ _ hschedule hv

/-- **The last tips keep to their form**, whatever is written. -/
theorem Db.exec_hashedTips (startOf : ScopeKey → ℕ) {db : Db} (h : db.HashedTips) (c : Command) :
    (db.exec startOf c).HashedTips := by
  have tasks {α : Type} {x : Write α} (hx : Tx.Guarantees SameTasks x) :
      (Tx.commit x db).2.HashedTips := (hx.commit db).tips h
  have status {α : Type} {x : Write α} (hx : Tx.Guarantees (Tx.Preserves Db.HashedTips) x) :
      (Tx.commit x db).2.HashedTips := hx.commit db h
  cases c with
  | initializeIdentity => exact tasks (sameTasks_initializeIdentity _ _ _ _)
  | finishRun => exact tasks (sameTasks_finishRun _ _ _)
  | initializeWorkerStatuses => exact status (hashedTips_initializeWorkerStatuses _ _)
  | recordWorkerFailure => exact status (hashedTips_recordWorkerFailure _ _ _ _)
  | recordWorkerSuccess => exact status (hashedTips_recordWorkerSuccess _ _)
  | recordTipObservation => exact tasks (apart_recordTipObservation _ _ _ _ _)
  | historyCoverage => exact h
  | record => exact tasks (apart_recordBatch _ _ _ _)
  | recordSnapshot => exact tasks (apart_recordSnapshot _ _ _ _)
  | recordFeeEnrichment => exact status (hashedTips_recordFeeEnrichment _ _ _ _)
  | recordFeeFailure => exact status (hashedTips_scheduleFeeJob _ _ _ _)
  | beginHistoryCycle => exact tasks apart_beginHistoryCycle
  | setHistoryFloor => exact tasks apart_setHistoryFloor
  | resizeHistoryPage => exact tasks apart_resizeHistoryPage
  | resumeHistory => exact tasks apart_resumeHistory
  | settleHistoryFailure => exact tasks apart_settleHistoryFailure
  | supersedeHistory => exact tasks apart_supersedeHistory
  | recordHistoryPage => exact tasks (apart_recordHistoryPageTx _ _ _)

omit [Digests] in
/-- The last tip that a new run is told has a hash of 32 bytes. -/
theorem initializeIdentity_lastTip {source : Source} {datasetId runId : Uuid} {version : ℕ}
    {s t : Db} {store : Store} {tip : ObservedBlock} (hs : s.HashedTips)
    (h : initializeIdentity source datasetId runId version s = .ok ((store, some tip), t)) :
    tip.hash.length = 32 := by
  rw [initializeIdentity, Tx.modify_bind_eq_ok, Tx.read_bind_eq_ok, Tx.require_bind_eq_ok,
    Tx.modify_bind_eq_ok, Tx.modify_bind_eq_ok, Tx.pure_eq_ok] at h
  obtain ⟨-, hanswer, -⟩ := h
  obtain ⟨block, hblock, rfl⟩ := Option.map_eq_some_iff.mp (congrArg Prod.snd hanswer)
  obtain ⟨row, hrow, hlast⟩ := Option.bind_eq_some_iff.mp hblock
  exact hs row (List.mem_of_find?_eq_some hrow) block hlast

end

end Bip300Monitor
