import Bip300Monitor.Store.CaptureSequences

/-!
# Fencing

A startup closes the running run of its source and opens its own. A process that was taken
for dead may still hold the handle of the run that was closed. Every operation that records
something reserves sequence numbers first, and for a closed run there are none; the
operations on coverage and on fee jobs that record nothing do not look at their run.

## The model

Commands on any handles, in any order: a startup may fall between any two transactions of
an older process.

## What is proved

* `Db.exec_running` — no command leaves a source with two running runs;
* `Db.exec_fenced` — a command on a closed run's handle changes nothing, unless it is one
  of those operations and finds a row to write (`Command.Writes`);
* `run_fenced` — so it is in every run of commands.
-/

namespace Bip300Monitor

open Protobuf Transaction Runs

/-! ### Running runs -/

/-- The run is running, for this source of the dataset. -/
def ExtractorRun.isRunning (datasetId : Uuid) (source : Source) (r : ExtractorRun) : Bool :=
  r.datasetId = datasetId ∧ r.source = source ∧ r.status = .running

/-- `extractor_run_one_running`: at most one run of a source is running. -/
def Db.OneRunning (db : Db) : Prop :=
  ∀ datasetId source, db.runs.countP (·.isRunning datasetId source) ≤ 1

/-- Runs that change do not start to run. -/
theorem countP_running_map (f : ExtractorRun → ExtractorRun)
    (hf : ∀ r d s, (f r).isRunning d s → r.isRunning d s) (runs : List ExtractorRun) (d : Uuid)
    (s : Source) : (runs.map f).countP (·.isRunning d s) ≤ runs.countP (·.isRunning d s) := by
  rw [List.countP_map]
  exact List.countP_mono_left fun r _ hr => hf r d s hr

theorem ExtractorRun.isRunning_orphan {r : ExtractorRun} {datasetId d : Uuid} {source s : Source}
    (h : (r.orphan datasetId source).isRunning d s) :
    r.isRunning d s ∧ ¬ (d = datasetId ∧ s = source) := by
  unfold ExtractorRun.orphan at h
  split_ifs at h with hr
  · simp [isRunning] at h
  · refine ⟨h, ?_⟩
    rintro ⟨rfl, rfl⟩
    exact hr (of_decide_eq_true h)

theorem ExtractorRun.isRunning_finish {r : ExtractorRun} {run d : Uuid} {status : RunStatus}
    {s : Source} (hstatus : status ≠ .running) (h : (r.finish run status).isRunning d s) :
    r.isRunning d s := by
  unfold ExtractorRun.finish at h
  split_ifs at h
  · simp [isRunning, hstatus] at h
  · exact h

/-- Reserving moves a counter, and starts no run. -/
theorem reserve_countP {run : Uuid} {count first : ℕ} {s t : Db}
    (h : reserveCaptureSequences run count s = .ok (first, t)) (d : Uuid) (source : Source) :
    t.runs.countP (·.isRunning d source) ≤ s.runs.countP (·.isRunning d source) := by
  obtain ⟨-, h⟩ := Tx.require_bind_eq_ok.mp h
  obtain ⟨_, -, h⟩ := Tx.expect_bind_eq_ok.mp (Tx.read_bind_eq_ok.mp h)
  rw [Tx.modify_bind_eq_ok, Tx.pure_eq_ok] at h
  rw [← h.2]
  refine countP_running_map _ (fun r d s hr => ?_) s.runs d source
  split_ifs at hr
  · exact hr
  · exact hr

section
variable [Digests] {db : Db} {c : Command}

/-- **No command leaves a source with two running runs.** -/
theorem Db.exec_running (startOf : ScopeKey → ℕ) (c : Command) (h : db.OneRunning) :
    (db.exec startOf c).OneRunning := by
  intro d s
  have hdb := h d s
  cases db.exec_effect startOf c with
  | same _ heq => rw [heq.runs]; exact hdb
  | @opened source datasetId runId version _ _ hok =>
    obtain ⟨-, ht⟩ := initializeIdentity_inv hok
    rw [ht.runs, List.countP_append, List.countP_singleton]
    by_cases hnew : d = datasetId ∧ s = source
    · -- the runs that were running are not running any more
      obtain ⟨rfl, rfl⟩ := hnew
      have hnone : (db.runs.map (ExtractorRun.orphan d s)).countP (·.isRunning d s) = 0 := by
        rw [List.countP_eq_zero]
        intro r hr hrun
        obtain ⟨r', -, rfl⟩ := List.mem_map.mp hr
        exact (ExtractorRun.isRunning_orphan hrun).2 ⟨rfl, rfl⟩
      rw [hnone]
      split <;> omega
    · have hother : ExtractorRun.isRunning d s
          ⟨runId, datasetId, source, version, .running, 0⟩ = false := by
        refine decide_eq_false fun hrun => hnew ⟨hrun.1.symm, hrun.2.1.symm⟩
      have hle := countP_running_map (ExtractorRun.orphan datasetId source)
        (fun _ _ _ hr => (ExtractorRun.isRunning_orphan hr).1) db.runs d s
      rw [hother]
      simp only [Bool.false_eq_true, if_false]
      omega
  | closed _ hok =>
    obtain ⟨hstatus, ht⟩ := finishRun_inv hok
    rw [ht.runs]
    exact (countP_running_map _ (fun _ _ _ hr => ExtractorRun.isRunning_finish hstatus hr)
      db.runs d s).trans hdb
  | tip _ _ hok =>
    obtain ⟨_, _, _, u, -, -, hreserve, ht⟩ := recordTipObservation_inv hok
    rw [ht.runs]
    exact (reserve_countP hreserve d s).trans hdb
  | batch _ _ hrec =>
    obtain ⟨_, u, _, hreserve, hruns, -⟩ := hrec.occurrences
    rw [hruns]
    exact (reserve_countP hreserve d s).trans hdb

/-! ### Closed runs -/

/-- The run has been closed. -/
def Db.closed (db : Db) (run : Uuid) : Prop := ∃ r ∈ db.runs, r.runId = run ∧ r.status ≠ .running

instance (db : Db) (run : Uuid) : Decidable (db.closed run) :=
  inferInstanceAs (Decidable (∃ r ∈ db.runs, _))

/-- A run that is closed stays closed. -/
theorem Db.closed.exec {run : Uuid} (h : db.closed run) (startOf : ScopeKey → ℕ) (c : Command)
    (hdb : db.Ledger) : (db.exec startOf c).closed run := by
  obtain ⟨r, hr, hrun, hstatus⟩ := h
  exact ⟨r, (Db.exec_closed startOf c hdb hr hstatus).run hr, hrun, hstatus⟩

omit [Digests] in
/-- A closed run has no sequence numbers to give. -/
theorem Db.closed.not_reserve {run : Uuid} (h : db.closed run) (hdb : db.Ledger)
    {count first : ℕ} {t : Db} : reserveCaptureSequences run count db ≠ .ok (first, t) := by
  intro hreserve
  obtain ⟨r, hr, hrun, hstatus⟩ := h
  obtain ⟨⟨r', hr', hrun', hrunning⟩, -⟩ := reserve_lastCaptureSeq hdb hreserve
  obtain rfl := hdb.run r hr r' hr' (hrun.trans hrun'.symm)
  exact hstatus hrunning

/-- So no batch is recorded for it. -/
theorem Db.closed.not_recorded {b : Batch} (h : db.closed b.store.runId) (hdb : db.Ledger)
    {t : Db} : ¬ b.Recorded db t := by
  intro hrec
  obtain ⟨_, _, _, hreserve, -⟩ := hrec.occurrences
  exact h.not_reserve hdb hreserve

/-! ### Handles of closed runs -/

/-- The handle a command is called on. -/
def Command.store? : Command → Option Store
  | .initializeIdentity .. => none
  | .finishRun store .. | .initializeWorkerStatuses store _ | .recordWorkerFailure store ..
  | .recordWorkerSuccess store _ | .record store .. | .recordSnapshot store ..
  | .recordTipObservation store .. | .historyCoverage store _ | .beginHistoryCycle store ..
  | .setHistoryFloor store .. | .recordHistoryPage store .. | .resizeHistoryPage store ..
  | .resumeHistory store _ | .settleHistoryFailure store .. | .supersedeHistory store ..
  | .recordFeeEnrichment store .. | .recordFeeFailure store .. => some store

/-- The command is called on the handle of a closed run. -/
def Db.fences (db : Db) (c : Command) : Prop := ∃ store ∈ c.store?, db.closed store.runId

instance (db : Db) (c : Command) : Decidable (db.fences c) :=
  inferInstanceAs (Decidable (∃ store ∈ c.store?, _))

/-- The rows of evidence, current instances, fee jobs and history coverage are as they
were. -/
structure SameRows (s t : Db) : Prop where
  events : t.events = s.events
  observations : t.observations = s.observations
  conflicts : t.conflicts = s.conflicts
  snapshotGroups : t.snapshotGroups = s.snapshotGroups
  tipObservations : t.tipObservations = s.tipObservations
  sidechainInstances : t.sidechainInstances = s.sidechainInstances
  currentInstances : t.currentInstances = s.currentInstances
  feeJobs : t.feeJobs = s.feeJobs
  coverage : t.coverage = s.coverage
  certified : t.certified = s.certified

instance : Std.Refl SameRows := ⟨fun _ => ⟨rfl, rfl, rfl, rfl, rfl, rfl, rfl, rfl, rfl, rfl⟩⟩

omit [Digests] in
theorem OnlyHealth.sameRows {s t : Db} (h : OnlyHealth s t) : SameRows s t := by
  rw [h.eq]
  exact ⟨rfl, rfl, rfl, rfl, rfl, rfl, rfl, rfl, rfl, rfl⟩

/-- One of the operations that do not look at their run finds a row to write: its arguments
are accepted, and the row is there and meets the condition of its `UPDATE`. -/
def Command.Writes (startOf : ScopeKey → ℕ) (db : Db) : Command → Prop
  | .beginHistoryCycle store scope coveredTip targetTip floorHash floorHeight page =>
    validateHistoryScope scope = .ok () ∧ startOf (store.key scope) ≤ maxHeight ∧
      (∀ height ∈ floorHeight, height ≤ maxHeight) ∧ page ≤ maxHeight ∧
      ((db.coverage (store.key scope)).isSome ∨
        ∀ id ∈ scope.sidechainInstanceId, db.isRegistered store.datasetId id) ∧
      ∃ covered, optionalBlockParts coveredTip = .ok covered ∧
      ∃ height ≤ maxHeight, targetTip.height = some height ∧
        CoverageRow.valid ⟨startOf (store.key scope),
          covered <|> (db.coverage (store.key scope)).bind (·.coveredTip),
          ⟨targetTip.hash, height⟩, floorHash, floorHeight, some ⟨targetTip.hash, height⟩,
          .running, (db.coverage (store.key scope)).elim 0 (·.rowsRecorded), page, none⟩
          (store.key scope)
  | .setHistoryFloor store scope cursor floorHash floorHeight =>
    (∀ height ∈ floorHeight, height ≤ maxHeight) ∧
      ∃ row, db.coverage (store.key scope) = some row ∧
        row.next.map (·.hash) = some cursor.hash ∧ row.status = .running ∧
        CoverageRow.valid { row with floorHash := floorHash, floorHeight := floorHeight }
          (store.key scope)
  | .resizeHistoryPage store scope page error =>
    validateHistoryScope scope = .ok () ∧ page ≤ maxHeight ∧
      ∃ row, db.coverage (store.key scope) = some row ∧ row.status = .running ∧
        CoverageRow.valid { row with effectivePageBlocks := page, lastError := some error }
          (store.key scope)
  | .resumeHistory store scope =>
    validateHistoryScope scope = .ok () ∧
      ∃ row, db.coverage (store.key scope) = some row ∧
        (row.status = .error ∨ row.status = .superseded) ∧ row.next ≠ none
  | .settleHistoryFailure store scope _ =>
    validateHistoryScope scope = .ok () ∧
      ∃ row, db.coverage (store.key scope) = some row ∧ row.status = .running
  | .supersedeHistory store stream sidechain id _ =>
    ∃ row, db.coverage (store.scopeKey stream sidechain id) = some row ∧
      (row.status = .running ∨ row.status = .error)
  | .recordFeeFailure store sourceEventId _ =>
    (∃ job ∈ db.feeJobs, job.isOf store sourceEventId) ∨ ∃ e ∈ db.events, e.id = sourceEventId
  | _ => False

omit [Digests] in
/-- The floor height that is handed to the statement fits. -/
theorem floorHeight_fits {floorHeight height : Option ℕ}
    (h : Result.transpose (floorHeight.map heightToI32) = .ok height) :
    ∀ n ∈ floorHeight, n ≤ maxHeight := by
  rcases Result.transpose_map_eq_ok.mp h with ⟨rfl, -⟩ | ⟨n, m, rfl, hm, -⟩
  · simp
  · intro n' hn'
    cases hn'
    exact (heightToI32_eq_ok.mp hm).1

/-- **A command on a closed run's handle changes nothing**, unless it writes without looking
at its run. -/
theorem Db.exec_fenced (startOf : ScopeKey → ℕ) (hdb : db.Ledger) (hc : db.fences c)
    (hw : ¬ c.Writes startOf db) : SameRows db (db.exec startOf c) := by
  obtain ⟨store, hstore, hclosed⟩ := hc
  -- a transaction that fails, or finds nothing to do
  have refused {α : Type} {x : Write α} (h : ∀ a t, x db = .ok (a, t) → t = db) :
      SameRows db (Tx.commit x db).2 :=
    Tx.commit_rel fun a t hx => by
      rw [h a t hx]
      exact Std.Refl.refl db
  have batch {b : Batch} {t : Db} (hb : c.batch = some b) (hrun : b.store = store)
      (h : (b.events = [] ∧ t = db) ∨ b.Recorded db t) : t = db := by
    rcases h with ⟨-, rfl⟩ | hrec
    · rfl
    · exact absurd hrec (Db.closed.not_recorded (hrun ▸ hclosed) hdb)
  have health {α : Type} {x : Write α} (h : Tx.Guarantees OnlyHealth x) :
      SameRows db (Tx.commit x db).2 := (h.mono fun _ _ hx => hx.sameRows).commit db
  cases c with
  | initializeIdentity => cases hstore
  | historyCoverage => exact Std.Refl.refl db
  | finishRun =>
    refine Tx.commit_rel fun _ _ h => ?_
    obtain ⟨-, h⟩ := Tx.require_bind_eq_ok.mp h
    obtain rfl := Tx.modify_eq_ok.mp h
    exact ⟨rfl, rfl, rfl, rfl, rfl, rfl, rfl, rfl, rfl, rfl⟩
  | initializeWorkerStatuses => exact health (onlyHealth_initializeWorkerStatuses _ _)
  | recordWorkerFailure => exact health (onlyHealth_recordWorkerFailure _ _ _ _)
  | recordWorkerSuccess => exact health (onlyHealth_recordWorkerSuccess _ _)
  | record =>
    cases hstore
    exact refused fun _ _ h => batch rfl rfl (recordBatch_recorded h)
  | recordSnapshot =>
    cases hstore
    exact refused fun _ _ h => batch rfl rfl (recordSnapshot_recorded h)
  | recordHistoryPage =>
    cases hstore
    exact refused fun _ _ h => batch rfl rfl (.inr (recordHistoryPageTx_recorded h))
  | recordFeeEnrichment =>
    cases hstore
    exact refused fun _ _ h => batch rfl rfl (.inr (recordFeeEnrichment_recorded h))
  | recordTipObservation =>
    cases hstore
    refine refused fun _ _ h => ?_
    obtain ⟨_, _, _, _, -, -, hreserve, -⟩ := recordTipObservation_inv h
    exact absurd hreserve (hclosed.not_reserve hdb)
  | beginHistoryCycle =>
    refine refused fun row t h => absurd ?_ hw
    obtain ⟨covered, height, hscope, hcovered, htarget, hle, hvalid, -, hrow⟩ :=
      beginHistoryCycle_inv h
    obtain ⟨_, -, h⟩ := Tx.lift_bind_eq_ok.mp h
    obtain ⟨_, hstart, h⟩ := Tx.lift_bind_eq_ok.mp h
    obtain ⟨_, -, h⟩ := Tx.lift_bind_eq_ok.mp h
    obtain ⟨_, -, h⟩ := Tx.lift_bind_eq_ok.mp h
    obtain ⟨_, -, h⟩ := Tx.lift_bind_eq_ok.mp h
    obtain ⟨_, hfloor, h⟩ := Tx.lift_bind_eq_ok.mp h
    obtain ⟨_, hpage, h⟩ := Tx.lift_bind_eq_ok.mp h
    obtain ⟨hregistered, -⟩ := Tx.require_bind_eq_ok.mp (Tx.read_bind_eq_ok.mp h)
    exact ⟨hscope, (heightToI32_eq_ok.mp hstart).1, floorHeight_fits hfloor,
      (heightToI32_eq_ok.mp hpage).1, hregistered, covered, hcovered, height, hle, htarget,
      hrow ▸ hvalid⟩
  | setHistoryFloor =>
    refine refused fun _ t h => absurd ?_ hw
    obtain ⟨row, hrow, hnext, hrun, hvalid, -⟩ := setHistoryFloor_inv h
    obtain ⟨_, hfloor, -⟩ := Tx.lift_bind_eq_ok.mp h
    exact ⟨floorHeight_fits hfloor, row, hrow, hnext, hrun, hvalid⟩
  | resizeHistoryPage =>
    refine refused fun _ t h => absurd ?_ hw
    obtain ⟨row, hrow, hrun, hvalid, -⟩ := resizeHistoryPage_inv h
    obtain ⟨_, hscope, h⟩ := Tx.lift_bind_eq_ok.mp h
    obtain ⟨_, hpage, -⟩ := Tx.lift_bind_eq_ok.mp h
    exact ⟨hscope, (heightToI32_eq_ok.mp hpage).1, row, hrow, hrun, hvalid⟩
  | resumeHistory =>
    refine refused fun _ t h => absurd ?_ hw
    obtain ⟨row, hrow, hstatus, hnext, -⟩ := resumeHistory_inv h
    obtain ⟨_, hscope, -⟩ := Tx.lift_bind_eq_ok.mp h
    exact ⟨hscope, row, hrow, hstatus, hnext⟩
  | settleHistoryFailure =>
    refine refused fun _ t h => ?_
    obtain ⟨_, hscope, -⟩ := Tx.lift_bind_eq_ok.mp h
    obtain ⟨row, hrow, ⟨-, -, rfl⟩ | ⟨hrun, -⟩ | ⟨hrun, -⟩⟩ := settleHistoryFailure_inv h
    · rfl
    · exact absurd ⟨hscope, row, hrow, hrun⟩ hw
    · exact absurd ⟨hscope, row, hrow, hrun⟩ hw
  | supersedeHistory =>
    refine refused fun _ t h => ?_
    rcases supersedeHistory_inv h with ⟨rfl, -⟩ | ⟨row, hrow, hstatus, -⟩
    · rfl
    · exact absurd ⟨row, hrow, hstatus⟩ hw
  | recordFeeFailure =>
    refine refused fun _ t h => absurd ?_ hw
    exact (Tx.require_bind_eq_ok.mp (Tx.read_bind_eq_ok.mp h)).1

omit [Digests] in
/-- A startup closes every run of its source. -/
theorem initializeIdentity_closes {source : Source} {datasetId runId : Uuid} {version : ℕ}
    {answer : Store × Option ObservedBlock} {s t : Db}
    (h : initializeIdentity source datasetId runId version s = .ok (answer, t)) {r : ExtractorRun}
    (hr : r ∈ s.runs) (hof : r.datasetId = datasetId ∧ r.source = source) : t.closed r.runId := by
  obtain ⟨-, ht⟩ := initializeIdentity_inv h
  have hmem : r.orphan datasetId source ∈ t.runs := by
    rw [ht.runs]
    exact List.mem_append_left _ (List.mem_map_of_mem hr)
  refine ⟨_, hmem, ?_⟩
  unfold ExtractorRun.orphan
  split_ifs with hrunning
  · exact ⟨rfl, by simp⟩
  · exact ⟨rfl, fun hstatus => hrunning ⟨hof.1, hof.2, hstatus⟩⟩

/-- **Fencing.** In every state that commands lead to, at most one run of a source is
running; a startup closes the runs of its source, and a closed run stays closed. No command on
the handle of a closed run changes a row of evidence, current instances, fee jobs or history
coverage, in every run of commands of which none on such a handle is an operation that writes
without looking at its run. -/
theorem run_fenced (startOf : ScopeKey → ℕ) (cs : List Command) (db : Db)
    (h : run (Db.step startOf) Db.empty cs = some db) :
    db.OneRunning ∧
    (∀ source datasetId runId version answer t,
      initializeIdentity source datasetId runId version db = .ok (answer, t) →
        ∀ r ∈ db.runs, r.datasetId = datasetId ∧ r.source = source → t.closed r.runId) ∧
    (∀ closed, db.closed closed → ∀ cs' db', run (Db.step startOf) db cs' = some db' →
      db'.closed closed) ∧
    (Along (Db.step startOf) (fun s c => s.fences c → ¬ c.Writes startOf s) Db.empty cs →
      Along (Db.step startOf) (fun s c => s.fences c → SameRows s (s.exec startOf c))
        Db.empty cs) := by
  have hledger : ∀ (s : Db) (c : Command) t, s.Ledger → Db.step startOf s c = some t →
      t.Ledger := by
    rintro s c t hs ⟨⟩
    exact s.exec_ledger startOf c hs
  have hdb : db.Ledger := run_invariant hledger .empty h
  refine ⟨?_, fun _ _ _ _ _ _ hok _ => initializeIdentity_closes hok, fun closed hclosed cs' db' h' => ?_,
    fun hC => ?_⟩
  · have hempty : Db.empty.OneRunning := fun _ _ => Nat.zero_le 1
    refine run_invariant (fun s c t hs hstep => ?_) hempty h
    cases hstep
    exact Db.exec_running startOf c hs
  · have hboth : db'.Ledger ∧ db'.closed closed := by
      refine run_invariant (I := fun s => s.Ledger ∧ s.closed closed) (fun s c t hs hstep => ?_)
        ⟨hdb, hclosed⟩ h'
      refine ⟨hledger s c t hs.1 hstep, ?_⟩
      cases hstep
      exact hs.2.exec startOf c hs.1
    exact hboth.2
  · refine Along.mono_of_invariant hledger (fun s c hs hw hfences => ?_) .empty hC
    exact Db.exec_fenced startOf hs hfences (hw hfences)

end

/-! ### A process that lingers -/

namespace Lingering

/-- The handle of the first process. -/
def old : Store := ⟨.node, 0, 0, 9⟩

/-- The node's blocks. -/
def scope : HistoryScope := ⟨.mainchainBlock, none, none⟩

/-- A second process starts while the first is still there. -/
def startups : List Command :=
  [.initializeIdentity .node 0 0 9, .initializeIdentity .node 0 1 9]

/-- The second process begins a cycle. -/
def cycle : Command :=
  .beginHistoryCycle ⟨.node, 0, 1, 9⟩ scope none (.atHeight (bytes32 2) 6) none (some 4) 100

/-- The first process begins one of its own. -/
def begins : Command :=
  .beginHistoryCycle old scope none (.atHeight (bytes32 1) 5) none (some 4) 100

/-- The first process records a tip. -/
def tips : Command := .recordTipObservation old (.atHeight (bytes32 1) 5) none .poll 0

end Lingering

/-- The old process is refused its tip. -/
theorem run_fenced_lingering :
    ∃ db, run (@Db.step TwoBlocks.digests fun _ => 5) Db.empty
        (Lingering.startups ++ [Lingering.tips]) = some db ∧
      db.OneRunning ∧ db.runs.length = 2 ∧ db.closed Lingering.old.runId ∧
      Along (@Db.step TwoBlocks.digests fun _ => 5)
        (fun s c => s.fences c → SameRows s (@Db.exec TwoBlocks.digests (fun _ => 5) s c)) Db.empty
        (Lingering.startups ++ [Lingering.tips]) := by
  let _ := TwoBlocks.digests
  have hrun : ((run (Db.step fun _ => 5) Db.empty (Lingering.startups ++ [Lingering.tips])).filter
      fun db => db.runs.length = 2 ∧ db.closed Lingering.old.runId).isSome := by
    decide +kernel
  obtain ⟨db, hdb⟩ := Option.isSome_iff_exists.mp hrun
  obtain ⟨hdb, hclosed⟩ := Option.filter_eq_some_iff.mp hdb
  obtain ⟨hlen, hclosed⟩ := of_decide_eq_true hclosed
  obtain ⟨hone, -, -, hfenced⟩ := run_fenced (fun _ => 5) _ db hdb
  refine ⟨db, hdb, hone, hlen, hclosed, hfenced (along_of_forall fun c hc s hfences => ?_)⟩
  -- the startups are on no handle, and a tip is not written without its run
  rcases List.mem_append.mp hc with hc | hc
  · obtain ⟨store, hstore, -⟩ := hfences
    rcases List.mem_cons.mp hc with rfl | hc
    · cases hstore
    · cases List.mem_singleton.mp hc
      cases hstore
  · cases List.mem_singleton.mp hc
    exact id

/-- **A process that lingers moves its successor's cursor.** -/
theorem not_fenced_lingering :
    ¬ ∀ (startOf : ScopeKey → ℕ) (cs : List Command) (db : Db) (c : Command),
      run (@Db.step TwoBlocks.digests startOf) Db.empty cs = some db → db.fences c →
        SameRows db (@Db.exec TwoBlocks.digests startOf db c) := by
  let _ := TwoBlocks.digests
  intro h
  have hrun : ((run (Db.step fun _ => 5) Db.empty
      (Lingering.startups ++ [Lingering.cycle])).filter fun db =>
      db.fences Lingering.begins ∧
        (db.exec (fun _ => 5) Lingering.begins).coverage (Lingering.old.key Lingering.scope) ≠
          db.coverage (Lingering.old.key Lingering.scope)).isSome := by
    decide +kernel
  obtain ⟨db, hdb⟩ := Option.isSome_iff_exists.mp hrun
  obtain ⟨hdb, hmoved⟩ := Option.filter_eq_some_iff.mp hdb
  obtain ⟨hfences, hmoved⟩ := of_decide_eq_true hmoved
  have hsame := h (fun _ => 5) _ db Lingering.begins hdb hfences
  exact hmoved (congrFun hsame.coverage _)

end Bip300Monitor
