import Bip300Monitor.Backfill.Quarantine
import Bip300Monitor.Runtime.BackfillSidechains
import Bip300Monitor.Store.WorkerRows

/-!
# The health of a run

`prepare_startup` (`extractors/enforcer/src/runtime.rs`) makes the health rows of a run, for four
workers. The fifth that records its health is `backfill_sidechains`, when the history of a
sidechain is quarantined; its error ends the run (`supervise_workers`).

## The model

One run, from before it is opened: its startup, the health writes of its workers, the steps of
`backfill_sidechains`, and anything else that writes the record, in any order.

## What is proved

* `Extractor.step_inv` — the run has the rows of its startup, and no other;
* `quarantine_recorded` — a run's health writes have their rows, and `backfill_sidechains` goes on
  after a quarantine, exactly if no call returns quarantined;
* `not_quarantine_recorded_conflict` — one that does ends the run.
-/

namespace Bip300Monitor

open Protobuf Transaction Runs Resumption Backfill

/-! ### The model -/

/-- The workers besides `backfill_sidechains` that record their health. -/
inductive HealthWorker where
  | monitorTip | monitorBmmRequests | mainchainMonitor | monitorState
  deriving DecidableEq, Repr

/-- Whose row they record it in. -/
def HealthWorker.worker : HealthWorker → ExtractorWorker
  | .monitorTip => .mainchainTip
  | .monitorBmmRequests => .bmmRequests
  | .mainchainMonitor => .mainchainEvents
  | .monitorState => .enforcerState

/-- The failures after which a worker counts as degraded. -/
def HealthWorker.degradedAfter : HealthWorker → ℕ
  | .monitorBmmRequests => 3
  | .monitorTip | .mainchainMonitor | .monitorState => 1

/-- The rows that `prepare_startup` makes. -/
def startupWorkers : List ExtractorWorker :=
  [.mainchainTip, .bmmRequests, .mainchainEvents, .enforcerState]

/-- How far the run is. -/
inductive ExtractorPhase where
  | starting
  /-- The run is opened. -/
  | connected
  | running
  /-- `supervise_workers` has aborted the workers. -/
  | aborted (error : Failure)
  deriving DecidableEq, Repr

/-- The record, and the run. -/
structure Extractor where
  db : Db
  phase : ExtractorPhase
  backfills : Backfills

/-- Nothing is recorded. -/
def Extractor.init : Extractor := ⟨.empty, .starting, .init⟩

/-- What happens next. -/
inductive ExtractorAction where
  /-- `Recorder::connect_with_manifest`. -/
  | connect
  | initializeWorkerStatuses
  /-- A worker records a failure, or that there is none. -/
  | health (w : HealthWorker) (failure : Option String)
  | backfill (a : BackfillsAction)
  /-- `backfill_sidechains` has failed. -/
  | abort
  /-- Anything else that writes the record, in this process or in another one. -/
  | other (c : Command)

section
variable [Digests]

/-- One step, of the run of the handle. Only its own startup makes health rows for it. -/
def Extractor.step (startOf : ScopeKey → ℕ) (store : Store) (settings : Settings) (s : Extractor) :
    ExtractorAction → Option Extractor
  | .connect =>
    match s.phase, Tx.commit (initializeIdentity store.source store.datasetId store.runId
        store.eventContractVersion) s.db with
    | .starting, (.ok _, db) => some { s with db := db, phase := .connected }
    | _, _ => none
  | .initializeWorkerStatuses =>
    match s.phase, Tx.commit (initializeWorkerStatuses store startupWorkers) s.db with
    | .connected, (.ok (), db) => some { s with db := db, phase := .running }
    | _, _ => none
  | .health w failure =>
    match s.phase with
    | .running => some { s with db := s.db.exec startOf (match failure with
        | some error => .recordWorkerFailure store w.worker error w.degradedAfter
        | none => .recordWorkerSuccess store w.worker) }
    | _ => none
  | .backfill a =>
    match s.phase with
    | .running => (s.backfills.step store settings s.db a).map fun p =>
        { s with backfills := p.1, db := p.2 }
    | _ => none
  | .abort =>
    match s.phase, s.backfills.at' with
    | .running, .returned (.error error) => some { s with phase := .aborted error }
    | _, _ => none
  | .other c =>
    if c.initializes store.runId = [] then some { s with db := s.db.exec startOf c } else none

/-- A health write has its row; and the one after a quarantine does not make
`backfill_sidechains` fail. -/
def Extractor.Recorded (startOf : ScopeKey → ℕ) (store : Store) (settings : Settings)
    (s : Extractor) : ExtractorAction → Prop
  | .health w _ => s.phase = .running → s.db.workerInitialized store.runId w.worker
  | .backfill (.advance env) => ∀ request, s.backfills.at' = .recording request →
    s.db.workerInitialized store.runId .blockHistory ∧
      ∀ t, s.step startOf store settings (.backfill (.advance env)) = some t →
        ∀ error, t.backfills.at' ≠ .returned (.error error)
  | _ => True

end

/-- The call of `backfill::run` that has just been made has returned quarantined. -/
def BackfillsAt.quarantined : BackfillsAt → Bool
  | .recording _ => true
  | _ => false

/-- `backfill_sidechains` does not go on from a call that returned quarantined. -/
def Extractor.Unquarantined (s : Extractor) : ExtractorAction → Prop
  | .backfill (.advance _) => s.backfills.at'.quarantined = false
  | _ => True

instance (s : Extractor) : ∀ a, Decidable (s.Unquarantined a)
  | .backfill (.advance _) => inferInstanceAs (Decidable (s.backfills.at'.quarantined = false))
  | .backfill .shutdown | .backfill (.receive _) | .backfill (.retry _) | .backfill (.tipChanged _)
  | .connect | .initializeWorkerStatuses | .health .. | .abort | .other _ => isTrue trivial

/-! ### The rows of the run -/

section
variable [Digests] {startOf : ScopeKey → ℕ} {store : Store} {settings : Settings} {s t : Extractor}

/-- A history's operations keep the health rows. -/
theorem perform_sameTasks {P : Type} (imp : Import P) (run : Uuid) (env : Environment P) (db : Db)
    (e : Op P) : SameTasks db (imp.perform run env db e).2 := by
  have deliver {α : Type} {out : Result α × Db} (h : SameTasks db out.2) :
      SameTasks db (env.deliver db out).2 := deliver_rel env h
  cases e with
  | shutdownRequested | pagePause | fetch | currentTip | now => exact Std.Refl.refl db
  | currentSidechainInstanceId => exact deliver (Std.Refl.refl db)
  | supersedeHistory => exact deliver (apart_supersedeHistory.commit db)
  | historyCoverage => exact deliver (apart_historyCoverage.commit db)
  | beginHistoryCycle => exact deliver (apart_beginHistoryCycle.commit db)
  | resumeHistory => exact deliver (apart_resumeHistory.commit db)
  | resizeHistoryPage => exact deliver (apart_resizeHistoryPage.commit db)
  | settleHistoryFailure => exact deliver (apart_settleHistoryFailure.commit db)
  | certifiedHistoryFloor => exact deliver (apart_certifiedHistoryFloor.commit db)
  | setHistoryFloor => exact deliver (apart_setHistoryFloor.commit db)
  | recordHistoryPage events expectedNext next =>
    refine deliver ?_
    have hcommit := (apart_recordHistoryPageTx (R := SameTasks) (imp.store run) events
      ⟨imp.stream.scope, expectedNext, next⟩).commit db
    unfold recordHistoryPage
    split
    · next heq =>
      rw [heq] at hcommit
      exact hcommit
    · next heq =>
      rw [heq] at hcommit
      exact hcommit

/-- The run has a row for the worker in both, or in neither. -/
def SameRow (run : Uuid) (worker : ExtractorWorker) (s t : Db) : Prop :=
  t.workerInitialized run worker ↔ s.workerInitialized run worker

instance (run : Uuid) (worker : ExtractorWorker) : Std.Refl (SameRow run worker) := ⟨fun _ => Iff.rfl⟩

/-- The task's steps keep the health rows. -/
theorem Backfills.step_workerInitialized {b b' : Backfills} {db db' : Db} {a : BackfillsAction}
    (h : b.step store settings db a = some (b', db')) (run : Uuid) (worker : ExtractorWorker) :
    db'.workerInitialized run worker ↔ db.workerInitialized run worker := by
  cases Backfills.step_inv h with
  | advance h =>
    cases h with
    | performed => exact (perform_sameTasks _ _ _ _ _).workers.workerInitialized run worker
    | recorded =>
      -- the transaction changes no more than a row that is there
      exact deliver_rel (R := SameRow run worker) _
        (Tx.commit_rel fun _ _ h => recordWorkerFailure_workerInitialized h)
    | _ => rfl
  | _ => rfl

/-- The run has the rows of its startup. -/
structure Extractor.Inv (store : Store) (s : Extractor) : Prop where
  rows : ∀ worker, s.db.workerInitialized store.runId worker → worker ∈ startupWorkers
  ready : s.phase = .running → ∀ worker ∈ startupWorkers, s.db.workerInitialized store.runId worker
  idle : s.phase ≠ .running → s.backfills.at'.quarantined = false

omit [Digests] in
theorem Extractor.Inv.init : Extractor.init.Inv store where
  rows worker h := by
    obtain ⟨w, hw, -⟩ := h
    cases hw
  ready h := by cases h
  idle _ := rfl

omit [Digests] in
/-- Rows are neither made nor lost. -/
theorem Extractor.Inv.keeps (hs : s.Inv store) (hphase : t.phase = .running → s.phase = .running)
    (hidle : t.phase ≠ .running → t.backfills.at'.quarantined = false)
    (hdb : ∀ worker, t.db.workerInitialized store.runId worker ↔
      s.db.workerInitialized store.runId worker) : t.Inv store where
  rows worker h := hs.rows worker ((hdb worker).mp h)
  ready h worker hworker := (hdb worker).mpr (hs.ready (hphase h) worker hworker)
  idle := hidle

/-- **One step**: the run has the rows of its startup, and no other. -/
theorem Extractor.step_inv {a : ExtractorAction} (hs : s.Inv store)
    (h : s.step startOf store settings a = some t) : t.Inv store := by
  cases a with
  | connect =>
    simp only [Extractor.step] at h
    split at h
    · next hphase hcommit =>
      cases h
      have hdb := (sameTasks_initializeIdentity store.source store.datasetId store.runId
        store.eventContractVersion).commit s.db
      rw [hcommit] at hdb
      refine hs.keeps (fun hrunning => by cases hrunning) (fun _ => hs.idle ?_)
        fun worker => hdb.workers.workerInitialized _ worker
      rw [hphase]
      decide
    · cases h
  | initializeWorkerStatuses =>
    simp only [Extractor.step] at h
    split at h
    · next hphase hcommit =>
      cases h
      have hdb := s.db.exec_workerInitialized startOf (.initializeWorkerStatuses store startupWorkers)
        store.runId
      simp only [Db.exec, hcommit, Command.initializes, if_true] at hdb
      refine ⟨fun worker hworker => ?_, fun _ worker hworker => (hdb worker).mpr (.inr hworker),
        fun hnot => absurd rfl hnot⟩
      exact ((hdb worker).mp hworker).elim (hs.rows worker) id
    · cases h
  | health w failure =>
    simp only [Extractor.step] at h
    split at h
    · next hphase =>
      cases h
      refine hs.keeps (fun _ => hphase) (fun hnot => absurd hphase hnot) fun worker => ?_
      rw [Db.exec_workerInitialized]
      cases failure <;> simp [Command.initializes]
    · cases h
  | backfill a =>
    simp only [Extractor.step] at h
    split at h
    · next hphase =>
      obtain ⟨p, hp, rfl⟩ := Option.map_eq_some_iff.mp h
      exact hs.keeps (fun _ => hphase) (fun hnot => absurd hphase hnot) fun worker =>
        Backfills.step_workerInitialized hp _ worker
    · cases h
  | abort =>
    simp only [Extractor.step] at h
    split at h
    · next hreturned =>
      cases h
      refine hs.keeps (fun hrunning => by cases hrunning) (fun _ => ?_) fun worker => Iff.rfl
      rw [hreturned]
      rfl
    · cases h
  | other c =>
    simp only [Extractor.step] at h
    split_ifs at h with hc
    cases h
    refine hs.keeps id hs.idle fun worker => ?_
    rw [Db.exec_workerInitialized, hc, or_iff_left List.not_mem_nil]

/-- A step's health write has its row, and what follows goes on, exactly if it is not that of a
quarantine. -/
theorem Extractor.recorded_iff {a : ExtractorAction} (hs : s.Inv store) :
    s.Recorded startOf store settings a ↔ s.Unquarantined a := by
  cases a with
  | health w failure =>
    refine iff_true_intro fun hrunning => hs.ready hrunning _ ?_
    cases w <;> decide
  | backfill a =>
    cases a with
    | advance env =>
      cases hat : s.backfills.at' with
      | recording request =>
        constructor
        · intro h
          exact absurd (hs.rows _ (h request hat).1) (by decide)
        · intro h
          rw [Extractor.Unquarantined, hat] at h
          cases h
      | _ =>
        constructor
        · intro _
          rw [Extractor.Unquarantined, hat]
          rfl
        · intro _ request hrecording
          rw [hat] at hrecording
          cases hrecording
    | _ => exact Iff.rfl
  | _ => exact Iff.rfl

/-- **Quarantine ends the extractor.** Along a run, every health write has its row and
`backfill_sidechains` goes on after every quarantine, if and only if it never has to go on from
one: a run has no row for it. -/
theorem quarantine_recorded (startOf : ScopeKey → ℕ) (store : Store) (settings : Settings)
    (as : List ExtractorAction) :
    Along (Extractor.step startOf store settings) (Extractor.Recorded startOf store settings)
        Extractor.init as ↔
      Along (Extractor.step startOf store settings) Extractor.Unquarantined Extractor.init as := by
  have hstep : ∀ s a t, Extractor.Inv store s → s.step startOf store settings a = some t →
      t.Inv store := fun _ _ _ hs h => Extractor.step_inv hs h
  constructor
  · exact fun h => h.mono_of_invariant hstep (fun _ _ hs => (Extractor.recorded_iff hs).mp) .init
  · exact fun h => h.mono_of_invariant hstep (fun _ _ hs => (Extractor.recorded_iff hs).mpr) .init

end

/-! ### A live block and the backfilled one disagree -/

namespace ConflictingBlock

/-- The startup of the run, a reading in which the instance of slot nine is active, and a live
block of it. -/
def startup : List ExtractorAction :=
  [.connect, .initializeWorkerStatuses,
    .other (.recordSnapshot Reactivation.store (stateReading [slotNine]) .poll
      (tipMatchedAt Reactivation.tip)),
    .other (.record Reactivation.store
      [⟨0, some Reactivation.tip, some (.enforcer (some (Reactivation.block none)))⟩] .live none)]

/-- The request for the instance, and the awaits it takes until the run is aborted. -/
def backfill : List ExtractorAction :=
  .backfill (.receive (some ⟨slotNineInstance, Reactivation.tip⟩)) ::
    List.replicate 14 (.backfill (.advance Reactivation.enforcer)) ++ [.abort]

end ConflictingBlock

open ConflictingBlock in
/-- **A history that is quarantined ends the run.** -/
theorem not_quarantine_recorded_conflict :
    ∃ s, run (@Extractor.step Reactivation.digests (fun _ => 5) Reactivation.store ⟨100, 0⟩)
        Extractor.init (startup ++ backfill) = some s ∧
      s.phase = .aborted (.bail "block_history worker status was not initialized") ∧
      ¬ Along (@Extractor.step Reactivation.digests (fun _ => 5) Reactivation.store ⟨100, 0⟩)
        (@Extractor.Recorded Reactivation.digests (fun _ => 5) Reactivation.store ⟨100, 0⟩)
        Extractor.init (startup ++ backfill) := by
  let _ := Reactivation.digests
  have hrun : ((run (Extractor.step (fun _ => 5) Reactivation.store ⟨100, 0⟩) Extractor.init
      (startup ++ backfill)).filter fun s =>
      s.phase = .aborted (.bail "block_history worker status was not initialized")).isSome := by
    decide +kernel
  have hquarantined : ¬ Along (Extractor.step (fun _ => 5) Reactivation.store ⟨100, 0⟩)
      Extractor.Unquarantined Extractor.init (startup ++ backfill) := by
    decide +kernel
  obtain ⟨s, hs⟩ := Option.isSome_iff_exists.mp hrun
  obtain ⟨hs, haborted⟩ := Option.filter_eq_some_iff.mp hs
  refine ⟨s, hs, of_decide_eq_true haborted, fun hrecorded => hquarantined ?_⟩
  exact hrecorded.mono_of_invariant (fun _ _ _ hs h => Extractor.step_inv hs h)
    (fun _ _ hs => (Extractor.recorded_iff hs).mp) .init

end Bip300Monitor
