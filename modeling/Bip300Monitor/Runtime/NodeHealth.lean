import Bip300Monitor.Backfill.Agreement
import Bip300Monitor.Backfill.Reached
import Bip300Monitor.Runtime.NodeHistory
import Bip300Monitor.Runtime.QuarantineHealth
import Bip300Monitor.Store.WorkerHealth

/-!
# What the node's health row says

The health row of the node's history is all that an operator sees of it. It is written after each pass, in
a transaction of its own; between the two the rest of the monitor writes the record, and each connection
can fail.

## What is proved

* `NodeMonitor.advance_cases` — what an answered await does;
* `NodeMonitor.Advanced.simulates` — to the history of the node, a step is one of the steps of
  `Bip300Monitor.Backfill.Import`, or two;
* `NodeMonitor.step_keeps` — a step keeps the invariant, what is certified, and what is suspended;
* `node_health_honest` — the row shows the last report, a report of success is of a target below which all
  blocks are recorded, and after a quarantine there is none.
-/

namespace Bip300Monitor

open Protobuf Transaction Runs Resumption Backfill

/-! ### The rows of a worker -/

/-- The health rows of a worker of a run. -/
def Db.workerRows (db : Db) (run : Uuid) (worker : ExtractorWorker) : List WorkerStatus :=
  db.workerStatus.filter fun row => row.runId = run ∧ row.worker = worker

theorem mem_workerRows {db : Db} {run : Uuid} {worker : ExtractorWorker} {row : WorkerStatus} :
    row ∈ db.workerRows run worker ↔ row ∈ db.workerStatus ∧ row.runId = run ∧ row.worker = worker := by
  simp [Db.workerRows]

theorem SameWorkers.workerRows {s t : Db} (h : SameWorkers s t) (run : Uuid) (worker : ExtractorWorker) :
    t.workerRows run worker = s.workerRows run worker := by
  rw [Db.workerRows, h.workerStatus, Db.workerRows]

/-- Rows that are made for other workers, or for another run. -/
theorem workerRows_initializeWorkers {run other : Uuid} {worker : ExtractorWorker}
    {workers : List ExtractorWorker} (h : ¬ (other = run ∧ worker ∈ workers)) (db : Db) :
    (workers.foldl (Db.initializeWorker other) db).workerRows run worker = db.workerRows run worker := by
  induction workers generalizing db with
  | nil => rfl
  | cons first rest ih =>
    rw [List.mem_cons, and_or_left, not_or] at h
    rw [List.foldl_cons, ih h.2, Db.initializeWorker]
    split_ifs
    · rfl
    · have hfirst : ¬ (other = run ∧ first = worker) := fun heq => h.1 ⟨heq.1, heq.2.symm⟩
      simp [Db.workerRows, hfirst]

/-- A change of the row of another worker, or of another run. -/
theorem workerRows_updateWorker {run other : Uuid} {worker changed : ExtractorWorker}
    (h : ¬ (other = run ∧ changed = worker)) (db : Db) {set : WorkerStatus → WorkerStatus}
    (hset : ∀ row, (set row).runId = row.runId ∧ (set row).worker = row.worker) :
    (db.updateWorker other changed set).workerRows run worker = db.workerRows run worker := by
  refine filter_updateWorker db other changed fun row hrun hworker => ?_
  have hnot : ¬ (row.runId = run ∧ row.worker = worker) := fun hrow =>
    h ⟨hrun.symm.trans hrow.1, hworker.symm.trans hrow.2⟩
  rw [(hset row).1, (hset row).2, decide_eq_false hnot]
  exact ⟨rfl, rfl⟩

section
variable [Digests]

/-- **A command that does not write a worker's row** leaves it. -/
theorem Db.exec_workerRows (startOf : ScopeKey → ℕ) (db : Db) {c : Command} {run : Uuid}
    {worker : ExtractorWorker} (hc : ¬ c.ofWorker run worker) :
    (db.exec startOf c).workerRows run worker = db.workerRows run worker := by
  have committed {α : Type} {x : Write α}
      (h : ∀ a t, x db = .ok (a, t) → t.workerRows run worker = db.workerRows run worker) :
      (Tx.commit x db).2.workerRows run worker = db.workerRows run worker := by
    rcases Tx.commit_snd_cases x db with ⟨a, t, hok, hcommit⟩ | ⟨e, -, hcommit⟩
    · rw [hcommit]
      exact h a t hok
    · rw [hcommit]
  cases c with
  | initializeIdentity =>
    exact committed fun _ t h => SameWorkers.workerRows ⟨(initializeIdentity_status h).2.1⟩ _ _
  | finishRun => exact committed fun _ t h => (sameTasks_finishRun _ _ _ h).workers.workerRows _ _
  | initializeWorkerStatuses =>
    refine committed fun _ t h => ?_
    rw [Db.workerRows, (initializeWorkerStatuses_inv h).1]
    exact workerRows_initializeWorkers hc db
  | recordWorkerFailure =>
    refine committed fun _ t h => ?_
    rw [Db.workerRows, (recordWorkerFailure_inv h).2.2.1]
    exact workerRows_updateWorker hc db (WorkerStatus.fail_key _ _)
  | recordWorkerSuccess =>
    refine committed fun _ t h => ?_
    rw [Db.workerRows, (recordWorkerSuccess_inv h).2.1]
    exact workerRows_updateWorker hc db WorkerStatus.succeed_key
  | _ => exact (SameWorkers.mk (db.exec_sameHealth startOf rfl).workerStatus).workerRows _ _

end

/-! ### What an answered await does -/

/-- The worker is in no call, and about to report no success. -/
def NodeAt.quiet : NodeAt → Bool
  | .importing _ | .reporting (.success _) _ => false
  | _ => true

/-- The call that the worker is in. -/
def NodeAt.call? : NodeAt → Option NodeRun
  | .importing call => some call
  | _ => none

theorem NodeAt.call?_of_quiet {at' : NodeAt} (h : at'.quiet) : at'.call? = none := by
  cases at' with
  | importing call => cases h
  | _ => rfl

theorem NodeAt.not_success_of_quiet {at' : NodeAt} (h : at'.quiet) (target : ObservedBlock)
    (fatal : Option Failure) : at' ≠ .reporting (.success target) fatal := by
  rintro rfl
  cases h

/-- The worker has no row yet. -/
def NodeAt.early : NodeAt → Bool
  | .probing _ | .connecting | .initializing => true
  | _ => false

/-- The command of a report. -/
def NodeReport.command (store : Store) : NodeReport → Command
  | .success _ => .recordWorkerSuccess store .nodeHistory
  | .failure error => .recordWorkerFailure store .nodeHistory error 1

namespace NodeMonitor

section
variable [Digests]

/-- The record after a command. -/
def executed (args : NodeArgs) (s : NodeMonitor) (c : Command) : Record :=
  { s.record with db := s.record.db.exec args.startOf c }

/-- The command is not about a history. -/
structure Aside (c : Command) : Prop where
  coverageKey : c.coverageKey = none
  coveredTips : c.coveredTips = []
  reads : ∀ db, c.reads db = []

/-- The command is neither about a history nor about the health of a worker of the run. -/
structure Plain (run : Uuid) (c : Command) : Prop extends Aside c where
  ofWorker : ∀ worker, ¬ c.ofWorker run worker

/-- From `s`, what the worker goes on with and the record that it leaves. -/
inductive Advanced (args : NodeArgs) (s : NodeMonitor) (env : NodeEnvironment) : NodeMonitor → Prop
  /-- The record is as it was. -/
  | moved {at' : NodeAt} (hquiet : at'.quiet) (hearly : at'.early → s.at'.early) :
    Advanced args s env { s with at' := at' }
  | executed {c : Command} (hc : Plain s.run c) {at' : NodeAt}
    (hat' : at'.quiet ∨ ∃ tip, at' = .importing (runHistory args.history.stream tip args.settings))
    (hearly : at'.early → s.at'.early) : Advanced args s env { s with record := s.executed args c, at' := at' }
  /-- The row is made. -/
  | initialized (hat : s.at'.early) {at' : NodeAt} (hquiet : at'.quiet) :
    Advanced args s env { s with
      record := s.executed args (.initializeWorkerStatuses (args.history.store s.run) [.nodeHistory])
      at' := at' }
  /-- The next iteration of a call. -/
  | again {l : Locals} (hat : s.at' = .importing (.ret (.ok (.inl l)))) :
    Advanced args s env { s with at' := .importing (iterate args.history.stream args.settings l) }
  /-- A call returns, with a target that was reached. -/
  | reached {o : Outcome} {target : ObservedBlock} (hat : s.at' = .importing (.ret (.ok (.inr o))))
    (htarget : target ∈ o.reached?) : Advanced args s env { s with at' := .reporting (.success target) none }
  /-- An operation of a call. -/
  | performed {e : Op MainchainBlock} {k : e.Resp → NodeRun} (hat : s.at' = .importing (.op e k)) :
    Advanced args s env { s with
      record := { s.record with db := (args.history.perform s.run env.toEnvironment s.record.db e).2 }
      at' := .importing (k (args.history.perform s.run env.toEnvironment s.record.db e).1) }
  /-- The row is written. -/
  | reported {report : NodeReport} {fatal : Option Failure} (hat : s.at' = .reporting report fatal)
    {at' : NodeAt} (hquiet : at'.quiet) (hearly : at'.early = false) :
    Advanced args s env { s with
      record := s.executed args (report.command (args.history.store s.run))
      at' := at'
      reports := s.reports ++ [report] }

variable {args : NodeArgs} {s t : NodeMonitor} {env : NodeEnvironment}

omit [Digests] in
/-- A transaction that does not take effect is answered by an error. -/
theorem deliver_error {α : Type} {env : NodeEnvironment} (h : ¬ env.takesEffect) (db : Db)
    (out : Result α × Db) : ∃ e, env.deliver db out = (.error e, db) := by
  unfold Environment.takesEffect at h
  unfold Environment.deliver
  cases hfault : env.fault with
  | none =>
    rw [hfault] at h
    exact absurd rfl h
  | some fault =>
    rw [hfault] at h
    obtain ⟨applied, e⟩ := fault
    refine ⟨e, ?_⟩
    simp only [Option.elim_some] at h
    simp [h]

/-- A transaction of the worker executes its command, or its error is what goes on. -/
theorem await_cases {α : Type} {out : Result α × Db} (env : NodeEnvironment) (c : Command)
    (next : Result α → NodeAt) (hout : out.2 = s.record.db.exec args.startOf c) :
    (∃ e, s.await env out next = { s with at' := next (.error e) }) ∨
      ∃ answer, s.await env out next = { s with record := s.executed args c, at' := next answer } := by
  by_cases heffect : env.takesEffect = true
  · right
    refine ⟨(env.deliver s.record.db out).1, ?_⟩
    rw [await, deliver_snd, if_pos heffect, hout]
    rfl
  · obtain ⟨e, he⟩ := deliver_error heffect s.record.db out
    exact .inl ⟨e, by rw [await, he]⟩

omit [Digests] in
theorem orStop_of {α : Type} {p : NodeAt → Prop} {next : α → NodeAt} (hnext : ∀ a, p (next a))
    (hstop : ∀ e, p (.stopped (some (.error e)))) (r : Result α) : p (orStop next r) := by
  cases r with
  | ok a => exact hnext a
  | error e => exact hstop e

omit [Digests] in
theorem orFinish_of {α : Type} {p : NodeAt → Prop} {next : α → NodeAt} (hnext : ∀ a, p (next a))
    (hfinish : ∀ e, p (.finishing (.error e))) (r : Result α) : p (orFinish next r) := by
  cases r with
  | ok a => exact hnext a
  | error e => exact hfinish e

/-- The worker is in no call, about to report no success, and past its startup. -/
abbrev Settled (at' : NodeAt) : Prop := at'.quiet = true ∧ at'.early = false

omit [Digests] in
theorem Settled.early {at' : NodeAt} (h : Settled at') (hearly : at'.early = true) : s.at'.early = true := by
  rw [h.2] at hearly
  cases hearly

theorem Advanced.settled {at' : NodeAt} (h : Settled at') : Advanced args s env { s with at' := at' } :=
  .moved h.1 h.early

/-- A command of the worker. -/
theorem Advanced.plain {α : Type} {out : Result α × Db} {next : Result α → NodeAt} (c : Command)
    (hc : Plain s.run c) (hout : out.2 = s.record.db.exec args.startOf c) (hquiet : ∀ r, (next r).quiet)
    (hearly : ∀ r, (next r).early → s.at'.early) : Advanced args s env (s.await env out next) := by
  rcases await_cases env c next hout with ⟨e, he⟩ | ⟨answer, hanswer⟩
  · rw [he]
    exact .moved (hquiet _) (hearly _)
  · rw [hanswer]
    exact .executed hc (.inl (hquiet _)) (hearly _)

/-- A report that the record takes is remembered. -/
theorem Advanced.report {α : Type} {x : Write α} {report : NodeReport} {fatal : Option Failure}
    (hat : s.at' = .reporting report fatal)
    (hx : (Tx.commit x s.record.db).2 =
      s.record.db.exec args.startOf (report.command (args.history.store s.run))) :
    Advanced args s env (s.reported env (Tx.commit x s.record.db) report fatal) := by
  have hnext (r : Result α) :
      Settled (orFinish (fun _ => fatal.elim .sleeping fun e => .finishing (.error e)) r) := by
    refine orFinish_of (fun _ => ?_) (fun _ => ⟨rfl, rfl⟩) r
    cases fatal with
    | none => exact ⟨rfl, rfl⟩
    | some e => exact ⟨rfl, rfl⟩
  unfold NodeMonitor.reported
  simp only
  by_cases heffect : env.takesEffect = true
  · rcases hcommit : Tx.commit x s.record.db with ⟨result, u⟩
    rw [hcommit] at hx
    cases result with
    | ok a =>
      have hlast := hnext (env.deliver s.record.db (.ok a, u)).1
      have hreported : Advanced args s env _ := .reported hat hlast.1 hlast.2
      rw [if_pos ⟨heffect, rfl⟩, await, deliver_snd, if_pos heffect]
      rw [NodeMonitor.executed, ← hx] at hreported
      exact hreported
    | error e =>
      obtain rfl : u = s.record.db := by
        rcases Tx.commit_snd_cases x s.record.db with ⟨a, v, -, hok⟩ | ⟨e', -, herror⟩
        · rw [hok] at hcommit
          cases hcommit
        · rw [herror] at hcommit
          cases hcommit
          rfl
      rw [if_neg (fun h => by cases h.2), await, deliver_snd, if_pos heffect]
      exact .settled (hnext _)
  · obtain ⟨e, he⟩ := deliver_error heffect s.record.db (Tx.commit x s.record.db)
    rw [if_neg fun h => heffect h.1, await, he]
    exact .settled (hnext _)

/-- **What an answered await does.** -/
theorem advance_cases (h : s.advance args env = some t) : Advanced args s env t := by
  unfold advance at h
  simp only at h
  split at h
  · cases h
  · next expected hat =>
    cases h
    refine .moved (orStop_of (p := fun at' => at'.quiet = true) (fun actual => ?_) (fun _ => rfl) _)
      fun _ => ?_
    · split_ifs
      · rfl
      · rfl
    · rw [hat]
      rfl
  · next hat =>
    cases h
    refine .plain (.initializeIdentity .node args.datasetId s.run args.eventContractVersion)
      ⟨⟨rfl, rfl, fun _ => rfl⟩, fun _ => id⟩ rfl (fun r => ?_) fun _ _ => ?_
    · exact orStop_of (p := fun at' => at'.quiet = true) (fun _ => rfl) (fun _ => rfl) _
    · rw [hat]
      rfl
  · next hat =>
    cases h
    have hearly : s.at'.early = true := by
      rw [hat]
      rfl
    rcases await_cases (s := s) env (.initializeWorkerStatuses (args.history.store s.run) [.nodeHistory])
        (orStop fun _ => .waking) rfl with ⟨e, he⟩ | ⟨answer, hanswer⟩
    · rw [he]
      exact .moved rfl fun _ => hearly
    · rw [hanswer]
      exact .initialized hearly (orStop_of (p := fun at' => at'.quiet = true) (fun _ => rfl) (fun _ => rfl) _)
  · next hat =>
    cases h
    split_ifs
    · exact .settled ⟨rfl, rfl⟩
    · exact .settled ⟨rfl, rfl⟩
  · next hat =>
    cases h
    split
    · exact .settled ⟨rfl, rfl⟩
    · exact .settled ⟨rfl, rfl⟩
  · next tip hat =>
    cases h
    split
    · exact .settled (orFinish_of (fun _ => ⟨rfl, rfl⟩) (fun _ => ⟨rfl, rfl⟩) _)
    · exact .settled ⟨rfl, rfl⟩
  · next tip event hat =>
    cases h
    have hnext (r : Result ℕ) : Settled (orFinish (fun _ => .observingTip tip)
        (Result.context r "recording observed events")) :=
      orFinish_of (fun _ => ⟨rfl, rfl⟩) (fun _ => ⟨rfl, rfl⟩) _
    exact .plain (.record (args.history.store s.run) [event] .live none)
      ⟨⟨rfl, rfl, fun _ => rfl⟩, fun _ => id⟩ rfl (fun r => (hnext r).1) fun r => (hnext r).early
  · next tip hat =>
    cases h
    let next := orFinish fun _ : Unit => .importing (runHistory args.history.stream tip args.settings)
    have hnext : (∀ r, (next r).quiet = true ∨ ∃ tip, next r = .importing (runHistory args.history.stream tip
        args.settings)) ∧ ∀ r, (next r).early = false :=
      ⟨orFinish_of (p := fun at' => at'.quiet = true ∨ ∃ tip, at' = .importing (runHistory
        args.history.stream tip args.settings)) (fun _ => .inr ⟨tip, rfl⟩) fun _ => .inl rfl,
        orFinish_of (p := fun at' => at'.early = false) (fun _ => rfl) fun _ => rfl⟩
    rcases await_cases (s := s) env (.recordTipObservation (args.history.store s.run) tip none .poll
        env.observedAt) next rfl with ⟨e, he⟩ | ⟨answer, hanswer⟩
    · rw [he]
      exact .settled ⟨rfl, rfl⟩
    · rw [hanswer]
      refine .executed ⟨⟨rfl, rfl, fun _ => rfl⟩, fun _ => id⟩ (hnext.1 answer) fun hearly => ?_
      rw [hnext.2 answer] at hearly
      cases hearly
  · next l hat =>
    cases h
    exact .again hat
  · next outcome hat =>
    cases h
    cases outcome with
    | upToDate target => exact .reached hat rfl
    | completed target blocks pages => exact .reached hat rfl
    | deferred | superseded | interrupted | quarantined => exact .settled ⟨rfl, rfl⟩
  · next e hat =>
    cases h
    exact .settled ⟨rfl, rfl⟩
  · next e k hat =>
    cases h
    exact .performed hat
  · next target fatal hat =>
    cases h
    exact .report hat rfl
  · next error fatal hat =>
    cases h
    exact .report hat rfl
  · next hat =>
    cases h
    split_ifs
    · exact .settled ⟨rfl, rfl⟩
    · exact .settled ⟨rfl, rfl⟩
  · next result hat =>
    cases h
    have hnext (r : Result Unit) : Settled (orStop (fun _ => .stopped (some result)) r) :=
      orStop_of (fun _ => ⟨rfl, rfl⟩) (fun _ => ⟨rfl, rfl⟩) r
    exact .plain (.finishRun (args.history.store s.run) _ _) ⟨⟨rfl, rfl, fun _ => rfl⟩, fun _ => id⟩ rfl
      (fun r => (hnext r).1) fun r => (hnext r).early

/-! ### The history of the node -/

/-- What the worker is to its history. -/
def importState (args : NodeArgs) (s : NodeMonitor) : State MainchainBlock :=
  ⟨s.record, s.at'.call?.map fun proc => ⟨s.run, args.settings, proc⟩⟩

omit [Digests] in
/-- Outside a call, the worker is nothing to its history but the record. -/
theorem importState_of_quiet {record : Record} {run : Uuid} {at' : NodeAt} {reports : List NodeReport}
    (hquiet : at'.quiet) : importState args ⟨record, run, at', reports⟩ = ⟨record, none⟩ := by
  rw [importState, NodeAt.call?_of_quiet hquiet]
  rfl

/-- Leaving a call, if the worker is in one. -/
theorem run_crash {run : Uuid} {at' : NodeAt} {reports : List NodeReport} (hquiet : at'.quiet) :
    Runs.run args.history.step (s.importState args) [.crash] =
      some (importState args ⟨s.record, run, at', reports⟩) := by
  rw [importState_of_quiet hquiet]
  rfl

/-- Leaving a call, and a command that is not about the history. -/
theorem run_aside {c : Command} (hc : Aside c) (st : State MainchainBlock) :
    Runs.run args.history.step st [.crash, .world c] =
      some ⟨{ st.record with db := st.record.db.exec args.startOf c }, none⟩ := by
  have hkey : c.coverageKey ≠ some args.history.key := by
    rw [hc.coverageKey]
    exact fun h => by cases h
  have hstep : st.record.step args.startOf c =
      some { st.record with db := st.record.db.exec args.startOf c } := by
    rw [Record.step, hc.coveredTips, if_pos (List.nil_subset _), hc.reads, List.append_nil]
  simp only [run_cons, Import.step, Option.bind_some, if_neg hkey]
  change (Option.map _ (st.record.step args.startOf c)).bind _ = _
  rw [hstep]
  rfl

/-- **To the history of the node**, what an await does is a step of the import, or some. -/
theorem Advanced.simulates (h : Advanced args s env t) :
    ∃ as, Runs.run args.history.step (s.importState args) as = some (t.importState args) := by
  have aside {c : Command} (hc : Aside c) {at' : NodeAt} (hquiet : at'.quiet) (reports : List NodeReport) :
      Runs.run args.history.step (s.importState args) [.crash, .world c] =
        some (importState args ⟨s.executed args c, s.run, at', reports⟩) := by
    rw [run_aside hc, importState_of_quiet hquiet]
    rfl
  cases h with
  | moved hquiet => exact ⟨[.crash], run_crash hquiet⟩
  | @executed c hc at' hat' =>
    rcases hat' with hquiet | ⟨tip, rfl⟩
    · exact ⟨_, aside hc.toAside hquiet s.reports⟩
    · refine ⟨[.crash, .world c] ++ [.call s.run tip args.settings], ?_⟩
      rw [run_append, run_aside hc.toAside]
      rfl
  | initialized hat hquiet => exact ⟨_, aside ⟨rfl, rfl, fun _ => rfl⟩ hquiet s.reports⟩
  | again hat =>
    refine ⟨[.advance env.toEnvironment], ?_⟩
    simp only [run_cons, Import.step, importState, hat]
    rfl
  | reached hat htarget =>
    refine ⟨[.crash], ?_⟩
    rfl
  | performed hat =>
    refine ⟨[.advance env.toEnvironment], ?_⟩
    simp only [run_cons, Import.step, importState, hat]
    rfl
  | @reported report fatal hat at' hquiet =>
    refine ⟨_, aside ?_ hquiet _⟩
    cases report with
    | success => exact ⟨rfl, rfl, fun _ => rfl⟩
    | failure => exact ⟨rfl, rfl, fun _ => rfl⟩

/-! ### The invariant -/

/-- What the row shows after these reports. -/
def shown (reports : List NodeReport) : Option String := reports.getLast?.bind NodeReport.error

omit [Digests] in
theorem shown_concat (reports : List NodeReport) (report : NodeReport) :
    shown (reports ++ [report]) = report.error := by
  simp [shown]

/-- What holds in every state of every run. -/
structure Inv (args : NodeArgs) (s : NodeMonitor) : Prop where
  steady : args.history.Steady (s.importState args)
  reached : ∀ target fatal, s.at' = .reporting (.success target) fatal →
    Reached target (args.history.row s.record.db)
  certified : ∀ target, NodeReport.success target ∈ s.reports →
    ∃ b : Block, b.hash = target.hash ∧ s.record.db.certifies args.history.key b
  rows : ∀ row ∈ s.record.db.workerRows s.run .nodeHistory, row.lastError = shown s.reports
  early : s.at'.early → s.reports = []

omit [Digests] in
theorem inv_init [Digests] : Inv args init where
  steady := Import.steady_empty
  reached _ _ h := by cases h
  certified _ h := by cases h
  rows _ h := by cases h
  early h := by cases h

/-- The rows that are made show nothing. -/
theorem initializeWorkers_shows {row : WorkerStatus} {db : Db} {run : Uuid}
    (h : row ∈ (db.exec args.startOf (.initializeWorkerStatuses (args.history.store run)
      [.nodeHistory])).workerRows run .nodeHistory) :
    row ∈ db.workerRows run .nodeHistory ∨ row.lastError = none := by
  obtain ⟨hrow, hof⟩ := mem_workerRows.mp h
  rcases Tx.commit_snd_cases (initializeWorkerStatuses (args.history.store run) [.nodeHistory]) db with
    ⟨_, t, hok, hcommit⟩ | ⟨e, -, hcommit⟩
  · rw [Db.exec, hcommit, (initializeWorkerStatuses_inv hok).1] at hrow
    rcases mem_initializeWorkers hrow with hrow | ⟨hnew, -⟩
    · exact .inl (mem_workerRows.mpr ⟨hrow, hof⟩)
    · rw [hnew]
      exact .inr rfl
  · rw [Db.exec, hcommit] at hrow
    exact .inl (mem_workerRows.mpr ⟨hrow, hof⟩)

omit [Digests] in
/-- A failure of a worker that has a row is recorded. -/
theorem recordWorkerFailure_accepts (store : Store) {worker : ExtractorWorker} (error : String) {db : Db}
    (h : db.workerInitialized store.runId worker) :
    ∃ n t, recordWorkerFailure store worker error 1 db = .ok (n, t) := by
  obtain ⟨w, hw, hof⟩ := h
  have hfind : (db.workerStatus.find? fun w => w.runId = store.runId ∧ w.worker = worker).isSome :=
    List.find?_isSome.mpr ⟨w, hw, decide_eq_true hof⟩
  obtain ⟨row, hrow⟩ := Option.isSome_iff_exists.mp hfind
  have hthreshold : (narrow maxHeight 1).context "worker degradation threshold does not fit in an i32" = .ok 1 :=
    rfl
  simp only [recordWorkerFailure, recomputeExtractorError, Tx.require_bind_eq_ok, Tx.lift_bind_eq_ok,
    Tx.read_bind_eq_ok, Tx.expect_bind_eq_ok, Tx.modify_bind_eq_ok, Tx.pure_eq_ok]
  exact ⟨_, _, by decide, 1, hthreshold, row, hrow, rfl, rfl⟩

omit [Digests] in
/-- So is a success. -/
theorem recordWorkerSuccess_accepts (store : Store) {worker : ExtractorWorker} {db : Db}
    (h : db.workerInitialized store.runId worker) : ∃ t, recordWorkerSuccess store worker db = .ok ((), t) := by
  simp only [recordWorkerSuccess, recomputeExtractorError, Tx.read_bind_eq_ok, Tx.require_bind_eq_ok,
    Tx.modify_bind_eq_ok, Tx.modify_eq_ok]
  exact ⟨_, h, rfl⟩

omit [Digests] in
/-- A row that a change of the worker's leaves is one that was changed. -/
theorem workerRows_updated {db : Db} {run : Uuid} {worker : ExtractorWorker} {set : WorkerStatus → WorkerStatus}
    {row : WorkerStatus} (h : row ∈ (db.updateWorker run worker set).workerRows run worker) :
    ∃ w, row = set w := by
  obtain ⟨hrow, hof⟩ := mem_workerRows.mp h
  obtain ⟨w, -, rfl⟩ := List.mem_map.mp hrow
  split_ifs at hof ⊢ with hw
  · exact ⟨w, rfl⟩
  · exact absurd hof hw

/-- **A report shows in the row.** -/
theorem report_shows {row : WorkerStatus} {db : Db} {run : Uuid} {report : NodeReport}
    (h : row ∈ (db.exec args.startOf (report.command (args.history.store run))).workerRows run .nodeHistory) :
    row.lastError = report.error := by
  cases report with
  | success target =>
    rcases Tx.commit_snd_cases (recordWorkerSuccess (args.history.store run) .nodeHistory) db with
      ⟨_, t, hok, hcommit⟩ | ⟨e, herror, hcommit⟩
    · rw [NodeReport.command, Db.exec, hcommit, Db.workerRows, (recordWorkerSuccess_inv hok).2.1] at h
      obtain ⟨w, rfl⟩ := workerRows_updated h
      rfl
    · rw [NodeReport.command, Db.exec, hcommit] at h
      obtain ⟨t, hok⟩ := recordWorkerSuccess_accepts (args.history.store run)
        ⟨row, (mem_workerRows.mp h)⟩
      rw [hok] at herror
      cases herror
  | failure error =>
    rcases Tx.commit_snd_cases (recordWorkerFailure (args.history.store run) .nodeHistory error 1) db with
      ⟨_, t, hok, hcommit⟩ | ⟨e, herror, hcommit⟩
    · rw [NodeReport.command, Db.exec, hcommit, Db.workerRows, (recordWorkerFailure_inv hok).2.2.1] at h
      obtain ⟨w, rfl⟩ := workerRows_updated h
      simp [WorkerStatus.fail, NodeReport.error]
    · rw [NodeReport.command, Db.exec, hcommit] at h
      obtain ⟨n, t, hok⟩ := recordWorkerFailure_accepts (args.history.store run) error
        ⟨row, (mem_workerRows.mp h)⟩
      rw [hok] at herror
      cases herror

omit [Digests] in
/-- Since these reports, of the run or all those of a later one, there have been failures only. -/
def OnlyFails (reports later : List NodeReport) : Prop :=
  ∃ (earlier : List NodeReport) (errors : List String), (earlier = reports ∨ earlier = []) ∧
    later = earlier ++ errors.map .failure

omit [Digests] in
theorem OnlyFails.refl (reports : List NodeReport) : OnlyFails reports reports :=
  ⟨reports, [], .inl rfl, (List.append_nil _).symm⟩

omit [Digests] in
theorem OnlyFails.trans {reports later latest : List NodeReport} (h : OnlyFails reports later)
    (h' : OnlyFails later latest) : OnlyFails reports latest := by
  obtain ⟨earlier, errors, hearlier, rfl⟩ := h
  obtain ⟨earlier', errors', rfl | rfl, rfl⟩ := h'
  · exact ⟨earlier, errors ++ errors', hearlier, by rw [List.map_append, List.append_assoc]⟩
  · exact ⟨[], errors', .inr rfl, rfl⟩

/-- What a step does: it keeps the invariant and what is suspended, and while that is so it reports no
success. -/
structure Keeps (args : NodeArgs) (s t : NodeMonitor) : Prop where
  inv : Inv args t
  suspended : args.history.Quarantined s.record.db →
    args.history.Quarantined t.record.db ∧ OnlyFails s.reports t.reports

omit [Digests] in
theorem history_scope (args : NodeArgs) : args.history.stream.scope.sidechain = none := rfl

omit [Digests] in
/-- A scope that is suspended has not reached anything. -/
theorem not_reached {db : Db} {target : ObservedBlock} (hq : args.history.Quarantined db)
    (h : Reached target (args.history.row db)) : False := by
  obtain ⟨row, hrow, herror, -⟩ := hq
  obtain ⟨row', hrow', hcomplete, -⟩ := h
  obtain rfl : row = row' := Option.some.inj (hrow.symm.trans hrow')
  rw [herror] at hcomplete
  cases hcomplete

/-- What a step does to the history: what is certified stays so, and what is suspended. -/
theorem Inv.history (h : Inv args s) {as : List (Action MainchainBlock)}
    (hrun : Runs.run args.history.step (s.importState args) as = some (t.importState args)) :
    args.history.Steady (t.importState args) ∧ s.record.db.certified ⊆ t.record.db.certified ∧
      (args.history.Quarantined s.record.db → args.history.Quarantined t.record.db) := by
  obtain ⟨hsteady, hsafe⟩ := h.steady.run (history_scope args) hrun
  exact ⟨hsteady, hsafe.certified, hsafe.quarantined trivial⟩

/-- A step that reports nothing. -/
theorem Inv.keeps (h : Inv args s) {as : List (Action MainchainBlock)}
    (hrun : Runs.run args.history.step (s.importState args) as = some (t.importState args))
    (hreports : t.reports = s.reports)
    (hreached : ∀ target fatal, t.at' = .reporting (.success target) fatal →
      Reached target (args.history.row t.record.db))
    (hrows : ∀ row ∈ t.record.db.workerRows t.run .nodeHistory, row.lastError = shown t.reports)
    (hearly : t.at'.early → s.at'.early) : Keeps args s t := by
  obtain ⟨hsteady, hcertified, hquarantined⟩ := h.history hrun
  refine ⟨⟨hsteady, hreached, fun target htarget => ?_, hrows, fun ht => ?_⟩, fun hq => ⟨hquarantined hq, ?_⟩⟩
  · obtain ⟨b, hb, hcert⟩ := h.certified target (hreports ▸ htarget)
    exact ⟨b, hb, hcert.mono hcertified⟩
  · rw [hreports]
    exact h.early (hearly ht)
  · rw [hreports]
    exact .refl _

/-- The worker goes on, and the record is as it was. -/
theorem Inv.moved (h : Inv args s) {at' : NodeAt} (hquiet : at'.quiet) (hearly : at'.early → s.at'.early) :
    Keeps args s { s with at' := at' } := by
  refine h.keeps (run_crash hquiet) rfl (fun target fatal hat => ?_) h.rows hearly
  exact absurd hat (NodeAt.not_success_of_quiet hquiet target fatal)

/-- An answered await. -/
theorem advance_keeps (h : Inv args s) (ht : Advanced args s env t) : Keeps args s t := by
  obtain ⟨as, hrun⟩ := ht.simulates
  cases ht with
  | moved hquiet hearly => exact h.moved hquiet hearly
  | executed hc hat' hearly =>
    refine h.keeps hrun rfl (fun target fatal hat => ?_) ?_ hearly
    · rcases hat' with hquiet | ⟨tip, rfl⟩
      · exact absurd hat (NodeAt.not_success_of_quiet hquiet target fatal)
      · cases hat
    · intro row hrow
      exact h.rows row ((s.record.db.exec_workerRows args.startOf (hc.ofWorker _)) ▸ hrow)
  | initialized hat hquiet =>
    refine h.keeps hrun rfl (fun target fatal hat => ?_) ?_ fun _ => hat
    · exact absurd hat (NodeAt.not_success_of_quiet hquiet target fatal)
    · intro row hrow
      rcases initializeWorkers_shows hrow with hrow | hnone
      · exact h.rows row hrow
      · rw [hnone, h.early hat]
        rfl
  | again hat =>
    exact h.keeps hrun rfl (fun _ _ hat => by cases hat) h.rows fun hearly => by cases hearly
  | reached hat htarget =>
    refine h.keeps hrun rfl (fun target fatal hat' => ?_) h.rows fun hearly => by cases hearly
    cases hat'
    refine h.steady.truthful.reached (c := ⟨s.run, args.settings, _⟩) ?_ rfl htarget
    rw [importState, hat]
    rfl
  | @performed e k hat =>
    refine h.keeps hrun rfl (fun _ _ hat => by cases hat) ?_ fun hearly => by cases hearly
    intro row hrow
    have hsame := (perform_sameTasks args.history s.run env.toEnvironment s.record.db e).workers
    exact h.rows row (hsame.workerRows _ _ ▸ hrow)
  | @reported report fatal hat at' hquiet hearly =>
    obtain ⟨hsteady, hcertified, hquarantined⟩ := h.history hrun
    have hnew : ∀ target, report = .success target → Reached target (args.history.row s.record.db) := by
      rintro target rfl
      exact h.reached target fatal hat
    refine ⟨⟨hsteady, ?_, fun target htarget => ?_, fun row hrow => ?_, fun ht => ?_⟩, fun hq => ?_⟩
    · exact fun target fatal' hat' => absurd hat' (NodeAt.not_success_of_quiet hquiet target fatal')
    · have hthere : ∃ b : Block, b.hash = target.hash ∧ s.record.db.certifies args.history.key b := by
        rcases List.mem_append.mp htarget with hold | hlast
        · exact h.certified target hold
        · exact (hnew target (List.mem_singleton.mp hlast).symm).certifies h.steady.inv.durable.certified
      obtain ⟨b, hb, hcert⟩ := hthere
      exact ⟨b, hb, hcert.mono hcertified⟩
    · rw [shown_concat]
      exact report_shows hrow
    · exact absurd ht (by simp [hearly])
    · refine ⟨hquarantined hq, ?_⟩
      -- only a failure can be reported
      cases report with
      | success target => exact (not_reached hq (hnew target rfl)).elim
      | failure error => exact ⟨s.reports, [error], .inl rfl, rfl⟩

/-- **One step** keeps the invariant. -/
theorem step_keeps {a : NodeAction} (h : Inv args s) (hstep : s.step args a = some t) : Keeps args s t := by
  cases a with
  | start run =>
    simp only [step] at hstep
    split at hstep
    · split_ifs at hstep with hfresh
      obtain ⟨at', hat', hquiet⟩ : ∃ at', args.activationBlockHash.elim NodeAt.connecting NodeAt.probing = at' ∧
          at'.quiet = true := by
        cases args.activationBlockHash with
        | none => exact ⟨_, rfl, rfl⟩
        | some expected => exact ⟨_, rfl, rfl⟩
      rw [hat'] at hstep
      cases hstep
      obtain ⟨hsteady, -, -⟩ := h.history (run_crash hquiet)
      refine ⟨⟨hsteady, fun target fatal hat => ?_, fun _ h => (by cases h), fun row hrow => ?_, fun _ => rfl⟩,
        fun hq => ⟨hq, [], [], .inr rfl, rfl⟩⟩
      · exact absurd hat (NodeAt.not_success_of_quiet hquiet target fatal)
      · obtain ⟨hmem, hof, -⟩ := mem_workerRows.mp hrow
        exact absurd hof (hfresh row hmem)
    · cases hstep
  | advance env => exact advance_keeps h (advance_cases hstep)
  | feesReturned result =>
    simp only [step] at hstep
    split_ifs at hstep
    cases hstep
    exact h.moved rfl fun hearly => by cases hearly
  | crash =>
    cases hstep
    exact h.moved rfl fun hearly => by cases hearly
  | other command =>
    simp only [step] at hstep
    split_ifs at hstep with hguard
    obtain ⟨r, hr, rfl⟩ := Option.map_eq_some_iff.mp hstep
    rw [not_or] at hguard
    have hrun : Runs.run args.history.step (s.importState args) [.world command] =
        some (importState args { s with record := r }) := by
      simp only [run_cons, Import.step, if_neg hguard.1]
      change ((s.record.step args.startOf command).map _).bind _ = _
      rw [hr]
      rfl
    unfold Record.step at hr
    split_ifs at hr
    cases hr
    refine h.keeps hrun rfl (fun target fatal hat => ?_) (fun row hrow => ?_) id
    · have hrow : args.history.row (s.record.db.exec args.startOf command) = args.history.row s.record.db :=
        (s.record.db.exec_elsewhere args.startOf command hguard.1).coverage
      rw [hrow]
      exact h.reached target fatal hat
    · exact h.rows row (s.record.db.exec_workerRows args.startOf hguard.2 ▸ hrow)

/-- A run keeps it. -/
theorem run_keeps {as : List NodeAction} (h : Inv args s) (hrun : Runs.run (step args) s as = some t) :
    Keeps args s t := by
  refine run_invariant (I := Keeps args s) (fun u a v hu hstep => ?_) ⟨h, fun hq => ⟨hq, .refl _⟩⟩ hrun
  have hkeeps := step_keeps hu.inv hstep
  refine ⟨hkeeps.inv, fun hq => ?_⟩
  obtain ⟨hqu, hfails⟩ := hu.suspended hq
  obtain ⟨hqv, hfails'⟩ := hkeeps.suspended hqu
  exact ⟨hqv, hfails.trans hfails'⟩

end

end NodeMonitor

section
variable [Digests]

/-- **The node's health row is honest.** In every state of every run, whatever the node answers, whenever a
connection to the record fails or the process is killed and started again, and whatever else writes the
record in between:

* the row of the worker shows the error of the last report of its run, or none after a success;
* of each target that was reported as reached, the record has an unbroken chain of facts, one a height, down
  to the activation height;
* once the history is suspended by conflicting facts, it stays so in every later state, and what the run
  reports from then on, or a later one at all, are failures. -/
theorem node_health_honest (args : NodeArgs) {as : List NodeAction} {s : NodeMonitor}
    (hs : run (NodeMonitor.step args) NodeMonitor.init as = some s) :
    (∀ row ∈ s.record.db.workerStatus, row.runId = s.run → row.worker = .nodeHistory →
      row.lastError = s.reports.getLast?.bind NodeReport.error) ∧
    (∀ target, NodeReport.success target ∈ s.reports → ∃ (b : Block) (chain : List EventRow),
      b.hash = target.hash ∧ IsFactChain s.record.db args.history.key b args.activationHeight chain) ∧
    (args.history.Quarantined s.record.db → ∀ bs t, run (NodeMonitor.step args) s bs = some t →
      args.history.Quarantined t.record.db ∧ ∃ (earlier : List NodeReport) (errors : List String),
        (earlier = s.reports ∨ earlier = []) ∧ t.reports = earlier ++ errors.map .failure) := by
  have hinv := (NodeMonitor.run_keeps NodeMonitor.inv_init hs).inv
  refine ⟨fun row hrow hof hworker => ?_, fun target htarget => ?_, fun hq bs t ht => ?_⟩
  · exact hinv.rows row (mem_workerRows.mpr ⟨hrow, hof, hworker⟩)
  · obtain ⟨b, hb, hcert⟩ := hinv.certified target htarget
    obtain ⟨chain, hchain⟩ := Import.exists_factChain hinv.steady.inv.durable.certified hcert
    exact ⟨b, chain, hb, hchain⟩
  · exact (NodeMonitor.run_keeps hinv ht).suspended hq

end

namespace NodeTwoBlocks

/-- A worker for a node's blocks from height 5. -/
def args : NodeArgs where
  datasetId := 0
  eventContractVersion := 9
  activationHeight := 5
  activationBlockHash := none
  backfillPageBlocks := 100
  backfillPagePause := 0
  confirmedBmmFees := false
  startOf := fun _ => 5
  start_eq := rfl

/-- What the node and the record answer. -/
def answer : NodeEnvironment where
  toEnvironment := TwoBlocks.node
  activation := .error (.bail "no activation hash is expected")
  header := .ok ⟨bytes32 2, bytes32 1, 6, [], [], 0⟩
  observedAt := 0

/-- A run up to the report of its first pass. -/
def actions : List NodeAction := .start 1 :: List.replicate 19 (.advance answer)

end NodeTwoBlocks

/-- The two blocks of a pass that is reported as a success are recorded. -/
theorem node_health_honest_twoBlocks :
    ∃ (s : NodeMonitor) (b : Block) (chain : List EventRow),
      run (@NodeMonitor.step Bip300Monitor.TwoBlocks.digests NodeTwoBlocks.args) NodeMonitor.init
        NodeTwoBlocks.actions = some s ∧
      s.reports = [.success (.atHeight (bytes32 2) 6)] ∧ b.hash = bytes32 2 ∧
      IsFactChain s.record.db NodeTwoBlocks.args.history.key b 5 chain := by
  let _ := Bip300Monitor.TwoBlocks.digests
  have hcheck : ((run (NodeMonitor.step NodeTwoBlocks.args) NodeMonitor.init NodeTwoBlocks.actions).map
      (·.reports)) = some [.success (.atHeight (bytes32 2) 6)] := by decide +kernel
  obtain ⟨s, hs, hreports⟩ := Option.map_eq_some_iff.mp hcheck
  obtain ⟨b, chain, hb, hchain⟩ := (node_health_honest NodeTwoBlocks.args hs).2.1 (.atHeight (bytes32 2) 6) (by
    rw [hreports]
    exact List.mem_singleton.mpr rfl)
  exact ⟨s, b, chain, hs, hreports, hb, hchain⟩

end Bip300Monitor
