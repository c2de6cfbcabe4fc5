import Bip300Monitor.Store.Elsewhere

/-!
# What a command does to the evidence

The evidence is what observations are made of: runs, facts, conflicts, occurrences,
snapshot groups, tips and instances. Most commands leave it alone. Those that record
events all do it in one way, a `Batch`: a group is opened if there is one, sequence
numbers are reserved and the events are inserted.

## What is proved

* `Db.exec_effect` — a command opens a run, closes one, records a tip or a batch, or
  leaves the evidence as it was;
* `Db.exec_covers` — only a history page can complete a scope or certify blocks.
-/

namespace Bip300Monitor

open Protobuf Transaction

/-- The tables of evidence are as they were. -/
structure SameEvidence (s t : Db) : Prop where
  runs : t.runs = s.runs
  events : t.events = s.events
  nextEventId : t.nextEventId = s.nextEventId
  observations : t.observations = s.observations
  conflicts : t.conflicts = s.conflicts
  snapshotGroups : t.snapshotGroups = s.snapshotGroups
  tipObservations : t.tipObservations = s.tipObservations
  sidechainInstances : t.sidechainInstances = s.sidechainInstances
  currentInstances : t.currentInstances = s.currentInstances

instance : Std.Refl SameEvidence := ⟨fun _ => ⟨rfl, rfl, rfl, rfl, rfl, rfl, rfl, rfl, rfl⟩⟩

instance : IsTrans Db SameEvidence := ⟨fun _ _ _ h h' => ⟨h'.runs.trans h.runs,
  h'.events.trans h.events, h'.nextEventId.trans h.nextEventId,
  h'.observations.trans h.observations, h'.conflicts.trans h.conflicts,
  h'.snapshotGroups.trans h.snapshotGroups, h'.tipObservations.trans h.tipObservations,
  h'.sidechainInstances.trans h.sidechainInstances,
  h'.currentInstances.trans h.currentInstances⟩⟩

/-! ### Writing other tables -/

theorem sameEvidence_updateExtractorStatus (store : Store) (tip : ObservedBlock) :
    Tx.Guarantees SameEvidence (updateExtractorStatus store tip) :=
  (Tx.guarantees_lift _).bind fun _ => (Tx.guarantees_lift _).bind fun _ =>
    Tx.guarantees_modify fun _ => ⟨rfl, rfl, rfl, rfl, rfl, rfl, rfl, rfl, rfl⟩

theorem OnlyHealth.sameEvidence {s t : Db} (h : OnlyHealth s t) : SameEvidence s t := by
  rw [h.eq]
  exact ⟨rfl, rfl, rfl, rfl, rfl, rfl, rfl, rfl, rfl⟩

theorem sameEvidence_scheduleFeeJob (store : Store) (sourceEventId : ℕ) (done : Bool)
    (error : Option String) :
    Tx.Guarantees SameEvidence (scheduleFeeJob store sourceEventId done error) := by
  refine Tx.guarantees_read.bind fun _ => (Tx.guarantees_require _ _).bind fun _ => ?_
  refine Tx.guarantees_modify fun db => ?_
  by_cases h : ∃ job ∈ db.feeJobs, job.isOf store sourceEventId
  · rw [if_pos h]
    exact ⟨rfl, rfl, rfl, rfl, rfl, rfl, rfl, rfl, rfl⟩
  · rw [if_neg h]
    exact ⟨rfl, rfl, rfl, rfl, rfl, rfl, rfl, rfl, rfl⟩

theorem sameEvidence_setCoverage (db : Db) (k : ScopeKey) (row : CoverageRow) :
    SameEvidence db (db.setCoverage k row) := ⟨rfl, rfl, rfl, rfl, rfl, rfl, rfl, rfl, rfl⟩

/-- Writing a row of coverage, with the trigger. -/
theorem sameEvidence_writeCoverage (k : ScopeKey) (row : CoverageRow) :
    Tx.Guarantees SameEvidence (writeCoverage k row) := by
  intro s a t h
  obtain ⟨-, u, hcertify, rfl⟩ := writeCoverage_inv h
  by_cases hstatus : row.status = .complete
  · obtain ⟨-, -, -, rfl⟩ := (certifyHistory_eq_ok hstatus).mp hcertify
    exact ⟨rfl, rfl, rfl, rfl, rfl, rfl, rfl, rfl, rfl⟩
  · rw [certifyHistory, if_pos hstatus, Tx.pure_eq_ok] at hcertify
    obtain ⟨-, rfl⟩ := hcertify
    exact sameEvidence_setCoverage _ _ _

/-! ### Runs and tips -/

/-- A run as an opening of its source leaves it: no longer running. -/
def ExtractorRun.orphan (datasetId : Uuid) (source : Source) (r : ExtractorRun) : ExtractorRun :=
  if r.datasetId = datasetId ∧ r.source = source ∧ r.status = .running then
    { r with status := .failed }
  else r

/-- A run as the closing of a run leaves it. -/
def ExtractorRun.finish (runId : Uuid) (status : RunStatus) (r : ExtractorRun) : ExtractorRun :=
  if r.runId = runId ∧ r.status = .running then { r with status := status } else r

/-- Opening a run closes the source's running ones, and changes no other evidence. -/
theorem initializeIdentity_inv {source : Source} {datasetId runId : Uuid} {version : ℕ}
    {answer : Store × Option ObservedBlock} {s t : Db}
    (h : initializeIdentity source datasetId runId version s = .ok (answer, t)) :
    (∀ r ∈ s.runs.map (ExtractorRun.orphan datasetId source), r.runId ≠ runId) ∧ SameEvidence
      { s with runs := s.runs.map (ExtractorRun.orphan datasetId source) ++
        [⟨runId, datasetId, source, version, .running, 0⟩] } t := by
  rw [initializeIdentity, Tx.modify_bind_eq_ok, Tx.read_bind_eq_ok, Tx.require_bind_eq_ok,
    Tx.modify_bind_eq_ok, Tx.modify_bind_eq_ok, Tx.pure_eq_ok] at h
  obtain ⟨hfresh, -, rfl⟩ := h
  exact ⟨hfresh, rfl, rfl, rfl, rfl, rfl, rfl, rfl, rfl, rfl⟩

/-- Closing a run changes its status, to another than running, and no other evidence. -/
theorem finishRun_inv {store : Store} {status : RunStatus} {reason : Option String} {s t : Db}
    (h : finishRun store status reason s = .ok ((), t)) :
    status ≠ .running ∧
      SameEvidence { s with runs := s.runs.map (ExtractorRun.finish store.runId status) } t := by
  obtain ⟨hstatus, h⟩ := Tx.require_bind_eq_ok.mp h
  obtain rfl := Tx.modify_eq_ok.mp h
  exact ⟨hstatus, rfl, rfl, rfl, rfl, rfl, rfl, rfl, rfl, rfl⟩

/-- Reserving sequence numbers changes the counters of the runs. -/
theorem sameEvidence_reserve {run : Uuid} {count first : ℕ} {s t : Db}
    (h : reserveCaptureSequences run count s = .ok (first, t)) :
    SameEvidence { s with runs := t.runs } t := by
  obtain ⟨-, h⟩ := Tx.require_bind_eq_ok.mp h
  obtain ⟨_, -, h⟩ := Tx.expect_bind_eq_ok.mp (Tx.read_bind_eq_ok.mp h)
  rw [Tx.modify_bind_eq_ok, Tx.pure_eq_ok] at h
  rw [← h.2]
  exact ⟨rfl, rfl, rfl, rfl, rfl, rfl, rfl, rfl, rfl⟩

/-- Only an open run has sequence numbers. -/
theorem isRunning_of_reserve {run : Uuid} {count first : ℕ} {s t : Db}
    (h : reserveCaptureSequences run count s = .ok (first, t)) : s.isRunning run := by
  obtain ⟨-, h⟩ := Tx.require_bind_eq_ok.mp h
  obtain ⟨row, hrow, -⟩ := Tx.expect_bind_eq_ok.mp (Tx.read_bind_eq_ok.mp h)
  have hfound := List.find?_some hrow
  exact ⟨row, List.mem_of_find?_eq_some hrow, of_decide_eq_true hfound⟩

/-- A tip takes one sequence number and adds its row. -/
theorem recordTipObservation_inv {store : Store} {tip : ObservedBlock}
    {previous : Option ObservedBlock} {method : CaptureMethod} {observedAt : ℕ} {s t : Db}
    (h : recordTipObservation store tip previous method observedAt s = .ok ((), t)) :
    ∃ height before captureSeq u, tip = .atHeight tip.hash height ∧
      optionalBlockParts previous = .ok before ∧
      reserveCaptureSequences store.runId 1 s = .ok (captureSeq, u) ∧
      SameEvidence { u with tipObservations := u.tipObservations ++ [⟨store.datasetId, store.runId,
        captureSeq, method, ⟨tip.hash, height⟩, before, observedAt⟩] } t := by
  obtain ⟨height, hheight, h⟩ := Tx.lift_bind_eq_ok.mp h
  obtain ⟨height', hheight', h⟩ := Tx.lift_bind_eq_ok.mp h
  obtain ⟨_, -, h⟩ := Tx.lift_bind_eq_ok.mp h
  obtain ⟨before, hbefore, h⟩ := Tx.lift_bind_eq_ok.mp h
  obtain ⟨captureSeq, u, hreserve, h⟩ := Tx.bind_eq_ok.mp h
  obtain ⟨-, h⟩ := Tx.require_bind_eq_ok.mp (Tx.read_bind_eq_ok.mp h)
  have hstatus := sameEvidence_updateExtractorStatus _ _ (Tx.modify_bind_eq_ok.mp h)
  obtain ⟨-, rfl⟩ := heightToI32_eq_ok.mp hheight'
  refine ⟨height', before, captureSeq, u, ?_, hbefore, hreserve, hstatus⟩
  obtain ⟨hash, observedHeight⟩ := tip
  obtain rfl := requiredHeight_eq_ok.mp hheight
  rfl

/-! ### Batches -/

/-- What a recording command records: its events, for a run, with a group's label if it is
a snapshot, and for an instance if one is given. -/
structure Batch where
  store : Store
  method : CaptureMethod
  label : Option SnapshotConsistency
  sidechain : Option ℕ
  sidechainInstanceId : Option String
  events : List Event

/-- The batch of a command. -/
def Command.batch : Command → Option Batch
  | .record store events method inst => some ⟨store, method, none, inst.map (·.sidechain),
      inst.map (·.sidechainInstanceId), events⟩
  | .recordSnapshot store events method metadata =>
    some ⟨store, method, some metadata.consistency, none, none, events⟩
  | .recordHistoryPage store events page =>
    some ⟨store, .backfill, none, page.scope.sidechain, page.scope.sidechainInstanceId, events⟩
  | .recordFeeEnrichment store _ _ event => some ⟨store, .backfill, none, none, none, [event]⟩
  | _ => none

/-- What takes a sequence number: an event or a tip. -/
inductive Capture where
  | event (event : Event)
  | tip (tip : ObservedBlock) (previous : Option ObservedBlock)

/-- What a command captures, for which run, in order. -/
def Command.captures : Command → List (Uuid × Capture)
  | .recordTipObservation store tip previous _ _ => [(store.runId, .tip tip previous)]
  | c => c.batch.elim [] fun b => b.events.map fun event => (b.store.runId, .event event)

theorem Command.captures_of_batch {c : Command} {b : Batch} (h : c.batch = some b) :
    c.captures = b.events.map fun event => (b.store.runId, .event event) := by
  unfold Command.captures
  split
  · cases h
  · rw [h]
    rfl

theorem Command.events_of_batch {c : Command} {b : Batch} (h : c.batch = some b) :
    c.events = b.events := by
  cases c <;> simp only [Command.batch, Option.some.injEq, reduceCtorEq] at h <;>
    (subst h; rfl)

/-- The group of a batch is open: its row is there, with the label. -/
inductive Batch.Opens (b : Batch) (s : Db) : Option ℕ → Db → Prop
  | alone : b.label = none → Batch.Opens b s none s
  | group {label : SnapshotConsistency} {g : ℕ} {rows : List SnapshotGroup} :
    b.label = some label →
    (rows.find? (·.snapshotGroupId = g)).map (·.consistency) = some label →
    Batch.Opens b s (some g) { s with snapshotGroups := rows }

/-- A group that is inserted is found, with its label, and nothing else changes. -/
theorem insertSnapshotGroup_inv {store : Store} {method : CaptureMethod}
    {metadata : SnapshotMetadata} {before after group : ℕ} {s t : Db}
    (h : insertSnapshotGroup store method metadata before after s = .ok (group, t)) :
    ∃ rows, (rows.find? (·.snapshotGroupId = group)).map (·.consistency) =
        some metadata.consistency ∧ t = { s with snapshotGroups := rows } := by
  rw [insertSnapshotGroup, Tx.require_bind_eq_ok, Tx.read_bind_eq_ok, Tx.modify_bind_eq_ok,
    Tx.pure_eq_ok] at h
  obtain ⟨-, rfl, rfl⟩ := h
  have hfresh : ∀ ids : List ℕ, ∀ id ∈ ids, id < ids.foldr max 0 + 1 := by
    intro ids
    induction ids with
    | nil => simp
    | cons i ids ih =>
      intro id hid
      rw [List.foldr_cons]
      rcases List.mem_cons.mp hid with rfl | hid
      · omega
      · have hlt := ih id hid
        omega
  have hnone : s.snapshotGroups.find?
      (·.snapshotGroupId = (s.snapshotGroups.map (·.snapshotGroupId)).foldr max 0 + 1) = none := by
    rw [List.find?_eq_none]
    intro g hg
    have hlt := hfresh _ _ (List.mem_map_of_mem (f := (·.snapshotGroupId)) hg)
    simpa using Nat.ne_of_lt hlt
  refine ⟨_, ?_, rfl⟩
  rw [List.find?_append, hnone]
  simp

section
variable [Digests]

/-- What a committed batch did: its group opened, its numbers reserved, its events
inserted, and then no evidence written. -/
structure Batch.Recorded (b : Batch) (s t : Db) : Prop where
  steps : ∃ group r first u n v, b.Opens s group r ∧
    reserveCaptureSequences b.store.runId b.events.length r = .ok (first, u) ∧
    insertAll b.store b.method group b.sidechain b.sidechainInstanceId first b.events
      (fun _ => none) u = .ok (n, v) ∧ SameEvidence v t

/-- What the command captures is committed. -/
def Db.commits (db : Db) : Command → Bool
  | .record store events method inst => (Tx.commit (recordBatch store events method inst) db).1.isOk
  | .recordSnapshot store events method metadata =>
    (Tx.commit (recordSnapshot store events method metadata) db).1.isOk
  | .recordHistoryPage store events page =>
    (Tx.commit (recordHistoryPageTx store events page) db).1.isOk
  | .recordFeeEnrichment store candidates sourceEventId event =>
    (Tx.commit (recordFeeEnrichment store candidates sourceEventId event) db).1.isOk
  | .recordTipObservation store tip previous method observedAt =>
    (Tx.commit (recordTipObservation store tip previous method observedAt) db).1.isOk
  | _ => false

/-- What a command can have done to the evidence. -/
inductive Effect (c : Command) (s t : Db) : Prop
  /-- It failed, or it had nothing to capture, or it wrote other tables. -/
  | same (hb : s.commits c → c.captures = []) (h : SameEvidence s t)
  | opened {source : Source} {datasetId runId : Uuid} {version : ℕ}
      {answer : Store × Option ObservedBlock}
      (hc : c = .initializeIdentity source datasetId runId version)
      (h : initializeIdentity source datasetId runId version s = .ok (answer, t))
  | closed {store : Store} {status : RunStatus} {reason : Option String}
      (hc : c = .finishRun store status reason) (h : finishRun store status reason s = .ok ((), t))
  | tip {store : Store} {block : ObservedBlock} {previous : Option ObservedBlock}
      {method : CaptureMethod} {observedAt : ℕ}
      (hc : c = .recordTipObservation store block previous method observedAt) (hk : s.commits c)
      (h : recordTipObservation store block previous method observedAt s = .ok ((), t))
  | batch {b : Batch} (hb : c.batch = some b) (hc : s.commits c) (h : b.Recorded s t)

variable {store : Store} {events : List Event} {s t : Db} {n : ℕ}

theorem recordBatch_recorded {method : CaptureMethod} {inst : Option SidechainInstanceRef}
    (h : recordBatch store events method inst s = .ok (n, t)) :
    (events = [] ∧ t = s) ∨ Batch.Recorded ⟨store, method, none, inst.map (·.sidechain),
      inst.map (·.sidechainInstanceId), events⟩ s t := by
  by_cases hne : events = []
  · rw [recordBatch, if_pos hne] at h
    obtain ⟨-, rfl⟩ := Tx.pure_eq_ok.mp h
    exact .inl ⟨hne, rfl⟩
  · rw [recordBatch, if_neg hne] at h
    obtain ⟨_, u, hvalidate, h⟩ := Tx.bind_eq_ok.mp h
    obtain rfl : s = u := reads_validateExplicit _ _ _ hvalidate
    obtain ⟨first, v, hreserve, hinsert⟩ := Tx.bind_eq_ok.mp h
    exact .inr ⟨none, s, first, v, n, t, .alone rfl, hreserve, hinsert, Std.Refl.refl t⟩

theorem recordSnapshot_recorded {method : CaptureMethod} {metadata : SnapshotMetadata}
    (h : recordSnapshot store events method metadata s = .ok (n, t)) :
    (events = [] ∧ t = s) ∨
      Batch.Recorded ⟨store, method, some metadata.consistency, none, none, events⟩ s t := by
  by_cases hne : events = []
  · rw [recordSnapshot, if_pos hne] at h
    obtain ⟨-, rfl⟩ := Tx.pure_eq_ok.mp h
    exact .inl ⟨hne, rfl⟩
  · rw [recordSnapshot, if_neg hne] at h
    obtain ⟨_, -, h⟩ := Tx.lift_bind_eq_ok.mp h
    obtain ⟨_, -, h⟩ := Tx.lift_bind_eq_ok.mp h
    obtain ⟨_, -, h⟩ := Tx.lift_bind_eq_ok.mp h
    obtain ⟨_, -, h⟩ := Tx.lift_bind_eq_ok.mp h
    obtain ⟨_, -, h⟩ := Tx.lift_bind_eq_ok.mp h
    obtain ⟨_, -, h⟩ := Tx.lift_bind_eq_ok.mp h
    obtain ⟨-, h⟩ := Tx.require_bind_eq_ok.mp h
    obtain ⟨group, r, hgroup, h⟩ := Tx.bind_eq_ok.mp h
    obtain ⟨first, u, hreserve, h⟩ := Tx.bind_eq_ok.mp h
    obtain ⟨inserted, v, hinsert, h⟩ := Tx.bind_eq_ok.mp h
    obtain ⟨_, w, hstatus, h⟩ := Tx.bind_eq_ok.mp h
    obtain ⟨-, rfl⟩ := Tx.pure_eq_ok.mp h
    obtain ⟨rows, hrows, rfl⟩ := insertSnapshotGroup_inv hgroup
    exact .inr ⟨some group, _, first, u, inserted, v, .group rfl hrows, hreserve, hinsert,
      sameEvidence_updateExtractorStatus _ _ hstatus⟩

theorem recordHistoryPageTx_recorded {page : HistoryPage} {r : ℕ × Bool}
    (h : recordHistoryPageTx store events page s = .ok (r, t)) :
    Batch.Recorded ⟨store, .backfill, none, page.scope.sidechain,
      page.scope.sidechainInstanceId, events⟩ s t := by
  obtain ⟨-, _, _, _, u, -, -, hinsert, -, -, -, -, hw⟩ := recordHistoryPageTx_inv h
  obtain ⟨_, u', hvalidate, hinsert⟩ := Tx.bind_eq_ok.mp hinsert
  obtain rfl : s = u' := reads_validateExplicit _ _ _ hvalidate
  obtain ⟨first, v, hreserve, hinsert⟩ := Tx.bind_eq_ok.mp hinsert
  exact ⟨none, s, first, v, r.1, u, .alone rfl, hreserve, hinsert,
    sameEvidence_writeCoverage _ _ hw⟩

theorem recordFeeEnrichment_recorded {candidates : List (ℕ × Bytes)} {sourceEventId : ℕ}
    {event : Event} (h : recordFeeEnrichment store candidates sourceEventId event s = .ok ((), t)) :
    Batch.Recorded ⟨store, .backfill, none, none, none, [event]⟩ s t := by
  obtain ⟨first, u, n, v, done, hreserve, hinsert, hschedule⟩ := recordFeeEnrichment_inv h
  exact ⟨none, s, first, u, n, v, .alone rfl, hreserve, hinsert,
    sameEvidence_scheduleFeeJob _ _ _ _ hschedule⟩

/-- **What a command can have done to the evidence.** -/
theorem Db.exec_effect (startOf : ScopeKey → ℕ) (db : Db) (c : Command) :
    Effect c db (db.exec startOf c) := by
  -- a command that captures nothing
  have other {α : Type} {x : Write α} (hb : c.captures = [])
      (h : ∀ a t, x db = .ok (a, t) → Effect c db t) : Effect c db (Tx.commit x db).2 := by
    rcases Tx.commit_snd_cases x db with ⟨a, t, hx, hcommit⟩ | ⟨e, -, hcommit⟩
    · rw [hcommit]
      exact h a t hx
    · rw [hcommit]
      exact .same (fun _ => hb) (Std.Refl.refl db)
  have same {α : Type} {x : Write α} (hb : c.captures = []) (h : Tx.Guarantees SameEvidence x) :
      Effect c db (Tx.commit x db).2 := other hb fun _ _ hx => .same (fun _ => hb) (h hx)
  have health {α : Type} {x : Write α} (hb : c.captures = []) (h : Tx.Guarantees OnlyHealth x) :
      Effect c db (Tx.commit x db).2 := same hb (h.mono fun _ _ hx => hx.sameEvidence)
  have coverage (hb : c.captures = []) (k : ScopeKey) (row : CoverageRow) :
      Effect c db (db.setCoverage k row) := .same (fun _ => hb) (sameEvidence_setCoverage db k row)
  -- a command that captures something when it commits
  have captured {α : Type} {x : Write α} (hc : db.commits c = (Tx.commit x db).1.isOk)
      (h : ∀ a t, x db = .ok (a, t) → db.commits c → Effect c db t) :
      Effect c db (Tx.commit x db).2 := by
    rcases Tx.commit_snd_cases x db with ⟨a, t, hx, hcommit⟩ | ⟨e, -, hcommit⟩
    · rw [hcommit] at hc ⊢
      exact h a t hx hc
    · rw [hcommit] at hc ⊢
      exact .same (by simp [hc, Except.isOk, Except.toBool]) (Std.Refl.refl db)
  have batch {b : Batch} {t : Db} (hb : c.batch = some b) (hc : db.commits c)
      (h : (b.events = [] ∧ t = db) ∨ b.Recorded db t) : Effect c db t := by
    rcases h with ⟨hnil, rfl⟩ | hrec
    · exact .same (fun _ => by rw [Command.captures_of_batch hb, hnil]; rfl) (Std.Refl.refl _)
    · exact .batch hb hc hrec
  cases c with
  | initializeIdentity => exact other rfl fun _ _ h => .opened rfl h
  | finishRun => exact other rfl fun _ _ h => .closed rfl h
  | initializeWorkerStatuses => exact health rfl (onlyHealth_initializeWorkerStatuses _ _)
  | recordWorkerFailure => exact health rfl (onlyHealth_recordWorkerFailure _ _ _ _)
  | recordWorkerSuccess => exact health rfl (onlyHealth_recordWorkerSuccess _ _)
  | record => exact captured rfl fun _ _ h hc => batch rfl hc (recordBatch_recorded h)
  | recordSnapshot => exact captured rfl fun _ _ h hc => batch rfl hc (recordSnapshot_recorded h)
  | recordTipObservation => exact captured rfl fun _ _ h hc => .tip rfl hc h
  | historyCoverage => exact .same (fun _ => rfl) (Std.Refl.refl db)
  | recordHistoryPage =>
    exact captured rfl fun _ _ h hc => .batch rfl hc (recordHistoryPageTx_recorded h)
  | recordFeeEnrichment =>
    exact captured rfl fun _ _ h hc => .batch rfl hc (recordFeeEnrichment_recorded h)
  | recordFeeFailure => exact same rfl (sameEvidence_scheduleFeeJob _ _ _ _)
  | beginHistoryCycle =>
    refine other rfl fun _ _ h => ?_
    obtain ⟨_, _, -, -, -, -, -, rfl, -⟩ := beginHistoryCycle_inv h
    exact coverage rfl _ _
  | setHistoryFloor =>
    refine other rfl fun _ _ h => ?_
    obtain ⟨_, -, -, -, -, rfl⟩ := setHistoryFloor_inv h
    exact coverage rfl _ _
  | resizeHistoryPage =>
    refine other rfl fun _ _ h => ?_
    obtain ⟨_, -, -, -, rfl⟩ := resizeHistoryPage_inv h
    exact coverage rfl _ _
  | resumeHistory =>
    refine other rfl fun _ _ h => ?_
    obtain ⟨_, -, -, -, -, rfl⟩ := resumeHistory_inv h
    exact coverage rfl _ _
  | settleHistoryFailure =>
    refine other rfl fun _ _ h => ?_
    obtain ⟨_, -, ⟨-, -, rfl⟩ | ⟨-, -, -, rfl⟩ | ⟨-, -, -, rfl⟩⟩ := settleHistoryFailure_inv h
    · exact .same (fun _ => rfl) (Std.Refl.refl _)
    · exact coverage rfl _ _
    · exact coverage rfl _ _
  | supersedeHistory =>
    refine other rfl fun _ _ h => ?_
    rcases supersedeHistory_inv h with ⟨rfl, -⟩ | ⟨_, -, -, -, rfl⟩
    · exact .same (fun _ => rfl) (Std.Refl.refl _)
    · exact coverage rfl _ _

/-- What a committed batch does to the facts: it adds some. -/
theorem Batch.Recorded.subset {b : Batch} (h : b.Recorded s t) : s.events ⊆ t.events := by
  obtain ⟨group, r, first, u, n, v, hopens, hreserve, hinsert, hvt⟩ := h.steps
  have hr : r.events = s.events := by
    cases hopens with
    | alone => rfl
    | group => rfl
  rw [hvt.events, ← hr, ← (sameEvidence_reserve hreserve).events]
  exact (grows_insertAll _ _ _ _ _ _ _ _ hinsert).events

/-- Facts are never removed. -/
theorem Db.exec_events (startOf : ScopeKey → ℕ) (db : Db) (c : Command) :
    db.events ⊆ (db.exec startOf c).events := by
  cases db.exec_effect startOf c with
  | same _ heq => rw [heq.events]; exact fun _ h => h
  | opened _ hok => rw [(initializeIdentity_inv hok).2.events]; exact fun _ h => h
  | closed _ hok => rw [(finishRun_inv hok).2.events]; exact fun _ h => h
  | tip _ _ hok =>
    obtain ⟨_, _, _, u, -, -, hreserve, ht⟩ := recordTipObservation_inv hok
    have hu : u.events = db.events := (sameEvidence_reserve hreserve).events
    rw [ht.events, hu]
    exact fun _ h => h
  | batch _ _ hrec => exact hrec.subset

/-! ### Coverage -/

/-- The command begins a cycle. -/
def Command.begins : Command → Bool
  | .beginHistoryCycle .. => true
  | _ => false

/-- What a command can have done to coverage and certification. -/
inductive Covers (c : Command) (s t : Db) : Prop
  | same (hcoverage : t.coverage = s.coverage) (hcertified : t.certified = s.certified)
  /-- It wrote a row that is not complete; only a new cycle moves its cursor. -/
  | set {k : ScopeKey} {row : CoverageRow} (hk : c.coverageKey = some k)
      (hrow : row.status ≠ .complete)
      (hnext : c.begins ∨ ∃ old, s.coverage k = some old ∧ row.next = old.next)
      (h : t = s.setCoverage k row)
  | page {store : Store} {events : List Event} {page : HistoryPage} {r : ℕ × Bool}
      (hc : c = .recordHistoryPage store events page)
      (h : recordHistoryPageTx store events page s = .ok (r, t))

/-- **What a command can have done to coverage**: only a page can complete a scope or
certify blocks. -/
theorem Db.exec_covers (startOf : ScopeKey → ℕ) (db : Db) (c : Command) :
    Covers c db (db.exec startOf c) := by
  have committed {α : Type} {x : Write α} (h : ∀ a t, x db = .ok (a, t) → Covers c db t) :
      Covers c db (Tx.commit x db).2 := by
    rcases Tx.commit_snd_cases x db with ⟨a, t, hx, hcommit⟩ | ⟨e, -, hcommit⟩
    · rw [hcommit]
      exact h a t hx
    · rw [hcommit]
      exact .same rfl rfl
  have facts {α : Type} {x : Write α} (h : Tx.Guarantees SameFacts x) :
      Covers c db (Tx.commit x db).2 :=
    committed fun _ _ hx => .same (h hx).coverage (h hx).certified
  have evidence {α : Type} {x : Write α} (h : Tx.Guarantees Grows x) :
      Covers c db (Tx.commit x db).2 :=
    committed fun _ _ hx => .same (h hx).coverage (h hx).certified
  have kept {k : ScopeKey} {row old : CoverageRow} (hk : c.coverageKey = some k)
      (hrow : row.status ≠ .complete) (hold : db.coverage k = some old)
      (hnext : row.next = old.next) : Covers c db (db.setCoverage k row) :=
    .set hk hrow (.inr ⟨old, hold, hnext⟩) rfl
  cases c with
  | initializeIdentity => exact facts (sameFacts_initializeIdentity _ _ _ _)
  | finishRun => exact facts (sameFacts_finishRun _ _ _)
  | initializeWorkerStatuses => exact facts (sameFacts_initializeWorkerStatuses _ _)
  | recordWorkerFailure => exact facts (sameFacts_recordWorkerFailure _ _ _ _)
  | recordWorkerSuccess => exact facts (sameFacts_recordWorkerSuccess _ _)
  | record => exact evidence (grows_recordBatch _ _ _ _)
  | recordSnapshot => exact evidence (grows_recordSnapshot _ _ _ _)
  | recordTipObservation => exact facts (sameFacts_recordTipObservation _ _ _ _ _)
  | historyCoverage => exact .same rfl rfl
  | recordFeeEnrichment => exact evidence (grows_recordFeeEnrichment _ _ _ _)
  | recordFeeFailure => exact facts (sameFacts_scheduleFeeJob _ _ _ _)
  | recordHistoryPage => exact committed fun _ _ h => .page rfl h
  | beginHistoryCycle =>
    refine committed fun _ _ h => ?_
    obtain ⟨_, _, -, -, -, -, -, rfl, hrow⟩ := beginHistoryCycle_inv h
    exact .set rfl (by simp [hrow]) (.inl rfl) rfl
  | setHistoryFloor =>
    refine committed fun _ _ h => ?_
    obtain ⟨old, hold, -, hrun, -, rfl⟩ := setHistoryFloor_inv h
    exact kept rfl (by simp [hrun]) hold rfl
  | resizeHistoryPage =>
    refine committed fun _ _ h => ?_
    obtain ⟨old, hold, hrun, -, rfl⟩ := resizeHistoryPage_inv h
    exact kept rfl (by simp [hrun]) hold rfl
  | resumeHistory =>
    refine committed fun _ _ h => ?_
    obtain ⟨old, hold, -, -, -, rfl⟩ := resumeHistory_inv h
    exact kept rfl (by simp) hold rfl
  | settleHistoryFailure =>
    refine committed fun _ _ h => ?_
    obtain ⟨old, hold, ⟨-, -, rfl⟩ | ⟨-, -, -, rfl⟩ | ⟨-, -, -, rfl⟩⟩ := settleHistoryFailure_inv h
    · exact .same rfl rfl
    · exact kept rfl (by simp) hold rfl
    · exact kept rfl (by simp) hold rfl
  | supersedeHistory =>
    refine committed fun _ _ h => ?_
    rcases supersedeHistory_inv h with ⟨rfl, -⟩ | ⟨old, hold, -, -, rfl⟩
    · exact .same rfl rfl
    · exact kept rfl (by simp) hold rfl

/-- One command, on any handle. -/
def Db.step (startOf : ScopeKey → ℕ) (db : Db) (c : Command) : Option Db := some (db.exec startOf c)

end

end Bip300Monitor
