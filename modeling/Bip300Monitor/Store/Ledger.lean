import Bip300Monitor.Store.Effects

/-!
# Runs, sequence numbers and instances

What the record always is apart from its facts: a run has one row, no occurrence has a
sequence number its run has not reserved, and a current instance is registered.

## What is proved

* `Db.exec_ledger` — every command keeps these;
* `insert_recorded` — what one recorded event does to the tables they are about.
-/

namespace Bip300Monitor

open Protobuf Transaction

/-- What the tables of runs, occurrences and instances always are. -/
structure Db.Ledger (db : Db) : Prop where
  /-- The primary key of `extractor_run`. -/
  run : ∀ r ∈ db.runs, ∀ r' ∈ db.runs, r.runId = r'.runId → r = r'
  /-- Every occurrence took a sequence number its run had reserved. -/
  captured : ∀ o ∈ db.observations, ∃ r ∈ db.runs, r.runId = o.runId ∧
    o.captureSeq ≤ r.lastCaptureSeq
  /-- The foreign key of `current_sidechain_instance`. -/
  current : ∀ c ∈ db.currentInstances, db.isRegistered c.datasetId c.sidechainInstanceId

theorem Db.Ledger.empty : Db.empty.Ledger where
  run := by simp [Db.empty]
  captured := by simp [Db.empty]
  current := by simp [Db.empty]

/-- The tables of runs, occurrences, tips, snapshots and instances are as they were. -/
structure SameBooks (s t : Db) : Prop where
  runs : t.runs = s.runs
  observations : t.observations = s.observations
  tipObservations : t.tipObservations = s.tipObservations
  snapshotGroups : t.snapshotGroups = s.snapshotGroups
  sidechainInstances : t.sidechainInstances = s.sidechainInstances
  currentInstances : t.currentInstances = s.currentInstances

instance : Std.Refl SameBooks := ⟨fun _ => ⟨rfl, rfl, rfl, rfl, rfl, rfl⟩⟩

instance : IsTrans Db SameBooks := ⟨fun _ _ _ h h' => ⟨h'.runs.trans h.runs,
  h'.observations.trans h.observations, h'.tipObservations.trans h.tipObservations,
  h'.snapshotGroups.trans h.snapshotGroups,
  h'.sidechainInstances.trans h.sidechainInstances,
  h'.currentInstances.trans h.currentInstances⟩⟩

theorem SameEvidence.sameBooks {s t : Db} (h : SameEvidence s t) : SameBooks s t :=
  ⟨h.runs, h.observations, h.tipObservations, h.snapshotGroups, h.sidechainInstances,
    h.currentInstances⟩

theorem SameBooks.isRegistered {s t : Db} (h : SameBooks s t) (dataset : Uuid) (id : String) :
    t.isRegistered dataset id ↔ s.isRegistered dataset id := by
  rw [Db.isRegistered, Db.isRegistered, h.sidechainInstances]

theorem SameBooks.currentInstance {s t : Db} (h : SameBooks s t) (dataset : Uuid) (slot : ℕ) :
    t.currentInstance dataset slot = s.currentInstance dataset slot := by
  rw [Db.currentInstance, Db.currentInstance, h.currentInstances]

theorem SameBooks.ledger {s t : Db} (h : SameBooks s t) : Tx.Preserves Db.Ledger s t := by
  intro hs
  refine ⟨by rw [h.runs]; exact hs.run, by rw [h.runs, h.observations]; exact hs.captured, ?_⟩
  intro c hc
  rw [h.currentInstances] at hc
  exact (h.isRegistered _ _).mpr (hs.current c hc)

/-! ### Registering instances -/

/-- Instances are only registered, and whatever is current is registered. -/
structure Registers (s t : Db) : Prop where
  runs : t.runs = s.runs
  observations : t.observations = s.observations
  tipObservations : t.tipObservations = s.tipObservations
  snapshotGroups : t.snapshotGroups = s.snapshotGroups
  registered : ∀ dataset id, s.isRegistered dataset id → t.isRegistered dataset id
  current : (∀ c ∈ s.currentInstances, s.isRegistered c.datasetId c.sidechainInstanceId) →
    ∀ c ∈ t.currentInstances, t.isRegistered c.datasetId c.sidechainInstanceId

instance : Std.Refl Registers := ⟨fun _ => ⟨rfl, rfl, rfl, rfl, fun _ _ h => h, fun h => h⟩⟩

instance : IsTrans Db Registers := ⟨fun _ _ _ h h' => ⟨h'.runs.trans h.runs,
  h'.observations.trans h.observations, h'.tipObservations.trans h.tipObservations,
  h'.snapshotGroups.trans h.snapshotGroups,
  fun dataset id hid => h'.registered dataset id (h.registered dataset id hid),
  fun hs => h'.current (h.current hs)⟩⟩

theorem SameBooks.registers {s t : Db} (h : SameBooks s t) : Registers s t where
  runs := h.runs
  observations := h.observations
  tipObservations := h.tipObservations
  snapshotGroups := h.snapshotGroups
  registered dataset id := (h.isRegistered dataset id).mpr
  current hs c hc := by
    rw [h.currentInstances] at hc
    exact (h.isRegistered _ _).mpr (hs c hc)

/-- What a recorded instance does: it is registered, and nothing else changes. -/
theorem recordSidechainInstance_inv {row : SidechainInstanceRow} {s t : Db}
    (h : recordSidechainInstance row s = .ok (⟨⟩, t)) :
    Registers s t ∧ t.isRegistered row.datasetId row.sidechainInstanceId ∧
      t.currentInstances = s.currentInstances := by
  obtain ⟨-, h⟩ := Tx.require_bind_eq_ok.mp h
  have ht := Tx.modify_eq_ok.mp h
  by_cases hreg : s.isRegistered row.datasetId row.sidechainInstanceId
  · rw [if_pos hreg] at ht
    have hkeep : ∀ dataset id, s.isRegistered dataset id → t.isRegistered dataset id := by
      rintro dataset id ⟨i, hi, hdataset, hid⟩
      rw [ht]
      refine ⟨_, List.mem_map_of_mem hi, ?_⟩
      by_cases hrow : i.datasetId = row.datasetId ∧ i.sidechainInstanceId = row.sidechainInstanceId
      · rw [if_pos hrow]
        exact ⟨hdataset, hid⟩
      · rw [if_neg hrow]
        exact ⟨hdataset, hid⟩
    have hcurrent : t.currentInstances = s.currentInstances := by rw [ht]
    refine ⟨⟨by rw [ht], by rw [ht], by rw [ht], by rw [ht], hkeep, ?_⟩, hkeep _ _ hreg, hcurrent⟩
    intro hs c hc
    exact hkeep _ _ (hs c (hcurrent ▸ hc))
  · rw [if_neg hreg] at ht
    have hkeep : ∀ dataset id, s.isRegistered dataset id → t.isRegistered dataset id := by
      rintro dataset id ⟨i, hi, hid⟩
      rw [ht]
      exact ⟨i, List.mem_append_left _ hi, hid⟩
    have hcurrent : t.currentInstances = s.currentInstances := by rw [ht]
    refine ⟨⟨by rw [ht], by rw [ht], by rw [ht], by rw [ht], hkeep, ?_⟩, ?_, hcurrent⟩
    · intro hs c hc
      exact hkeep _ _ (hs c (hcurrent ▸ hc))
    · rw [ht]
      exact ⟨row, List.mem_append_right _ (List.mem_singleton_self _), rfl, rfl⟩

/-- A current row is an old one of another dataset or of the reading, or a new one of the
reading. -/
theorem mem_replaceCurrent {dataset : Uuid} {observedAt : ℕ} {current : List (ℕ × String)}
    {rows : List CurrentInstanceRow} {c : CurrentInstanceRow}
    (hc : c ∈ replaceCurrent dataset observedAt current rows) :
    (c ∈ rows ∧ c.datasetId ≠ dataset) ∨
      (c.datasetId = dataset ∧ (c.sidechain, c.sidechainInstanceId) ∈ current) := by
  have hfold : ∀ (ps : List (ℕ × String)) (kept : List CurrentInstanceRow),
      c ∈ ps.foldl (insertCurrent dataset observedAt) kept →
        c ∈ kept ∨ (c.datasetId = dataset ∧ (c.sidechain, c.sidechainInstanceId) ∈ ps) := by
    intro ps
    induction ps with
    | nil => exact fun kept h => .inl h
    | cons p ps ih =>
      intro kept h
      rcases ih _ h with h | ⟨hdataset, hmem⟩
      · unfold insertCurrent at h
        split_ifs at h
        · exact .inl h
        · rcases List.mem_append.mp h with h | h
          · exact .inl h
          · rw [List.mem_singleton.mp h]
            exact .inr ⟨rfl, List.mem_cons_self⟩
      · exact .inr ⟨hdataset, List.mem_cons_of_mem p hmem⟩
  rcases hfold _ _ hc with h | h
  · obtain ⟨hmem, hkept⟩ := List.mem_filter.mp h
    by_cases hdataset : c.datasetId = dataset
    · refine .inr ⟨hdataset, ?_⟩
      simpa [hdataset] using hkept
    · exact .inl ⟨hmem, hdataset⟩
  · exact .inr h

section
variable [Digests]

/-- What recording the instances of a reading does. -/
theorem recordInstances_inv {dataset : Uuid} {observedAt : ℕ} {sidechains : List ActiveSidechain}
    {s t : Db} {current : List (ℕ × String)}
    (h : recordInstances dataset observedAt sidechains s = .ok (current, t)) :
    Registers s t ∧ (∀ p ∈ current, t.isRegistered dataset p.2) ∧
      t.currentInstances = s.currentInstances := by
  induction sidechains generalizing s current with
  | nil =>
    obtain ⟨rfl, rfl⟩ := Tx.pure_eq_ok.mp h
    exact ⟨Std.Refl.refl s, by simp, rfl⟩
  | cons sidechain rest ih =>
    obtain ⟨slot, -, h⟩ := Tx.lift_bind_eq_ok.mp h
    obtain ⟨-, h⟩ := Tx.require_bind_eq_ok.mp h
    obtain ⟨proposalHeight, -, h⟩ := Tx.lift_bind_eq_ok.mp h
    obtain ⟨activationHeight, -, h⟩ := Tx.lift_bind_eq_ok.mp h
    obtain ⟨identity, -, h⟩ := Tx.lift_bind_eq_ok.mp h
    obtain ⟨_, u, hu, h⟩ := Tx.bind_eq_ok.mp h
    obtain ⟨others, v, hv, h⟩ := Tx.bind_eq_ok.mp h
    obtain ⟨rfl, rfl⟩ := Tx.pure_eq_ok.mp h
    obtain ⟨hsu, hreg, hcurrent⟩ := recordSidechainInstance_inv hu
    obtain ⟨huv, hothers, hcurrent'⟩ := ih hv
    refine ⟨IsTrans.trans _ _ _ hsu huv, fun p hp => ?_, hcurrent'.trans hcurrent⟩
    rcases List.mem_cons.mp hp with rfl | hp
    · exact huv.registered _ _ hreg
    · exact hothers p hp

/-- What a reading of the active set does: its instances are registered, and become the
current ones and tag the batch if it is authoritative. -/
theorem updateSidechainInstances_inv {dataset : Uuid} {event : Event} {observedAt : ℕ}
    {cache cache' : InstanceCache} {authoritative : Bool} {s t : Db}
    (h : updateSidechainInstances dataset event observedAt cache authoritative s =
      .ok (cache', t)) :
    Registers s t ∧
      ((cache' = cache ∧ t.currentInstances = s.currentInstances) ∨
        ∃ sidechains current, event.activeSidechains? = some sidechains ∧
          cache' = InstanceCache.ofCurrent current ∧ ∀ p ∈ current, t.isRegistered dataset p.2) := by
  unfold updateSidechainInstances updateSidechainInstancesWith at h
  cases hactive : event.activeSidechains? with
  | none =>
    rw [hactive] at h
    obtain ⟨rfl, rfl⟩ := Tx.pure_eq_ok.mp h
    exact ⟨Std.Refl.refl s, .inl ⟨rfl, rfl⟩⟩
  | some sidechains =>
    rw [hactive] at h
    obtain ⟨current, u, hu, h⟩ := Tx.bind_eq_ok.mp h
    obtain ⟨hsu, hreg, hcurrent⟩ := recordInstances_inv hu
    cases authoritative with
    | false =>
      obtain ⟨rfl, rfl⟩ := Tx.pure_eq_ok.mp h
      exact ⟨hsu, .inl ⟨rfl, hcurrent⟩⟩
    | true =>
      obtain ⟨_, v, hv, h⟩ := Tx.bind_eq_ok.mp h
      obtain ⟨rfl, rfl⟩ := Tx.pure_eq_ok.mp h
      obtain rfl := Tx.modify_eq_ok.mp hv
      refine ⟨⟨hsu.runs, hsu.observations, hsu.tipObservations, hsu.snapshotGroups, hsu.registered, ?_⟩,
        .inr ⟨sidechains, current, rfl, rfl, hreg⟩⟩
      intro hs c hc
      rcases mem_replaceCurrent hc with ⟨hc, -⟩ | ⟨hdataset, hmem⟩
      · exact hsu.current hs c hc
      · rw [hdataset]
        exact hreg _ hmem

/-! ### Events and batches -/

/-- What one recorded event does to the tables of runs, occurrences and instances. -/
structure Recorded (run : Uuid) (captureSeq : ℕ) (s t : Db) : Prop where
  runs : t.runs = s.runs
  snapshotGroups : t.snapshotGroups = s.snapshotGroups
  observations : ∃ o, o.runId = run ∧ o.captureSeq = captureSeq ∧
    t.observations = s.observations ++ [o]
  registered : ∀ dataset id, s.isRegistered dataset id → t.isRegistered dataset id
  current : (∀ c ∈ s.currentInstances, s.isRegistered c.datasetId c.sidechainInstanceId) →
    ∀ c ∈ t.currentInstances, t.isRegistered c.datasetId c.sidechainInstanceId

omit [Digests] in
theorem sameBooks_insertFact (row : EventRow) : Tx.Guarantees SameBooks (insertFact row) := by
  intro s a t h
  rcases (insertFact_eq_ok.mp h).2 with ⟨e, -, -, rfl⟩ | ⟨-, -, -, rfl⟩
  · exact Std.Refl.refl t
  · exact ⟨rfl, rfl, rfl, rfl, rfl, rfl⟩

/-- **What recording one event does to the books.** -/
theorem insert_recorded {store : Store} {method : CaptureMethod} {group slot : Option ℕ}
    {id : Option String} {captureSeq : ℕ} {event : Event} {cache : InstanceCache} {s t : Db}
    {r : ℕ × InstanceCache}
    (h : insert store method group slot id captureSeq event cache s = .ok (r, t)) :
    Recorded store.runId captureSeq s t := by
  obtain ⟨f, payload, _, _, u, resolved, fact, v, -, -, -, hupd, -, hfact, hobs, -⟩ :=
    insert_pieces h
  obtain ⟨hsu, -⟩ := updateSidechainInstances_inv hupd
  have huv : SameBooks u v := sameBooks_insertFact _ hfact
  have hsv : Registers s v := IsTrans.trans _ _ _ hsu huv.registers
  obtain ⟨-, hobs⟩ := Tx.require_bind_eq_ok.mp (Tx.read_bind_eq_ok.mp hobs)
  obtain rfl := Tx.modify_eq_ok.mp hobs
  let occurrence : EventObservation :=
    ⟨store.datasetId, store.runId, captureSeq, method, fact.1, group, event.timestamp⟩
  refine ⟨hsv.runs, hsv.snapshotGroups, ⟨occurrence, rfl, rfl, ?_⟩, hsv.registered, hsv.current⟩
  rw [hsv.observations]

/-- A run has reserved the sequence numbers below a bound. -/
def Db.reserved (db : Db) (run : Uuid) (bound : ℕ) : Prop :=
  ∃ r ∈ db.runs, r.runId = run ∧ bound ≤ r.lastCaptureSeq + 1

omit [Digests] in
theorem Recorded.ledger {run : Uuid} {captureSeq : ℕ} {s t : Db} (h : Recorded run captureSeq s t)
    (hs : s.Ledger) (hreserved : s.reserved run (captureSeq + 1)) : t.Ledger := by
  obtain ⟨o, ho, hseq, hobs⟩ := h.observations
  refine ⟨by rw [h.runs]; exact hs.run, fun o' ho' => ?_, h.current hs.current⟩
  rw [hobs] at ho'
  rw [h.runs]
  rcases List.mem_append.mp ho' with ho' | ho'
  · exact hs.captured o' ho'
  · obtain rfl := List.mem_singleton.mp ho'
    obtain ⟨r, hr, hrun, hbound⟩ := hreserved
    exact ⟨r, hr, hrun.trans ho.symm, by omega⟩

/-- A batch with reserved sequence numbers keeps the books. -/
theorem ledger_insertAll {store : Store} {method : CaptureMethod} {group slot : Option ℕ}
    {id : Option String} {captureSeq n : ℕ} {events : List Event} {cache : InstanceCache}
    {s t : Db} (hs : s.Ledger) (hreserved : s.reserved store.runId (captureSeq + events.length))
    (h : insertAll store method group slot id captureSeq events cache s = .ok (n, t)) :
    t.Ledger := by
  induction events generalizing captureSeq cache s n with
  | nil =>
    obtain ⟨-, rfl⟩ := Tx.pure_eq_ok.mp h
    exact hs
  | cons event rest ih =>
    obtain ⟨r, u, hr, hrest⟩ := Tx.bind_eq_ok.mp h
    obtain ⟨m, v, hm, hn⟩ := Tx.bind_eq_ok.mp hrest
    obtain ⟨-, rfl⟩ := Tx.pure_eq_ok.mp hn
    have hsu := insert_recorded hr
    obtain ⟨row, hrow, hrun, hbound⟩ := hreserved
    rw [List.length_cons] at hbound
    refine ih (hsu.ledger hs ⟨row, hrow, hrun, by omega⟩) ⟨row, ?_, hrun, by omega⟩ hm
    rw [hsu.runs]
    exact hrow

end

/-! ### Reserving -/

/-- What reserving sequence numbers does: the running run's counter moves, and the first
number is above every number an occurrence of the run has. -/
theorem reserveCaptureSequences_inv {run : Uuid} {count first : ℕ} {s t : Db} (hs : s.Ledger)
    (h : reserveCaptureSequences run count s = .ok (first, t)) :
    t.Ledger ∧ t.reserved run (first + count) ∧
      (∀ o ∈ t.observations, o.runId = run → o.captureSeq < first) ∧
      t.snapshotGroups = s.snapshotGroups ∧ t.sidechainInstances = s.sidechainInstances ∧
      t.currentInstances = s.currentInstances := by
  obtain ⟨-, h⟩ := Tx.require_bind_eq_ok.mp h
  obtain ⟨row, hrow, h⟩ := Tx.expect_bind_eq_ok.mp (Tx.read_bind_eq_ok.mp h)
  rw [Tx.modify_bind_eq_ok, Tx.pure_eq_ok] at h
  obtain ⟨rfl, rfl⟩ := h
  have hmem : row ∈ s.runs := List.mem_of_find?_eq_some hrow
  have hfound := List.find?_some hrow
  obtain ⟨hrun, hrunning⟩ := of_decide_eq_true hfound
  -- the counters only grow
  have hgrow : ∀ r ∈ s.runs, ∃ r' ∈ s.runs.map (fun r =>
      if r.runId = run ∧ r.status = .running then
        { r with lastCaptureSeq := r.lastCaptureSeq + count } else r),
      r'.runId = r.runId ∧ r.lastCaptureSeq ≤ r'.lastCaptureSeq := by
    intro r hr
    refine ⟨_, List.mem_map_of_mem hr, ?_⟩
    split_ifs
    · exact ⟨rfl, Nat.le_add_right _ _⟩
    · exact ⟨rfl, le_rfl⟩
  refine ⟨⟨?_, fun o ho => ?_, hs.current⟩, ?_, fun o ho horun => ?_, rfl, rfl, rfl⟩
  · intro r hr r' hr' hid
    obtain ⟨p, hp, rfl⟩ := List.mem_map.mp hr
    obtain ⟨p', hp', rfl⟩ := List.mem_map.mp hr'
    have hpid : p.runId = p'.runId := by
      split_ifs at hid <;> exact hid
    rw [hs.run p hp p' hp' hpid]
  · obtain ⟨r, hr, hrid, hle⟩ := hs.captured o ho
    obtain ⟨r', hr', hrid', hle'⟩ := hgrow r hr
    exact ⟨r', hr', hrid'.trans hrid, hle.trans hle'⟩
  · refine ⟨_, List.mem_map_of_mem hmem, ?_⟩
    rw [if_pos ⟨hrun, hrunning⟩]
    exact ⟨hrun, by simp only; omega⟩
  · obtain ⟨r, hr, hrid, hle⟩ := hs.captured o ho
    obtain rfl := hs.run r hr row hmem (hrid.trans (horun.trans hrun.symm))
    omega

/-! ### Commands -/

/-- Closing runs changes their status only. -/
theorem Db.Ledger.mapRuns {db : Db} (h : db.Ledger) {f : ExtractorRun → ExtractorRun}
    (hf : ∀ r, (f r).runId = r.runId ∧ (f r).lastCaptureSeq = r.lastCaptureSeq) :
    Db.Ledger { db with runs := db.runs.map f } where
  run r hr r' hr' hid := by
    obtain ⟨p, hp, rfl⟩ := List.mem_map.mp hr
    obtain ⟨p', hp', rfl⟩ := List.mem_map.mp hr'
    rw [(hf p).1, (hf p').1] at hid
    rw [h.run p hp p' hp' hid]
  captured o ho := by
    obtain ⟨r, hr, hid, hle⟩ := h.captured o ho
    exact ⟨f r, List.mem_map_of_mem hr, (hf r).1.trans hid, hle.trans_eq (hf r).2.symm⟩
  current := h.current

/-- Opening a run under a fresh identity. -/
theorem Db.Ledger.openRun {db : Db} (h : db.Ledger) (row : ExtractorRun)
    (hfresh : ∀ r ∈ db.runs, r.runId ≠ row.runId) :
    Db.Ledger { db with runs := db.runs ++ [row] } where
  run r hr r' hr' hid := by
    rcases List.mem_append.mp hr with hr | hr <;> rcases List.mem_append.mp hr' with hr' | hr'
    · exact h.run r hr r' hr' hid
    · rw [List.mem_singleton.mp hr'] at hid
      exact absurd hid (hfresh r hr)
    · rw [List.mem_singleton.mp hr] at hid
      exact absurd hid.symm (hfresh r' hr')
    · rw [List.mem_singleton.mp hr, List.mem_singleton.mp hr']
  captured o ho := by
    obtain ⟨r, hr, hid, hle⟩ := h.captured o ho
    exact ⟨r, List.mem_append_left _ hr, hid, hle⟩
  current := h.current

theorem ledger_initializeIdentity {source : Source} {datasetId runId : Uuid} {version : ℕ}
    {answer : Store × Option ObservedBlock} {s t : Db}
    (h : initializeIdentity source datasetId runId version s = .ok (answer, t)) (hs : s.Ledger) :
    t.Ledger := by
  obtain ⟨hfresh, ht⟩ := initializeIdentity_inv h
  have hclosed := hs.mapRuns (f := .orphan datasetId source) fun r => by
    unfold ExtractorRun.orphan
    split_ifs <;> simp
  exact ht.sameBooks.ledger (hclosed.openRun _ hfresh)

theorem ledger_finishRun {store : Store} {status : RunStatus} {reason : Option String} {s t : Db}
    (h : finishRun store status reason s = .ok ((), t)) (hs : s.Ledger) : t.Ledger := by
  obtain ⟨-, ht⟩ := finishRun_inv h
  have hclosed := hs.mapRuns (f := .finish store.runId status) fun r => by
    unfold ExtractorRun.finish
    split_ifs <;> simp
  exact ht.sameBooks.ledger hclosed

theorem ledger_recordTipObservation {store : Store} {tip : ObservedBlock}
    {previous : Option ObservedBlock} {method : CaptureMethod} {observedAt : ℕ} {s t : Db}
    (h : recordTipObservation store tip previous method observedAt s = .ok ((), t))
    (hs : s.Ledger) : t.Ledger := by
  obtain ⟨_, _, _, u, -, -, hreserve, ht⟩ := recordTipObservation_inv h
  obtain ⟨hu, -⟩ := reserveCaptureSequences_inv hs hreserve
  exact ht.sameBooks.ledger ⟨hu.run, hu.captured, hu.current⟩

section
variable [Digests]

/-- A batch keeps the books: it has its numbers before it inserts. -/
theorem Batch.Recorded.ledger {b : Batch} {s t : Db} (h : b.Recorded s t) (hs : s.Ledger) :
    t.Ledger := by
  obtain ⟨group, r, first, u, n, v, hopens, hreserve, hinsert, hvt⟩ := h.steps
  have hr : r.Ledger := by
    cases hopens with
    | alone => exact hs
    | group => exact ⟨hs.run, hs.captured, hs.current⟩
  obtain ⟨hu, hreserved, -⟩ := reserveCaptureSequences_inv hr hreserve
  exact hvt.sameBooks.ledger (ledger_insertAll hu hreserved hinsert)

/-- **Every command keeps the books.** -/
theorem Db.exec_ledger (startOf : ScopeKey → ℕ) (db : Db) (c : Command) (h : db.Ledger) :
    (db.exec startOf c).Ledger := by
  cases db.exec_effect startOf c with
  | same _ heq => exact heq.sameBooks.ledger h
  | opened _ hok => exact ledger_initializeIdentity hok h
  | closed _ hok => exact ledger_finishRun hok h
  | tip _ _ hok => exact ledger_recordTipObservation hok h
  | batch _ _ hb => exact hb.ledger h

/-- **So the books are in order after every run of commands.** -/
theorem Record.reachable_ledger {startOf : ScopeKey → ℕ} {commands : List Command} {r : Record}
    (h : Runs.run (Record.step startOf) Record.empty commands = some r) : r.db.Ledger := by
  refine Runs.run_invariant (I := fun r => r.db.Ledger) (fun s c t hs hstep => ?_)
    Db.Ledger.empty h
  unfold Record.step at hstep
  split_ifs at hstep
  cases hstep
  exact s.db.exec_ledger startOf c hs

end

end Bip300Monitor
