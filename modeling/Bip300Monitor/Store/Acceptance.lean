import Bip300Monitor.Store.HistoryPages

/-!
# What the record accepts

The lemmas of `Bip300Monitor.Store.History` say what a success has done. Those here say when the operations
of a history succeed, given what the record checks: the run is open, the instance is registered, the row is
running at the cursor that is named, and events and rows meet the constraints of their tables.

## What is proved

* `insertPage_accepts` — the rows of a page are inserted;
* `recordHistoryPageTx_accepts` — a page is committed if the trigger accepts its row;
* `beginHistoryCycle_accepts`, `setHistoryFloor_accepts`, … — the other operations of a walk.
-/

namespace Bip300Monitor

open Protobuf Transaction

/-! ### The rows of a page -/

/-- The record can hold the event in the scope: it has a fact of the scope's slot, which meets the
constraints of `event`. -/
structure HistoryScope.Holds (scope : HistoryScope) (event : Event) : Prop where
  facts : ∃ f, facts event = .ok f ∧ f.sidechain = scope.sidechain
  payload : ∃ payload, event.monitorEvent = some payload
  notReading : event.activeSidechains? = none
  anchor : ∀ block ∈ event.observedAtBlock, block.hash.length = 32
  previous : ∀ hash ∈ previousHash event, hash.length = 32
  texts : ∀ payload ∈ event.monitorEvent, ∀ text ∈ payload.texts, '\x00' ∉ text.toList

/-- The instance of a scope is registered for its slot. -/
def Db.hasInstance (db : Db) (dataset : Uuid) (scope : HistoryScope) : Prop :=
  ∀ slot ∈ scope.sidechain, ∀ id ∈ scope.sidechainInstanceId, ∃ i ∈ db.sidechainInstances,
    i.datasetId = dataset ∧ i.sidechain = slot ∧ i.sidechainInstanceId = id

section
variable [Digests] {store : Store} {scope : HistoryScope} {s t : Db}

theorem HistoryScope.Holds.valid {event : Event} {f : Facts} {payload : MonitorEvent}
    {inst : Option String} (h : scope.Holds event) (hf : Bip300Monitor.facts event = .ok f) :
    (factRow store event f payload inst).valid := by
  refine ⟨fun hash hh => ?_, h.previous, h.texts⟩
  have hhash : hash ∈ f.blockHash := hh
  rw [facts_blockHash hf] at hhash
  obtain ⟨block, hblock, rfl⟩ := Option.map_eq_some_iff.mp hhash
  exact h.anchor block hblock

omit [Digests] in
/-- A scope that is accepted has both a slot and an instance, or neither. -/
theorem isSome_of_validateHistoryScope (h : validateHistoryScope scope = .ok ()) :
    scope.sidechain.isSome = scope.sidechainInstanceId.isSome := by
  unfold validateHistoryScope at h
  split_ifs at h with hboth
  exact not_not.mp hboth

omit [Digests] in
/-- The instance of a scope is registered. -/
theorem Db.hasInstance.isRegistered {dataset : Uuid} {id : String} (h : s.hasInstance dataset scope)
    (hscope : validateHistoryScope scope = .ok ()) (hid : id ∈ scope.sidechainInstanceId) :
    s.isRegistered dataset id := by
  have hsome : scope.sidechain.isSome := by
    rw [isSome_of_validateHistoryScope hscope, hid]
    rfl
  obtain ⟨slot, hslot⟩ := Option.isSome_iff_exists.mp hsome
  obtain ⟨i, hi, hdataset, -, hid'⟩ := h slot hslot id hid
  exact ⟨i, hi, hdataset, hid'⟩

omit [Digests] in
/-- The instance that a row of the page is tagged with is that of the scope. -/
theorem resolveInstance_explicit {f : Facts} {cache : InstanceCache}
    (hscope : validateHistoryScope scope = .ok ()) (hslot : f.sidechain = scope.sidechain) :
    resolveInstance store.datasetId f scope.sidechain scope.sidechainInstanceId cache s =
      .ok ((scope.sidechainInstanceId, cache), s) := by
  have hboth := isSome_of_validateHistoryScope hscope
  cases hs : scope.sidechain with
  | none =>
    rw [hs] at hslot hboth
    rw [Option.not_isSome_iff_eq_none.mp (by simp [← hboth] : ¬ scope.sidechainInstanceId.isSome)]
    simp only [resolveInstance, hslot]
    rfl
  | some slot =>
    rw [hs] at hslot hboth
    obtain ⟨id, hid⟩ := Option.isSome_iff_exists.mp hboth.symm
    rw [hid]
    simp only [resolveInstance, hslot]
    exact Tx.require_bind_eq_ok.mpr ⟨rfl, rfl⟩

/-- One event of a page is inserted. -/
theorem insert_accepts (method : CaptureMethod) (cache : InstanceCache) {captureSeq : ℕ} {event : Event}
    (hscope : validateHistoryScope scope = .ok ()) (h : scope.Holds event)
    (hregistered : ∀ id ∈ scope.sidechainInstanceId, s.isRegistered store.datasetId id)
    (hfresh : ∀ o ∈ s.observations, o.runId = store.runId → o.captureSeq < captureSeq) :
    Tx.Succeeds (insert store method none scope.sidechain scope.sidechainInstanceId captureSeq event
      cache) s := by
  obtain ⟨f, hf, hslot⟩ := h.facts
  obtain ⟨payload, hpayload⟩ := h.payload
  have hreading : updateSidechainInstances store.datasetId event event.timestamp cache true s =
      .ok (cache, s) := by
    rw [updateSidechainInstances, updateSidechainInstancesWith, h.notReading]
    rfl
  let row := factRow store event f payload scope.sidechainInstanceId
  have hfact : Tx.Succeeds (insertFact row) s := by
    cases hrow : s.recordedFact row with
    | some e => exact ⟨_, _, insertFact_eq_ok.mpr ⟨h.valid hf, .inl ⟨e, hrow, rfl, rfl⟩⟩⟩
    | none => exact ⟨_, _, insertFact_eq_ok.mpr ⟨h.valid hf, .inr ⟨hrow, hregistered, rfl, rfl⟩⟩⟩
  obtain ⟨fact, u, hu⟩ := hfact
  have hsu := sameBooks_insertFact _ hu
  have hobservation : Tx.Succeeds (insertObservation ⟨store.datasetId, store.runId, captureSeq, method,
      fact.1, none, event.timestamp⟩) u := by
    refine ⟨⟨⟩, _, Tx.read_bind_eq_ok.mpr (Tx.require_bind_eq_ok.mpr ⟨fun o ho heq => ?_, rfl⟩)⟩
    rw [hsu.observations] at ho
    exact absurd heq.2 (Nat.ne_of_lt (hfresh o ho heq.1))
  rw [insert, insertWith, Tx.succeeds_bind_of_ok (Tx.lift_eq_ok.mpr ⟨Result.context_eq_ok.mpr hf, rfl⟩),
    Tx.succeeds_bind_of_ok (Tx.expect_eq_ok.mpr ⟨hpayload, rfl⟩),
    Tx.succeeds_bind_of_ok (a := true) (t := s) rfl, Tx.succeeds_bind_of_ok hreading,
    Tx.succeeds_bind_of_ok (resolveInstance_explicit hscope hslot), Tx.succeeds_bind_of_ok hu]
  obtain ⟨_, v, hv⟩ := hobservation
  rw [Tx.succeeds_bind_of_ok hv]
  exact (Tx.succeeds_pure _).mpr trivial

/-- All of them are. -/
theorem insertAll_accepts (method : CaptureMethod) (cache : InstanceCache) {captureSeq : ℕ}
    {events : List Event} (hscope : validateHistoryScope scope = .ok ())
    (h : ∀ event ∈ events, scope.Holds event)
    (hregistered : ∀ id ∈ scope.sidechainInstanceId, s.isRegistered store.datasetId id)
    (hfresh : ∀ o ∈ s.observations, o.runId = store.runId → o.captureSeq < captureSeq) :
    Tx.Succeeds (insertAll store method none scope.sidechain scope.sidechainInstanceId captureSeq events
      cache) s := by
  induction events generalizing captureSeq cache s with
  | nil => exact (Tx.succeeds_pure _).mpr trivial
  | cons event rest ih =>
    obtain ⟨r, u, hr⟩ := insert_accepts method cache hscope (h event List.mem_cons_self) hregistered hfresh
    have hrecorded := insert_recorded hr
    obtain ⟨-, o, hobservations, -, hseq, -⟩ := insert_occurrence hr
    rw [insertAll, insertAllWith, Tx.succeeds_bind_of_ok hr]
    have hfreshNext : ∀ o ∈ u.observations, o.runId = store.runId → o.captureSeq < captureSeq + 1 := by
      intro o' ho' hrun
      rw [hobservations] at ho'
      rcases List.mem_append.mp ho' with ho' | ho'
      · exact Nat.lt_succ_of_lt (hfresh o' ho' hrun)
      · rw [List.mem_singleton.mp ho', hseq]
        exact Nat.lt_succ_self captureSeq
    obtain ⟨n, v, hn⟩ := ih r.2 (fun event hevent => h event (List.mem_cons_of_mem _ hevent))
      (fun id hid => hrecorded.registered _ _ (hregistered id hid)) hfreshNext
    rw [Tx.succeeds_bind_of_ok hn]
    exact (Tx.succeeds_pure _).mpr trivial

/-- **The rows of a page are inserted**, by a run that is open, if the scope can hold its events. -/
theorem insertPage_accepts {events : List Event} (hs : s.Ledger) (hrun : s.isRunning store.runId)
    (hinstance : s.hasInstance store.datasetId scope) (hscope : validateHistoryScope scope = .ok ())
    (hne : events ≠ []) (h : ∀ event ∈ events, scope.Holds event) :
    Tx.Succeeds (insertPage store events scope) s := by
  have hvalidate : validateExplicit store.datasetId scope.sidechain scope.sidechainInstanceId s =
      .ok ((), s) := by
    cases hslot : scope.sidechain with
    | none => rfl
    | some slot =>
      cases hid : scope.sidechainInstanceId with
      | none => rfl
      | some id => exact Tx.read_bind_eq_ok.mpr (Tx.require_eq_ok.mpr ⟨hinstance slot hslot id hid, rfl⟩)
  have hreserve : Tx.Succeeds (reserveCaptureSequences store.runId events.length) s := by
    obtain ⟨r, hr, hid, hstatus⟩ := hrun
    obtain ⟨row, hrow⟩ : ∃ row, s.runs.find? (fun r => r.runId = store.runId ∧ r.status = .running) =
        some row := by
      refine Option.isSome_iff_exists.mp (List.find?_isSome.mpr ⟨r, hr, ?_⟩)
      simpa using ⟨hid, hstatus⟩
    rw [reserveCaptureSequences,
      Tx.succeeds_bind_of_ok (a := ⟨⟩) (Tx.require_eq_ok.mpr ⟨by simpa using hne, rfl⟩),
      Tx.succeeds_bind_of_ok (Tx.read_eq_ok.mpr ⟨rfl, rfl⟩),
      Tx.succeeds_bind_of_ok (Tx.expect_eq_ok.mpr ⟨hrow, rfl⟩),
      Tx.succeeds_bind_of_ok (a := ⟨⟩) (Tx.modify_eq_ok.mpr rfl)]
    exact (Tx.succeeds_pure _).mpr trivial
  obtain ⟨first, u, hu⟩ := hreserve
  obtain ⟨-, -, hfresh, -, hinstances, -⟩ := reserveCaptureSequences_inv hs hu
  rw [insertPage, Tx.succeeds_bind_of_ok hvalidate, Tx.succeeds_bind_of_ok hu]
  refine insertAll_accepts .backfill _ hscope h (fun id hid => ?_) hfresh
  obtain ⟨i, hi, hid'⟩ := hinstance.isRegistered hscope hid
  exact ⟨i, hinstances ▸ hi, hid'⟩

/-- **A page is committed** once its rows are inserted, if the row stands at its cursor and can be written
as the page leaves it. -/
theorem recordHistoryPageTx_accepts {events : List Event} {expected : Block} {next : Option Block}
    {inserted : ℕ} {row : CoverageRow} {u : Db} (hscope : validateHistoryScope scope = .ok ())
    (hne : events ≠ []) (hheight : expected.height ≤ maxHeight) (hnext : ∀ b ∈ next, b.height ≤ maxHeight)
    (hinsert : insertPage store events scope s = .ok (inserted, u))
    (hrow : u.coverage (store.key scope) = some row) (hcursor : row.next = some expected)
    (hrunning : row.status = .running)
    (hwrite : writeCoverage (store.key scope) (row.afterPage expected next
      (decide (u.pageConflict (store.key scope) (pageHashes events) next.isNone)) inserted) u = .ok ((), t)) :
    recordHistoryPageTx store events ⟨scope, expected.observed, next.map Block.observed⟩ s =
      .ok ((inserted, decide (u.pageConflict (store.key scope) (pageHashes events) next.isNone)), t) := by
  have hparts : optionalBlockParts (next.map Block.observed) = .ok next := by
    cases next with
    | none => rfl
    | some b =>
      refine Result.bind_eq_ok.mpr ⟨b.height, rfl, Result.bind_eq_ok.mpr ⟨b.height, ?_, rfl⟩⟩
      exact heightToI32_eq_ok.mpr ⟨hnext b rfl, rfl⟩
  refine Tx.require_bind_eq_ok.mpr ⟨hne, Tx.lift_bind_eq_ok.mpr ⟨(), hscope, ?_⟩⟩
  refine Tx.lift_bind_eq_ok.mpr ⟨expected.height, rfl, Tx.lift_bind_eq_ok.mpr
    ⟨expected.height, heightToI32_eq_ok.mpr ⟨hheight, rfl⟩, ?_⟩⟩
  refine Tx.lift_bind_eq_ok.mpr ⟨next, hparts, Tx.bind_eq_ok.mpr ⟨inserted, u, hinsert, ?_⟩⟩
  refine Tx.read_bind_eq_ok.mpr ?_
  rw [Option.isNone_map]
  refine Tx.bind_eq_ok.mpr ⟨_, t,
    updateCoverage_eq_ok.mpr (.inr ⟨row, hrow, ⟨hcursor, hrunning⟩, rfl, hwrite⟩), ?_⟩
  exact Tx.require_bind_eq_ok.mpr ⟨rfl, rfl⟩

/-! ### The operations on the row -/

omit [Digests] in
/-- A floor that fits. -/
theorem transpose_heightToI32 {height : Option ℕ} (h : ∀ n ∈ height, n ≤ maxHeight) :
    Result.transpose (height.map heightToI32) = .ok height := by
  cases height with
  | none => rfl
  | some n => exact Result.transpose_map_eq_ok.mpr (.inr ⟨n, n, rfl, heightToI32_eq_ok.mpr ⟨h n rfl, rfl⟩, rfl⟩)

omit [Digests] in
/-- An update of the row that is there, to one that is not complete. -/
theorem updateCoverage_accepts {k : ScopeKey} {cond : CoverageRow → Prop} [DecidablePred cond]
    {set : CoverageRow → CoverageRow} {row : CoverageRow} {e : Failure} (hrow : s.coverage k = some row)
    (hcond : cond row) (hset : (set row).status ≠ .complete) (hvalid : (set row).valid k) :
    (updateCoverage k cond set >>= fun updated => Tx.require updated.isSome e) s =
      .ok ((), s.setCoverage k (set row)) := by
  have hwrite : writeCoverage k (set row) s = .ok ((), s.setCoverage k (set row)) :=
    (writeCoverage_eq_ok hset).mpr ⟨hvalid, rfl⟩
  refine Tx.bind_eq_ok.mpr ⟨some (set row), s.setCoverage k (set row),
    updateCoverage_eq_ok.mpr (.inr ⟨row, hrow, hcond, rfl, hwrite⟩), ?_⟩
  exact Tx.require_eq_ok.mpr ⟨rfl, rfl⟩

omit [Digests] in
theorem setHistoryFloor_accepts {cursor : Block} {floorHash : Option Bytes} {floorHeight : Option ℕ}
    {row : CoverageRow} (hrow : s.coverage (store.key scope) = some row) (hnext : row.next = some cursor)
    (hrunning : row.status = .running) (hfits : ∀ n ∈ floorHeight, n ≤ maxHeight)
    (hvalid : CoverageRow.valid { row with floorHash := floorHash, floorHeight := floorHeight }
      (store.key scope)) :
    setHistoryFloor store scope cursor.observed floorHash floorHeight s =
      .ok ((), s.setCoverage (store.key scope)
        { row with floorHash := floorHash, floorHeight := floorHeight }) := by
  refine Tx.lift_bind_eq_ok.mpr ⟨floorHeight, transpose_heightToI32 hfits, ?_⟩
  refine updateCoverage_accepts hrow ⟨?_, hrunning⟩ (by simp [hrunning]) hvalid
  rw [hnext]
  rfl

omit [Digests] in
theorem resizeHistoryPage_accepts {page : ℕ} {error : String} {row : CoverageRow}
    (hscope : validateHistoryScope scope = .ok ()) (hrow : s.coverage (store.key scope) = some row)
    (hrunning : row.status = .running) (hpage : page ≤ maxHeight)
    (hvalid : CoverageRow.valid { row with effectivePageBlocks := page, lastError := some error }
      (store.key scope)) :
    resizeHistoryPage store scope page error s = .ok ((), s.setCoverage (store.key scope)
      { row with effectivePageBlocks := page, lastError := some error }) := by
  refine Tx.lift_bind_eq_ok.mpr ⟨(), hscope, Tx.lift_bind_eq_ok.mpr ⟨page, ?_, ?_⟩⟩
  · exact heightToI32_eq_ok.mpr ⟨hpage, rfl⟩
  · exact updateCoverage_accepts hrow hrunning (by simp [hrunning]) hvalid

omit [Digests] in
theorem resumeHistory_accepts {row : CoverageRow} (hscope : validateHistoryScope scope = .ok ())
    (hrow : s.coverage (store.key scope) = some row)
    (hstatus : row.status = .error ∨ row.status = .superseded) (hvalid : row.valid (store.key scope)) :
    resumeHistory store scope s = .ok ((), s.setCoverage (store.key scope)
      { row with status := .running, lastError := none }) := by
  have hnot : row.status ≠ .complete := by
    rcases hstatus with h | h <;> simp [h]
  have hnext : row.next ≠ none := mt hvalid.2.2.2.2.2.2.2.mpr hnot
  refine Tx.lift_bind_eq_ok.mpr ⟨(), hscope, ?_⟩
  exact updateCoverage_accepts hrow ⟨hstatus, hnext⟩ (by simp) (hvalid.of_status hnot (by simp) none)

omit [Digests] in
/-- A cycle begins towards a target that fits, above a floor that does. -/
theorem beginHistoryCycle_accepts {start : ℕ} {covered : Option Block} {target : Block}
    {floorHash : Option Bytes} {floorHeight : Option ℕ} {page : ℕ}
    (hscope : validateHistoryScope scope = .ok ()) (hstart : start ≤ maxHeight)
    (hcovered : ∀ b ∈ covered, b.height ≤ maxHeight) (htarget : target.height ≤ maxHeight)
    (hfloor : ∀ n ∈ floorHeight, n ≤ maxHeight) (hpage : page ≤ maxHeight)
    (hinstance : s.hasInstance store.datasetId scope)
    (hvalid : CoverageRow.valid ⟨start, covered <|> (s.coverage (store.key scope)).bind (·.coveredTip), target,
      floorHash, floorHeight, some target, .running, (s.coverage (store.key scope)).elim 0 (·.rowsRecorded),
      page, none⟩ (store.key scope)) :
    ∃ row, beginHistoryCycle store scope start (covered.map Block.observed) target.observed floorHash
      floorHeight page s = .ok (row, s.setCoverage (store.key scope) row) := by
  have hparts : optionalBlockParts (covered.map Block.observed) = .ok covered := by
    cases covered with
    | none => rfl
    | some b =>
      refine Result.bind_eq_ok.mpr ⟨b.height, rfl, Result.bind_eq_ok.mpr ⟨b.height, ?_, rfl⟩⟩
      exact heightToI32_eq_ok.mpr ⟨hcovered b rfl, rfl⟩
  have hregistered : ∀ id ∈ (store.key scope).sidechainInstanceId, s.isRegistered store.datasetId id :=
    fun id hid => hinstance.isRegistered hscope hid
  let row : CoverageRow := ⟨start, covered <|> (s.coverage (store.key scope)).bind (·.coveredTip), target,
    floorHash, floorHeight, some target, .running, (s.coverage (store.key scope)).elim 0 (·.rowsRecorded),
    page, none⟩
  have hwrite : writeCoverage (store.key scope) row s = .ok ((), s.setCoverage (store.key scope) row) :=
    (writeCoverage_eq_ok (by simp [row])).mpr ⟨hvalid, rfl⟩
  refine ⟨row, ?_⟩
  refine Tx.lift_bind_eq_ok.mpr ⟨(), hscope, Tx.lift_bind_eq_ok.mpr
    ⟨start, heightToI32_eq_ok.mpr ⟨hstart, rfl⟩, ?_⟩⟩
  refine Tx.lift_bind_eq_ok.mpr ⟨covered, hparts, Tx.lift_bind_eq_ok.mpr ⟨target.height, rfl, ?_⟩⟩
  refine Tx.lift_bind_eq_ok.mpr ⟨target.height, heightToI32_eq_ok.mpr ⟨htarget, rfl⟩, ?_⟩
  refine Tx.lift_bind_eq_ok.mpr ⟨floorHeight, transpose_heightToI32 hfloor, ?_⟩
  refine Tx.lift_bind_eq_ok.mpr ⟨page, heightToI32_eq_ok.mpr ⟨hpage, rfl⟩, Tx.read_bind_eq_ok.mpr ?_⟩
  exact Tx.require_bind_eq_ok.mpr ⟨.inr hregistered, Tx.bind_eq_ok.mpr ⟨(), _, hwrite, rfl⟩⟩

end

end Bip300Monitor
