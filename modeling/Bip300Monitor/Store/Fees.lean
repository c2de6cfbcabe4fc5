import Bip300Monitor.Store.EventTable

/-!
# Fee enrichments

The operations of `shared/src/store.rs` on `bmm_fee_job`. A node's block is enriched with
the fees of the bids it confirms, in one transaction that records the enrichment and
schedules the block's job; a failed attempt only schedules it. The candidates are read
before the transaction (`observed_bmm_candidates`), so that the record may have moved on.
-/

namespace Bip300Monitor

open Protobuf Transaction

/-- `FEE_JOB_MAX_ATTEMPTS`: attempts after which an incomplete enrichment is abandoned. -/
def feeJobMaxAttempts : ℕ := 10

/-- The job of a block of the handle. -/
def FeeJob.isOf (job : FeeJob) (store : Store) (sourceEventId : ℕ) : Prop :=
  job.datasetId = store.datasetId ∧ job.eventContractVersion = store.eventContractVersion ∧
    job.source = store.source ∧ job.sourceEventId = sourceEventId

instance (job : FeeJob) (store : Store) (sourceEventId : ℕ) :
    Decidable (job.isOf store sourceEventId) := inferInstanceAs (Decidable (_ ∧ _))

/-- One more attempt: `ON CONFLICT … DO UPDATE`. -/
def FeeJob.attempt (job : FeeJob) (done : Bool) (error : Option String) : FeeJob :=
  { job with
    attempts := job.attempts + 1
    status :=
      if done then .done
      else if feeJobMaxAttempts ≤ job.attempts + 1 then .abandoned
      else .pending
    lastError := error }

/-- `schedule_fee_job`: close a fee job, or schedule its next attempt. -/
def scheduleFeeJob (store : Store) (sourceEventId : ℕ) (done : Bool) (error : Option String) :
    Write Unit := do
  let db ← Tx.read
  Tx.require ((∃ job ∈ db.feeJobs, job.isOf store sourceEventId) ∨
      ∃ e ∈ db.events, e.id = sourceEventId)
    (.bail "scheduling a confirmed-fee job: the row violates its foreign key to event")
  Tx.modify fun db =>
    if ∃ job ∈ db.feeJobs, job.isOf store sourceEventId then
      { db with feeJobs := db.feeJobs.map fun job =>
          if job.isOf store sourceEventId then job.attempt done error else job }
    else
      { db with feeJobs := db.feeJobs ++ [⟨store.datasetId, store.eventContractVersion,
          store.source, sourceEventId, 1, if done then .done else .pending, error⟩] }

/-- `record_fee_failure`: enriching one block failed. -/
def recordFeeFailure (store : Store) (sourceEventId : ℕ) (error : String) : Write Unit :=
  scheduleFeeJob store sourceEventId false (some error)

/-- The enrichment an event carries. -/
def confirmedFees (event : Event) : Result ConfirmedBmmFees :=
  match event.monitorEvent with
  | some (.node (some (.confirmedBmmFees fees))) => .ok fees
  | some (.node _) => .error (.bail "expected node fee enrichment")
  | _ => .error (.bail "confirmed BMM fees are node enrichments")

theorem confirmedFees_eq_ok {event : Event} {fees : ConfirmedBmmFees} : confirmedFees event = .ok fees ↔
    event.monitorEvent = some (.node (some (.confirmedBmmFees fees))) := by
  unfold confirmedFees
  split
  · simp_all
  · simp_all
  · simp_all

/-- The loop over the fees: each is of a candidate, named once, and either has an amount or
says why not. -/
def checkFees (candidates : List (ℕ × Bytes)) :
    List (ℕ × Bytes) → List ConfirmedBmmFee → Result Unit
  | _, [] => .ok ()
  | identities, fee :: fees =>
    let identity := (fee.sidechainNumber, fee.txid)
    if identity ∉ candidates ∨ identity ∈ identities ∨
        fee.feeSats.isSome ≠ (fee.unavailableReason = "") then
      .error (.bail "fee has no unambiguous official evidence")
    else checkFees candidates (identity :: identities) fees

/-- Fees that pass are of candidates. -/
theorem mem_of_checkFees {candidates identities : List (ℕ × Bytes)} {fees : List ConfirmedBmmFee}
    (h : checkFees candidates identities fees = .ok ()) {fee : ConfirmedBmmFee} (hfee : fee ∈ fees) :
    (fee.sidechainNumber, fee.txid) ∈ candidates := by
  induction fees generalizing identities with
  | nil => cases hfee
  | cons first rest ih =>
    simp only [checkFees] at h
    split_ifs at h with hrefused
    rcases List.mem_cons.mp hfee with rfl | hfee
    · exact not_not.mp (not_or.mp hrefused).1
    · exact ih h hfee

/-- The node's block that a fact records. -/
def sourceBlock (row : EventRow) : Result MainchainBlock :=
  match row.envelope.monitorEvent with
  | some (.node (some (.mainchainBlock block))) => .ok block
  | some (.node _) => .error (.bail "invalid node block kind")
  | _ => .error (.bail "invalid node block envelope")

/-- Every slot active at a height has its block fact: the candidates are final. -/
def Db.candidatesFinal (db : Db) (store : Store) (hash : Bytes) (height : ℕ) : Prop :=
  ∀ c ∈ db.currentInstances, ∀ i ∈ db.sidechainInstances,
    c.datasetId = store.datasetId ∧ i.datasetId = c.datasetId ∧
        i.sidechainInstanceId = c.sidechainInstanceId ∧ i.activationHeight ≤ height →
      ∃ e ∈ db.events, e.datasetId = c.datasetId ∧
        e.eventContractVersion = store.eventContractVersion ∧ e.source = .enforcer ∧
        e.kind = .blockConnected ∧ e.sidechain = some c.sidechain ∧ e.blockHash = some hash

instance (db : Db) (store : Store) (hash : Bytes) (height : ℕ) :
    Decidable (db.candidatesFinal store hash height) :=
  inferInstanceAs (Decidable (∀ c ∈ db.currentInstances, ∀ i ∈ db.sidechainInstances, _ → _))

variable [Digests]

/-- `record_fee_enrichment`, from the point where the candidates are read. -/
def recordFeeEnrichment (store : Store) (candidates : List (ℕ × Bytes)) (sourceEventId : ℕ)
    (event : Event) : Write Unit := do
  let fees ← Tx.lift (confirmedFees event)
  let header ← Tx.expect fees.header (.bail "missing fee header")
  Tx.lift (checkFees candidates [] fees.fees)
  let db ← Tx.read
  let row ← Tx.expect (db.events.find? fun e => e.id = sourceEventId ∧
      e.datasetId = store.datasetId ∧ e.eventContractVersion = store.eventContractVersion ∧
      e.source = .node ∧ e.kind = .mainchainBlock ∧ e.blockHash = some header.hash)
    (.bail "missing node source block")
  let block ← Tx.lift (sourceBlock row)
  Tx.require (block.header = some header) (.bail "fee enrichment changed the block header")
  let txids ← Tx.expect (Digests.txids block.rawBlock) (.bail "decoding the raw block")
  Tx.require (∀ fee ∈ fees.fees, fee.txid ∈ txids) (.bail "fee transaction is not in the block")
  let captureSeq ← reserveCaptureSequences store.runId 1
  let _ ← insert store .backfill none none none captureSeq event fun _ => none
  let height ← Tx.lift (heightToI32 header.height)
  let db ← Tx.read
  scheduleFeeJob store sourceEventId (decide (db.candidatesFinal store header.hash height)) none

/-! ### What they do to the facts -/

omit [Digests] in
theorem sameFacts_scheduleFeeJob (store : Store) (sourceEventId : ℕ) (done : Bool)
    (error : Option String) :
    Tx.Guarantees SameFacts (scheduleFeeJob store sourceEventId done error) := by
  refine Tx.guarantees_read.bind fun _ => (Tx.guarantees_require _ _).bind fun _ => ?_
  refine Tx.guarantees_modify fun db => ?_
  by_cases h : ∃ job ∈ db.feeJobs, job.isOf store sourceEventId
  · rw [if_pos h]
    exact ⟨rfl, rfl, rfl, rfl, rfl⟩
  · rw [if_neg h]
    exact ⟨rfl, rfl, rfl, rfl, rfl⟩

/-- One event is a batch of one. -/
theorem insertAll_singleton {store : Store} {method : CaptureMethod} {group slot : Option ℕ}
    {id : Option String} {captureSeq : ℕ} {event : Event} {cache : InstanceCache} {s t : Db}
    {r : ℕ × InstanceCache}
    (h : insert store method group slot id captureSeq event cache s = .ok (r, t)) :
    insertAll store method group slot id captureSeq [event] cache s = .ok (r.1, t) := by
  refine Tx.bind_eq_ok.mpr ⟨r, t, h, ?_⟩
  exact Tx.bind_eq_ok.mpr ⟨0, t, rfl, rfl⟩

/-- **What a committed enrichment did**: its event is recorded as a batch of one, and its
job is scheduled. -/
theorem recordFeeEnrichment_inv {store : Store} {candidates : List (ℕ × Bytes)}
    {sourceEventId : ℕ} {event : Event} {s t : Db}
    (h : recordFeeEnrichment store candidates sourceEventId event s = .ok ((), t)) :
    ∃ first u n v done, reserveCaptureSequences store.runId 1 s = .ok (first, u) ∧
      insertAll store .backfill none none none first [event] (fun _ => none) u = .ok (n, v) ∧
      scheduleFeeJob store sourceEventId done none v = .ok ((), t) := by
  obtain ⟨fees, -, h⟩ := Tx.lift_bind_eq_ok.mp h
  obtain ⟨header, -, h⟩ := Tx.expect_bind_eq_ok.mp h
  obtain ⟨_, -, h⟩ := Tx.lift_bind_eq_ok.mp h
  obtain ⟨row, -, h⟩ := Tx.expect_bind_eq_ok.mp (Tx.read_bind_eq_ok.mp h)
  obtain ⟨block, -, h⟩ := Tx.lift_bind_eq_ok.mp h
  obtain ⟨-, h⟩ := Tx.require_bind_eq_ok.mp h
  obtain ⟨txids, -, h⟩ := Tx.expect_bind_eq_ok.mp h
  obtain ⟨-, h⟩ := Tx.require_bind_eq_ok.mp h
  obtain ⟨first, u, hreserve, h⟩ := Tx.bind_eq_ok.mp h
  obtain ⟨r, v, hinsert, h⟩ := Tx.bind_eq_ok.mp h
  obtain ⟨height, -, h⟩ := Tx.lift_bind_eq_ok.mp h
  exact ⟨first, u, r.1, v, _, hreserve, insertAll_singleton hinsert, Tx.read_bind_eq_ok.mp h⟩

/-- The fees of a committed enrichment are of the candidates. -/
theorem recordFeeEnrichment_checked {store : Store} {candidates : List (ℕ × Bytes)}
    {sourceEventId : ℕ} {event : Event} {s t : Db}
    (h : recordFeeEnrichment store candidates sourceEventId event s = .ok ((), t)) :
    ∃ fees header, confirmedFees event = .ok fees ∧ fees.header = some header ∧
      ∀ fee ∈ fees.fees, (fee.sidechainNumber, fee.txid) ∈ candidates := by
  obtain ⟨fees, hfees, h⟩ := Tx.lift_bind_eq_ok.mp h
  obtain ⟨header, hheader, h⟩ := Tx.expect_bind_eq_ok.mp h
  obtain ⟨_, hcheck, -⟩ := Tx.lift_bind_eq_ok.mp h
  exact ⟨fees, header, hfees, hheader, fun fee hfee => mem_of_checkFees hcheck hfee⟩

theorem grows_recordFeeEnrichment (store : Store) (candidates : List (ℕ × Bytes))
    (sourceEventId : ℕ) (event : Event) :
    Tx.Guarantees Grows (recordFeeEnrichment store candidates sourceEventId event) := by
  intro s a t h
  obtain ⟨first, u, n, v, done, hreserve, hinsert, hschedule⟩ := recordFeeEnrichment_inv h
  have hsu : Grows s u := (sameFacts_reserveCaptureSequences _ _ hreserve).grows
  have huv : Grows u v := grows_insertAll _ _ _ _ _ _ _ _ hinsert
  exact IsTrans.trans _ _ _ (IsTrans.trans _ _ _ hsu huv)
    (sameFacts_scheduleFeeJob _ _ _ _ hschedule).grows

end Bip300Monitor
