import Bip300Monitor.Store.CertifiedPrefix

/-!
# Writing elsewhere

What a command that does not write a scope's coverage can do to what the scope's import
relies on: the row stays, facts are only added, and each new fact is that of an event of
the command (`Db.exec_elsewhere`).
-/

namespace Bip300Monitor

open Protobuf Transaction

/-- The scope whose coverage a command writes. -/
def Command.coverageKey : Command → Option ScopeKey
  | .beginHistoryCycle store scope .. | .setHistoryFloor store scope ..
  | .resizeHistoryPage store scope .. | .resumeHistory store scope
  | .settleHistoryFailure store scope _ => some (store.key scope)
  | .recordHistoryPage store _ page => some (store.key page.scope)
  | .supersedeHistory store stream sidechain id _ => some (store.scopeKey stream sidechain id)
  | _ => none

/-- The events a command records. -/
def Command.events : Command → List Event
  | .record _ events .. | .recordSnapshot _ events .. | .recordHistoryPage _ events _ => events
  | .recordFeeEnrichment _ _ _ event => [event]
  | _ => []

/-- The row records the event. -/
def IsFactOf (e : EventRow) (event : Event) : Prop :=
  ∃ f, facts event = .ok f ∧ e.kind = f.kind ∧ e.blockHash = f.blockHash ∧ e.height = f.height ∧
    e.previousHash = previousHash event

/-- What writing elsewhere does to a scope, recording these events. -/
structure Elsewhere (k : ScopeKey) (recorded : List Event) (s t : Db) : Prop where
  coverage : t.coverage k = s.coverage k
  events : s.events ⊆ t.events
  fresh : ∀ e ∈ t.events, e ∈ s.events ∨ ∃ event ∈ recorded, IsFactOf e event

variable {k k' : ScopeKey} {events : List Event} {s t u : Db}

theorem SameFacts.elsewhere (h : SameFacts s t) : Elsewhere k events s t where
  coverage := by rw [h.coverage]
  events := by rw [h.events]; exact fun _ h => h
  fresh e he := .inl (h.events ▸ he)

instance : Std.Refl (Elsewhere k events) := ⟨fun _ => ⟨rfl, fun _ h => h, fun _ h => .inl h⟩⟩

/-- Another scope's row, and certified blocks, are elsewhere. -/
theorem Elsewhere.setCoverage (h : Elsewhere k events s t) (hk : k' ≠ k)
    (row : CoverageRow) : Elsewhere k events s (t.setCoverage k' row) where
  coverage := (Db.setCoverage_coverage_of_ne t row hk.symm).trans h.coverage
  events := h.events
  fresh := h.fresh

theorem Elsewhere.writeCoverage {row : CoverageRow} (h : Elsewhere k events s t) (hk : k' ≠ k)
    (hw : writeCoverage k' row t = .ok ((), u)) : Elsewhere k events s u := by
  obtain ⟨-, v, hcertify, rfl⟩ := writeCoverage_inv hw
  obtain ⟨hevents, hcoverage, -⟩ := certifyHistory_frame hcertify
  refine Elsewhere.setCoverage ?_ hk row
  exact ⟨by rw [hcoverage, h.coverage], by rw [hevents]; exact h.events,
    by rw [hevents]; exact h.fresh⟩

section
variable [Digests] {store : Store}

theorem RecordedAs.isFactOf {slot : Option ℕ} {id : Option String} {event : Event}
    {row e : EventRow} (h : RecordedAs store slot id event row) (he : e = { row with id := e.id }) :
    IsFactOf e event := by
  obtain ⟨f, payload, inst, hf, -, -, rfl⟩ := h
  rw [he]
  exact ⟨f, hf, rfl, rfl, rfl, rfl⟩

/-- Recording the events. -/
theorem elsewhere_insertAll {method : CaptureMethod} {group slot : Option ℕ} {id : Option String}
    {first n : ℕ} {cache : InstanceCache} (hsu : SameFacts s u)
    (h : insertAll store method group slot id first events cache u = .ok (n, t)) :
    Elsewhere k events s t := by
  have hgrows := grows_insertAll _ _ _ _ _ _ _ _ h
  refine ⟨by rw [hgrows.coverage, hsu.coverage], ?_, fun e he => ?_⟩
  · rw [← hsu.events]
    exact hgrows.events
  · rcases insertAll_new h he with he | ⟨event, hevent, row, hrow, heq⟩
    · exact .inl (hsu.events ▸ he)
    · exact .inr ⟨event, hevent, hrow.isFactOf heq⟩

theorem elsewhere_recordBatch {method : CaptureMethod} {inst : Option SidechainInstanceRef}
    {n : ℕ} (h : recordBatch store events method inst s = .ok (n, t)) :
    Elsewhere k events s t := by
  unfold recordBatch at h
  split_ifs at h
  · obtain ⟨-, rfl⟩ := Tx.pure_eq_ok.mp h
    exact Std.Refl.refl s
  · obtain ⟨_, v, hvalidate, h⟩ := Tx.bind_eq_ok.mp h
    obtain ⟨first, w, hreserve, h⟩ := Tx.bind_eq_ok.mp h
    exact elsewhere_insertAll (IsTrans.trans _ _ _ ((reads_validateExplicit _ _ _).of_eq hvalidate)
      (sameFacts_reserveCaptureSequences _ _ hreserve)) h

theorem elsewhere_recordSnapshot {method : CaptureMethod} {metadata : SnapshotMetadata} {n : ℕ}
    (h : recordSnapshot store events method metadata s = .ok (n, t)) : Elsewhere k events s t := by
  unfold recordSnapshot at h
  split_ifs at h
  · obtain ⟨-, rfl⟩ := Tx.pure_eq_ok.mp h
    exact Std.Refl.refl s
  · obtain ⟨_, -, h⟩ := Tx.lift_bind_eq_ok.mp h
    obtain ⟨_, -, h⟩ := Tx.lift_bind_eq_ok.mp h
    obtain ⟨_, -, h⟩ := Tx.lift_bind_eq_ok.mp h
    obtain ⟨_, -, h⟩ := Tx.lift_bind_eq_ok.mp h
    obtain ⟨_, -, h⟩ := Tx.lift_bind_eq_ok.mp h
    obtain ⟨_, -, h⟩ := Tx.lift_bind_eq_ok.mp h
    obtain ⟨-, h⟩ := Tx.require_bind_eq_ok.mp h
    obtain ⟨group, v, hgroup, h⟩ := Tx.bind_eq_ok.mp h
    obtain ⟨first, w, hreserve, h⟩ := Tx.bind_eq_ok.mp h
    obtain ⟨inserted, x, hinsert, h⟩ := Tx.bind_eq_ok.mp h
    obtain ⟨_, y, hstatus, h⟩ := Tx.bind_eq_ok.mp h
    obtain ⟨-, rfl⟩ := Tx.pure_eq_ok.mp h
    have hx : Elsewhere k events s x := elsewhere_insertAll (IsTrans.trans _ _ _
      (sameFacts_insertSnapshotGroup _ _ _ _ _ hgroup)
      (sameFacts_reserveCaptureSequences _ _ hreserve)) hinsert
    have hy : SameFacts x y := sameFacts_updateExtractorStatus _ _ hstatus
    exact ⟨by rw [hy.coverage, hx.coverage], by rw [hy.events]; exact hx.events,
      by rw [hy.events]; exact hx.fresh⟩

theorem elsewhere_recordFeeEnrichment {candidates : List (ℕ × Bytes)} {sourceEventId : ℕ}
    {event : Event} (h : recordFeeEnrichment store candidates sourceEventId event s = .ok ((), t)) :
    Elsewhere k [event] s t := by
  obtain ⟨first, u, n, v, done, hreserve, hinsert, hschedule⟩ := recordFeeEnrichment_inv h
  have hv : Elsewhere k [event] s v :=
    elsewhere_insertAll (sameFacts_reserveCaptureSequences _ _ hreserve) hinsert
  have ht : SameFacts v t := sameFacts_scheduleFeeJob _ _ _ _ hschedule
  exact ⟨by rw [ht.coverage, hv.coverage], by rw [ht.events]; exact hv.events,
    by rw [ht.events]; exact hv.fresh⟩

/-- **A command that does not write the scope's coverage writes elsewhere.** -/
theorem Db.exec_elsewhere (startOf : ScopeKey → ℕ) (db : Db) (c : Command)
    (hc : c.coverageKey ≠ some k) : Elsewhere k c.events db (db.exec startOf c) := by
  have bookkeeping {α : Type} {x : Write α} (h : Tx.Guarantees SameFacts x) :
      Elsewhere k c.events db (Tx.commit x db).2 :=
    (h.mono fun _ _ hs => hs.elsewhere).commit db
  have hne {k' : ScopeKey} (h : c.coverageKey = some k') : k' ≠ k := fun heq => hc (heq ▸ h)
  have other {k' : ScopeKey} (h : c.coverageKey = some k') (row : CoverageRow) :
      Elsewhere k c.events db (db.setCoverage k' row) :=
    Elsewhere.setCoverage (Std.Refl.refl db) (hne h) row
  cases c with
  | initializeIdentity => exact bookkeeping (sameFacts_initializeIdentity _ _ _ _)
  | finishRun => exact bookkeeping (sameFacts_finishRun _ _ _)
  | initializeWorkerStatuses => exact bookkeeping (sameFacts_initializeWorkerStatuses _ _)
  | recordWorkerFailure => exact bookkeeping (sameFacts_recordWorkerFailure _ _ _ _)
  | recordWorkerSuccess => exact bookkeeping (sameFacts_recordWorkerSuccess _ _)
  | recordTipObservation => exact bookkeeping (sameFacts_recordTipObservation _ _ _ _ _)
  | historyCoverage => exact Std.Refl.refl _
  | record => exact Tx.commit_rel fun _ _ h => elsewhere_recordBatch h
  | recordSnapshot => exact Tx.commit_rel fun _ _ h => elsewhere_recordSnapshot h
  | recordFeeEnrichment => exact Tx.commit_rel fun _ _ h => elsewhere_recordFeeEnrichment h
  | recordFeeFailure => exact bookkeeping (sameFacts_scheduleFeeJob _ _ _ _)
  | beginHistoryCycle =>
    refine Tx.commit_rel fun _ _ h => ?_
    obtain ⟨_, _, -, -, -, -, -, rfl, -⟩ := beginHistoryCycle_inv h
    exact other rfl _
  | setHistoryFloor =>
    refine Tx.commit_rel fun _ _ h => ?_
    obtain ⟨_, -, -, -, -, rfl⟩ := setHistoryFloor_inv h
    exact other rfl _
  | resizeHistoryPage =>
    refine Tx.commit_rel fun _ _ h => ?_
    obtain ⟨_, -, -, -, rfl⟩ := resizeHistoryPage_inv h
    exact other rfl _
  | resumeHistory =>
    refine Tx.commit_rel fun _ _ h => ?_
    obtain ⟨_, -, -, -, -, rfl⟩ := resumeHistory_inv h
    exact other rfl _
  | settleHistoryFailure =>
    refine Tx.commit_rel fun _ _ h => ?_
    obtain ⟨_, -, ⟨-, -, rfl⟩ | ⟨-, -, -, rfl⟩ | ⟨-, -, -, rfl⟩⟩ := settleHistoryFailure_inv h
    · exact Std.Refl.refl _
    · exact other rfl _
    · exact other rfl _
  | supersedeHistory =>
    refine Tx.commit_rel fun _ _ h => ?_
    rcases supersedeHistory_inv h with ⟨rfl, -⟩ | ⟨_, -, -, -, rfl⟩
    · exact Std.Refl.refl _
    · exact other rfl _
  | recordHistoryPage =>
    refine Tx.commit_rel fun _ _ h => ?_
    obtain ⟨-, _, _, _, u, -, -, hinsert, -, -, -, -, hw⟩ := recordHistoryPageTx_inv h
    obtain ⟨first, v, hsv, hinsert⟩ := insertPage_inv hinsert
    exact (elsewhere_insertAll hsv hinsert).writeCoverage (hne rfl) hw

end

end Bip300Monitor
