import Bip300Monitor.Store.Effects

/-!
# Commit, then publish

`Recorder` (`shared/src/recorder.rs`) writes what an extractor observes to the record, and hands it to the
live transport when the transaction has committed. A failed write is fatal; a failed publication is a
warning, and what `publish_batch` (`shared/src/nats.rs`) could not publish is only counted.

## The model

`Recording` has the four calls that publish. `Publishing` is a `publish_batch` between two awaits; the
events that the transport took stand in `taken`, whose length is the counter `published`.

## What is proved

* `Db.commits_records` — a committed batch has a fact for each of its events;
* `Publishing.accounts_publish` — what is published is in order among the batch, and nothing is left out
  without a failure.
-/

namespace Bip300Monitor

open Protobuf Transaction

/-! ### Recording -/

/-- The calls on a recorder that are published, once recorded. -/
inductive Recording where
  /-- `record_batch_with_method`, and under it `record` and `record_batch`. -/
  | recordBatch (events : List Event) (method : CaptureMethod)
  | recordForInstance (event : Event) (inst : SidechainInstanceRef)
  | recordSnapshotBatch (events : List Event) (method : CaptureMethod) (metadata : SnapshotMetadata)
  /-- With the candidates that the enrichment is to be of. -/
  | recordFeeEnrichment (candidates : List (ℕ × Bytes)) (sourceEventId : ℕ) (event : Event)

namespace Recording

/-- The events that are handed over. -/
def events : Recording → List Event
  | .recordBatch events _ | .recordSnapshotBatch events _ _ => events
  | .recordForInstance event _ | .recordFeeEnrichment _ _ event => [event]

/-- The call on the store. -/
def command (store : Store) : Recording → Command
  | .recordBatch events method => .record store events method none
  | .recordForInstance event inst => .record store [event] .live (some inst)
  | .recordSnapshotBatch events method metadata => .recordSnapshot store events method metadata
  | .recordFeeEnrichment candidates sourceEventId event =>
    .recordFeeEnrichment store candidates sourceEventId event

/-- The batch of the call has the events that are handed over. -/
theorem command_batch (store : Store) (r : Recording) :
    ∃ b, (r.command store).batch = some b ∧ b.store = store ∧ b.events = r.events := by
  cases r with
  | recordBatch => exact ⟨_, rfl, rfl, rfl⟩
  | recordForInstance => exact ⟨_, rfl, rfl, rfl⟩
  | recordSnapshotBatch => exact ⟨_, rfl, rfl, rfl⟩
  | recordFeeEnrichment => exact ⟨_, rfl, rfl, rfl⟩

end Recording

section
variable [Digests]

/-- The record has a fact for an event, of the identity that a store gives it, for this instance if one is
given. -/
def Db.RecordsFor (db : Db) (store : Store) (slot : Option ℕ) (id : Option String) (event : Event) : Prop :=
  ∃ row, RecordedAs store slot id event row ∧ ∃ e ∈ db.events, e.sameIdentity row

/-- The record has a fact for an event. -/
def Db.Records (db : Db) (store : Store) (event : Event) : Prop :=
  ∃ slot id, db.RecordsFor store slot id event

/-- Facts stay. -/
theorem Db.Records.exec {db : Db} {store : Store} {event : Event} (h : db.Records store event)
    (startOf : ScopeKey → ℕ) (c : Command) : (db.exec startOf c).Records store event := by
  obtain ⟨slot, id, row, hrow, e, he, hidentity⟩ := h
  exact ⟨slot, id, row, hrow, e, db.exec_events startOf c he, hidentity⟩

/-- **A committed batch is recorded**: each of its events has a fact. -/
theorem Db.commits_records {startOf : ScopeKey → ℕ} {db : Db} {c : Command} {b : Batch}
    (hb : c.batch = some b) (hc : db.commits c) {event : Event} (hevent : event ∈ b.events) :
    (db.exec startOf c).RecordsFor b.store b.sidechain b.sidechainInstanceId event := by
  cases db.exec_effect startOf c with
  | same hnothing =>
    have hnil := hnothing hc
    rw [Command.captures_of_batch hb, List.map_eq_nil_iff] at hnil
    rw [hnil] at hevent
    cases hevent
  | opened hcommand => rw [hcommand] at hb; cases hb
  | closed hcommand => rw [hcommand] at hb; cases hb
  | tip hcommand => rw [hcommand] at hb; cases hb
  | batch hb' _ hrecorded =>
    cases hb.symm.trans hb'
    obtain ⟨group, r, first, u, n, v, -, -, hinsert, hvt⟩ := hrecorded.steps
    obtain ⟨row, hrow, e, he, hidentity⟩ := insertAll_records hinsert hevent
    exact ⟨row, hrow, e, hvt.events ▸ he, hidentity⟩

end

/-! ### Publishing -/

/-- What one best-effort fan-out managed to do. -/
structure FanOut where
  observed : ℕ
  published : ℕ
  failure : Option String
  deriving DecidableEq, Repr

/-- Events the transport never took. -/
def FanOut.dropped (f : FanOut) : ℕ := f.observed - f.published

/-- A `publish_batch` that runs: the connection of its client, whether that was established, the batch,
and what of it is left. -/
structure Publishing where
  store : Store
  connection : ℕ
  connected : Bool
  batch : List Event
  left : List Event
  taken : List Event
  failure : Option String

namespace Publishing

/-- `is_connected` is to be asked. -/
def new (store : Store) (connection : ℕ) (batch : List Event) : Publishing :=
  ⟨store, connection, false, batch, batch, [], none⟩

/-- The outcome, when the connection is not established. -/
def disconnected (p : Publishing) : FanOut :=
  ⟨p.batch.length, 0, some "the Core NATS connection is not established"⟩

/-- The answer to the publication of the first event that is left. One bad event does not abandon the
rest. -/
def publish (p : Publishing) (event : Event) (rest : List Event) : Result Unit → Publishing
  | .ok () => { p with left := rest, taken := p.taken ++ [event] }
  | .error e => { p with left := rest, failure := p.failure.or (some e.message) }

/-- The outcome, when the time runs out. -/
def timedOut (p : Publishing) (seconds : ℕ) : FanOut :=
  ⟨p.batch.length, p.taken.length,
    some ("timed out after " ++ toString seconds ++ "s while publishing the batch")⟩

/-- The outcome, when the transport is flushed. -/
def flushed (p : Publishing) (answer : Result Unit) : FanOut :=
  ⟨p.batch.length, p.taken.length, match answer with
    | .ok () => p.failure
    | .error e => p.failure.or (some e.message)⟩

/-- What was taken, and then what is left, is in order among the batch; and if events are missing there is
a failure. -/
structure Accounts (p : Publishing) : Prop where
  order : (p.taken ++ p.left).Sublist p.batch
  failure : p.taken.length + p.left.length < p.batch.length → p.failure.isSome

theorem accounts_new (store : Store) (connection : ℕ) (batch : List Event) :
    (new store connection batch).Accounts where
  order := List.Sublist.refl batch
  failure h := by simp [new] at h

/-- A publication is taken, or it is the failure. -/
theorem accounts_publish {p : Publishing} (h : p.Accounts) {event : Event} {rest : List Event}
    (hleft : p.left = event :: rest) (answer : Result Unit) :
    (p.publish event rest answer).Accounts := by
  obtain ⟨horder, hfailure⟩ := h
  rw [hleft] at horder hfailure
  cases answer with
  | ok =>
    refine ⟨?_, fun hlt => hfailure ?_⟩
    · rw [publish, List.append_assoc, List.singleton_append]
      exact horder
    · simp only [publish, List.length_append, List.length_singleton] at hlt
      rw [List.length_cons]
      omega
  | error e =>
    refine ⟨?_, fun _ => by simp [publish]⟩
    exact ((List.Sublist.refl p.taken).append (List.sublist_cons_self event rest)).trans horder

/-- What an outcome says of a batch: the events that were taken are in order among it, they are counted,
and if some were dropped it says why. -/
structure Reports (f : FanOut) (batch taken : List Event) : Prop where
  observed : f.observed = batch.length
  published : f.published = taken.length
  order : taken.Sublist batch
  dropped : 0 < f.dropped → f.failure.isSome

theorem reports_disconnected {p : Publishing} : Reports p.disconnected p.batch [] :=
  ⟨rfl, rfl, List.nil_sublist _, fun _ => rfl⟩

theorem reports_timedOut {p : Publishing} (h : p.Accounts) (seconds : ℕ) :
    Reports (p.timedOut seconds) p.batch p.taken :=
  ⟨rfl, rfl, (List.sublist_append_left _ _).trans h.order, fun _ => rfl⟩

theorem reports_flushed {p : Publishing} (h : p.Accounts) (hleft : p.left = []) (answer : Result Unit) :
    Reports (p.flushed answer) p.batch p.taken := by
  refine ⟨rfl, rfl, (List.sublist_append_left _ _).trans h.order, fun hdropped => ?_⟩
  have hfailure : p.failure.isSome := h.failure (by
    simp only [FanOut.dropped, flushed] at hdropped
    rw [hleft, List.length_nil]
    omega)
  cases answer with
  | ok => exact hfailure
  | error e => simp [flushed]

end Publishing

end Bip300Monitor
