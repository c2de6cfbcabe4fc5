import Bip300Monitor.Store.Schema
import Mathlib.Algebra.Group.Nat.Defs
import Mathlib.Logic.Function.Basic

/-!
# Recording evidence

The write paths of `shared/src/store.rs` that record events: `insert`, which every
path ends in, and the transactions around it (`record_batch`, `record_snapshot`).
One event becomes at most one immutable fact (a row of `event`) and exactly one
occurrence of it (a row of `event_observation`). An active-sidechains payload also
moves the durable current set, and the events after it in its batch are tagged from
an in-transaction cache.

The digests and the consensus decoder come from third-party crates; they are the
class `Digests`. A violated constraint of the schema is an error like any other.
-/

namespace Bip300Monitor

open Protobuf Transaction

/-! ### Facts -/

/-- Columns extracted from an envelope. -/
structure Facts where
  kind : EventKind
  sidechain : Option ℕ
  blockHash : Option Bytes
  height : Option ℕ
  deriving DecidableEq, Repr

/-- The height of an event's anchor. -/
def Protobuf.Event.anchorHeight (event : Event) : Option ℕ :=
  event.observedAtBlock.bind (·.height)

/-- `facts`. -/
def facts (event : Event) : Result Facts :=
  match event.monitorEvent with
  | some (.node none) => .error (.bail "missing node event")
  | some (.node (some payload)) => do
    let height ← Result.transpose (event.anchorHeight.map (narrow maxHeight))
    pure ⟨payload.kind, none, event.observedAtBlock.map (·.hash), height⟩
  | some (.enforcer none) =>
    .error (.bail "enforcer event does not contain a concrete event")
  | some (.enforcer (some payload)) => do
    let sidechain ← Result.transpose (payload.sidechainNumber.map fun slot =>
      (narrow maxSmallint slot).context
        ("sidechain slot " ++ toString slot ++ " does not fit in a u8"))
    let height ← Result.transpose (event.anchorHeight.map heightToI32)
    pure ⟨payload.kind, sidechain, event.observedAtBlock.map (·.hash), height⟩
  | none => .error (.bail "event envelope does not contain a monitor event")

/-- The previous hash recorded beside a fact: that of the header the payload carries,
for the kinds that carry a connected block. -/
def previousHash (event : Event) : Option Bytes :=
  match event.monitorEvent with
  | some (.node (some payload)) => payload.header.map (·.previousHash)
  | some (.enforcer (some (.blockConnected b))) => b.header.map (·.previousHash)
  | some (.enforcer (some (.mainchainTransition t))) => t.header.map (·.previousHash)
  | _ => none

/-- The sidechains of an active-sidechains payload. -/
def Protobuf.Event.activeSidechains? (event : Event) : Option (List ActiveSidechain) :=
  match event.monitorEvent with
  | some (.enforcer (some (.activeSidechains sidechains))) => some sidechains
  | _ => none

/-! ### The table of facts -/

/-- The kinds of which a block has one immutable fact. -/
def Protobuf.EventKind.isBlockFact : EventKind → Bool
  | .blockConnected | .mainchainBlock => true
  | _ => false

/-- Two facts of one scope that disagree about one block, `e` recorded before `new`. -/
def EventRow.conflictsWith (e new : EventRow) : Prop :=
  e.sameScope new ∧ e.blockHash = new.blockHash ∧ e.blockHash ≠ none ∧ e.id < new.id ∧
    e.factSha256 ≠ new.factSha256

instance (e e' : EventRow) : Decidable (e.conflictsWith e') := inferInstanceAs (Decidable (_ ∧ _))

/-- The trigger `observe_block_fact`: the conflicts a new fact brings to light. -/
def observeBlockFact (events : List EventRow) (new : EventRow) : List EventConflict :=
  if new.kind.isBlockFact then
    (events.filter fun e => e.conflictsWith new).map fun e => ⟨new.datasetId, e.id, new.id⟩
  else []

/-- What the rendering and the constraints of `event` ask of a row: hashes of 32 bytes,
and no U+0000 in the JSON payload. -/
def EventRow.valid (row : EventRow) : Prop :=
  (∀ h ∈ row.blockHash, h.length = 32) ∧ (∀ h ∈ row.previousHash, h.length = 32) ∧
    ∀ p ∈ row.envelope.monitorEvent, ∀ text ∈ p.texts, '\x00' ∉ text.toList

instance (row : EventRow) : Decidable row.valid := inferInstanceAs (Decidable (_ ∧ _))

/-- The recorded fact with the identity of a row. -/
def Db.recordedFact (db : Db) (row : EventRow) : Option EventRow :=
  db.events.find? fun e => e.sameIdentity row

/-- The record with one more fact, and the conflicts it brings to light. -/
def Db.addFact (db : Db) (row : EventRow) : Db :=
  let new := { row with id := db.nextEventId }
  { db with
    events := db.events ++ [new]
    nextEventId := db.nextEventId + 1
    conflicts := db.conflicts ++ observeBlockFact db.events new }

/-- `INSERT INTO event … ON CONFLICT ON CONSTRAINT event_identity DO NOTHING`, with the
trigger; returns the id of the fact and whether it is new. -/
def insertFact (row : EventRow) : Write (ℕ × Bool) := do
  Tx.require row.valid (.bail "the row violates a check constraint of event")
  let db ← Tx.read
  match db.recordedFact row with
  | some e => pure (e.id, false)
  | none => do
    Tx.require (∀ id ∈ row.sidechainInstanceId, db.isRegistered row.datasetId id)
      (.bail "the row violates the foreign key event_sidechain_instance")
    Tx.modify fun db => db.addFact row
    pure (db.nextEventId, true)

/-- `INSERT INTO event_observation`. -/
def insertObservation (row : EventObservation) : Write Unit := do
  let db ← Tx.read
  Tx.require (∀ o ∈ db.observations, ¬ (o.runId = row.runId ∧ o.captureSeq = row.captureSeq))
    (.bail "the row violates the constraint event_observation_run_sequence")
  Tx.modify fun db => { db with observations := db.observations ++ [row] }

/-- The run is open. -/
def Db.isRunning (db : Db) (run : Uuid) : Prop := ∃ r ∈ db.runs, r.runId = run ∧ r.status = .running

instance (db : Db) (run : Uuid) : Decidable (db.isRunning run) :=
  inferInstanceAs (Decidable (∃ r ∈ db.runs, _))

/-- `reserve_capture_sequences`: the first of `count` sequence numbers of a running run. -/
def reserveCaptureSequences (runId : Uuid) (count : ℕ) : Write ℕ := do
  Tx.require (count ≠ 0) (.bail "cannot reserve an empty capture sequence range")
  let db ← Tx.read
  let run ← Tx.expect (db.runs.find? fun r => r.runId = runId ∧ r.status = .running)
    (.bail "extractor run is not active")
  Tx.modify fun db => { db with runs := db.runs.map fun r =>
    if r.runId = runId ∧ r.status = .running then
      { r with lastCaptureSeq := r.lastCaptureSeq + count }
    else r }
  pure (run.lastCaptureSeq + 1)

/-! ### Sidechain instances -/

/-- Stable identity of one activation occupying a sidechain slot. -/
structure SidechainInstanceRef where
  sidechain : ℕ
  sidechainInstanceId : String
  activationHeight : ℕ
  deriving DecidableEq, Repr

/-- The instances that tag the events of one batch, by slot. -/
abbrev InstanceCache := ℕ → Option String

/-- `instance_cache.clear(); instance_cache.extend(current)`. -/
def InstanceCache.ofCurrent (current : List (ℕ × String)) : InstanceCache :=
  current.foldl (fun cache p => Function.update cache p.1 (some p.2)) fun _ => none

/-- `validate_sidechain_instance`. -/
def validateSidechainInstance (dataset : Uuid) (sidechain : ℕ) (id : String) : Write Unit := do
  let db ← Tx.read
  Tx.require (∃ i ∈ db.sidechainInstances, i.datasetId = dataset ∧ i.sidechain = sidechain ∧
      i.sidechainInstanceId = id)
    (.bail ("sidechain instance `" ++ id ++ "` is not registered for slot " ++ toString sidechain))

/-- An explicit instance must be registered for its slot. -/
def validateExplicit (dataset : Uuid) : Option ℕ → Option String → Write Unit
  | some sidechain, some id => validateSidechainInstance dataset sidechain id
  | _, _ => pure ()

/-- `INSERT INTO sidechain_instance … ON CONFLICT … DO UPDATE SET last_seen_at`, with the
checks of the table. The identity is made of the fields of the constraint
`sidechain_instance_fields`, so that one cannot fail where the primary key does not. -/
def recordSidechainInstance (row : SidechainInstanceRow) : Write Unit := do
  Tx.require (row.sidechain ≤ 255 ∧ row.descriptionSha256d.length = 32 ∧
      row.proposalHeight ≤ row.activationHeight)
    (.bail "recording a sidechain instance: the row violates a check constraint")
  Tx.modify fun db =>
    if db.isRegistered row.datasetId row.sidechainInstanceId then
      { db with sidechainInstances := db.sidechainInstances.map fun i =>
          if i.datasetId = row.datasetId ∧ i.sidechainInstanceId = row.sidechainInstanceId then
            { i with lastSeenAt := row.lastSeenAt }
          else i }
    else { db with sidechainInstances := db.sidechainInstances ++ [row] }

/-- `INSERT INTO current_sidechain_instance … ON CONFLICT (dataset_id, sidechain) DO NOTHING`. -/
def insertCurrent (dataset : Uuid) (observedAt : ℕ) (rows : List CurrentInstanceRow)
    (p : ℕ × String) : List CurrentInstanceRow :=
  if rows.any fun c => c.datasetId = dataset ∧ c.sidechain = p.1 then rows
  else rows ++ [⟨dataset, p.1, p.2, observedAt⟩]

/-- Change only the current rows that differ from the reading: delete, then insert. -/
def replaceCurrent (dataset : Uuid) (observedAt : ℕ) (current : List (ℕ × String))
    (rows : List CurrentInstanceRow) : List CurrentInstanceRow :=
  current.foldl (insertCurrent dataset observedAt)
    (rows.filter fun c => c.datasetId ≠ dataset ∨ (c.sidechain, c.sidechainInstanceId) ∈ current)

/-- The instance a row of the batch is tagged with, and the cache after it: an explicit
one, that of the cache, or the durable current one. -/
def resolveInstance (dataset : Uuid) (facts : Facts) (explicitSidechain : Option ℕ)
    (explicitInstance : Option String) (cache : InstanceCache) :
    Write (Option String × InstanceCache) :=
  match facts.sidechain, explicitSidechain, explicitInstance with
  | none, none, none => pure (none, cache)
  | none, _, _ =>
    Tx.fail (.bail ("a global " ++ facts.kind.asStr ++ " event was given a sidechain instance"))
  | some sidechain, some instanceSidechain, some id => do
    Tx.require (sidechain = instanceSidechain)
      (.bail ("a slot " ++ toString sidechain ++ " " ++ facts.kind.asStr ++
        " event was assigned to slot " ++ toString instanceSidechain))
    pure (some id, cache)
  | some _, some _, none | some _, none, some _ =>
    Tx.fail (.bail "an explicit sidechain instance is incomplete")
  | some sidechain, none, none =>
    match cache sidechain with
    | some id => pure (some id, cache)
    | none => do
      let db ← Tx.read
      let id ← Tx.expect (db.currentInstance dataset sidechain)
        (.bail ("no active sidechain instance is registered for slot " ++ toString sidechain))
      pure (some id, Function.update cache sidechain (some id))

/-- Whether the reading an event belongs to may move the current set: one outside a
snapshot group, or of a group whose tip stayed fixed. -/
def isAuthoritative (snapshotGroup : Option ℕ) : Write Bool :=
  match snapshotGroup with
  | none => pure true
  | some group => do
    let db ← Tx.read
    let row ← Tx.expect (db.snapshotGroups.find? (·.snapshotGroupId = group))
      (.bail "query returned an unexpected number of rows")
    pure (row.consistency = .stable ∨ row.consistency = .tipMatched)

/-! ### Tips -/

/-- `required_height`. -/
def requiredHeight (block : ObservedBlock) (name : String) : Result ℕ :=
  match block.height with
  | some height => .ok height
  | none => .error (.bail (name ++ " has no height"))

/-- `require_hash`. -/
def requireHash (hash : Bytes) (name : String) : Result Unit :=
  if hash.length = 32 then .ok ()
  else .error (.bail (name ++ " hash is " ++ toString hash.length ++ " bytes instead of 32"))

/-- `optional_block_parts`: the two columns of a block, or two nulls. -/
def optionalBlockParts (block : Option ObservedBlock) : Result (Option Block) :=
  match block with
  | none => .ok none
  | some b => do
    let height ← requiredHeight b "history block"
    let height ← heightToI32 height
    pure (some ⟨b.hash, height⟩)

/-- `update_extractor_status`: the run's own status row follows the tip, whose hash the
callers have checked. -/
def updateExtractorStatus (store : Store) (tip : ObservedBlock) : Write Unit := do
  let height ← Tx.lift (requiredHeight tip "extractor status tip")
  let height ← Tx.lift (heightToI32 height)
  Tx.modify fun db => { db with extractorStatus := db.extractorStatus.map fun row =>
    if row.datasetId = store.datasetId ∧ row.source = store.source ∧ row.runId = store.runId then
      { row with lastTip := some ⟨tip.hash, height⟩ }
    else row }

/-- `record_tip_observation`: a tip transition, independently of deduplicated facts. -/
def recordTipObservation (store : Store) (tip : ObservedBlock) (previous : Option ObservedBlock)
    (method : CaptureMethod) (observedAt : ℕ) : Write Unit := do
  let height ← Tx.lift (requiredHeight tip "observed tip")
  let height ← Tx.lift (heightToI32 height)
  Tx.lift (requireHash tip.hash "observed tip")
  let previous ← Tx.lift (optionalBlockParts previous)
  let captureSeq ← reserveCaptureSequences store.runId 1
  let db ← Tx.read
  Tx.require ((∀ p ∈ previous, p.hash.length = 32) ∧
      ∀ o ∈ db.tipObservations, ¬ (o.runId = store.runId ∧ o.captureSeq = captureSeq))
    (.bail "recording a mainchain tip observation: the row violates a constraint")
  Tx.modify fun db => { db with tipObservations := db.tipObservations ++
    [⟨store.datasetId, store.runId, captureSeq, method, ⟨tip.hash, height⟩, previous, observedAt⟩] }
  updateExtractorStatus store tip

/-! ### Snapshot groups -/

/-- Provenance shared by every event captured in one unary snapshot. -/
structure SnapshotMetadata where
  revisionBefore : Option String
  revisionAfter : Option String
  startedAt : ℕ
  finishedAt : ℕ
  tipBefore : ObservedBlock
  tipAfter : ObservedBlock
  consistency : SnapshotConsistency
  attempts : ℕ
  deriving DecidableEq, Repr

/-- The checks `record_snapshot` makes before it opens a transaction: the label must be
one the metadata bears out. -/
def checkSnapshot (store : Store) (metadata : SnapshotMetadata) : Result Unit := do
  requireHash metadata.tipBefore.hash "snapshot tip before"
  requireHash metadata.tipAfter.hash "snapshot tip after"
  if metadata.consistency = .tipMatched ∧ (metadata.tipBefore ≠ metadata.tipAfter ∨
      metadata.revisionBefore.isSome ∨ metadata.revisionAfter.isSome) then
    .error (.bail
      "tip-matched snapshots require matching tips and no claimed server revision")
  else if 8 ≤ store.eventContractVersion ∧ metadata.consistency = .stable then
    .error (.bail "official API cannot establish atomic stable snapshots")
  else if metadata.consistency = .stable ∧ (metadata.tipBefore ≠ metadata.tipAfter ∨
      metadata.revisionBefore.elim true (· = "") ∨
      metadata.revisionBefore ≠ metadata.revisionAfter) then
    .error (.bail "stable snapshot requires one tip and one explicit chain revision")
  else .ok ()

/-- `INSERT INTO snapshot_group`: the row of a checked snapshot, under a fresh identity. -/
def insertSnapshotGroup (store : Store) (method : CaptureMethod) (metadata : SnapshotMetadata)
    (tipBeforeHeight tipAfterHeight : ℕ) : Write ℕ := do
  Tx.require (metadata.startedAt ≤ metadata.finishedAt)
    (.bail "recording snapshot consistency metadata: snapshot_group_time_order")
  let db ← Tx.read
  let group := (db.snapshotGroups.map (·.snapshotGroupId)).foldr max 0 + 1
  Tx.modify fun db => { db with snapshotGroups := db.snapshotGroups ++
    [⟨group, store.datasetId, store.runId, method, metadata.startedAt, metadata.finishedAt,
      ⟨metadata.tipBefore.hash, tipBeforeHeight⟩, ⟨metadata.tipAfter.hash, tipAfterHeight⟩,
      metadata.consistency, metadata.attempts, metadata.revisionBefore, metadata.revisionAfter⟩] }
  pure group

/-! ### What depends on the digests -/

/-- What the record takes from the crates `sha2` and `bitcoin`. -/
class Digests where
  /-- SHA-256 of an encoded payload. -/
  factSha256 : MonitorEvent → Bytes
  /-- `bitcoin::consensus::deserialize` of a byte vector. -/
  deserialize : Bytes → Option Bytes
  /-- The double SHA-256 of `bitcoin::hashes`. -/
  sha256d : Bytes → Bytes
  sha256d_length : ∀ bytes, (sha256d bytes).length = 32
  /-- `bitcoin::consensus::deserialize` of a block, and `compute_txid` of its transactions,
  in display order. -/
  txids : Bytes → Option (List Bytes)

variable [Digests]

/-- `sidechain_description_hash`: the hash in display order. -/
def sidechainDescriptionHash (encoded : Bytes) : Result Bytes :=
  match Digests.deserialize encoded with
  | some description => .ok (Digests.sha256d description).reverse
  | none => .error (.bail "decoding the consensus-encoded sidechain description")

/-- `sidechain_instance_identity`. -/
def sidechainInstanceIdentity (sidechain : ActiveSidechain) :
    Result (SidechainInstanceRef × Bytes) := do
  let slot ← (narrow 255 sidechain.sidechainNumber).context
    ("active sidechain slot " ++ toString sidechain.sidechainNumber ++ " does not fit in a u8")
  let descriptionSha256d ← (sidechainDescriptionHash sidechain.rawDescription).context
    "calculating the active sidechain BIP300 description hash"
  if sidechain.descriptionHash ≠ descriptionSha256d then
    .error (.bail ("active sidechain slot " ++ toString slot ++ " reports description hash " ++
      hexEncode sidechain.descriptionHash ++ ", calculated " ++ hexEncode descriptionSha256d))
  else
    pure (⟨slot, toString slot ++ ":" ++ toString sidechain.proposalHeight ++ ":" ++
      toString sidechain.activationHeight ++ ":" ++ hexEncode descriptionSha256d,
      sidechain.activationHeight⟩, descriptionSha256d)

/-- The row of `event` that an event asks for; the identity is assigned on insertion. -/
def factRow (store : Store) (event : Event) (facts : Facts) (payload : MonitorEvent)
    (sidechainInstanceId : Option String) : EventRow where
  id := 0
  datasetId := store.datasetId
  eventContractVersion := store.eventContractVersion
  source := store.source
  kind := facts.kind
  sidechain := facts.sidechain
  sidechainInstanceId := sidechainInstanceId
  blockHash := facts.blockHash
  height := facts.height
  previousHash := previousHash event
  factSha256 := Digests.factSha256 payload
  observedAt := event.timestamp
  envelope := event

section
variable (record : SidechainInstanceRow → Write Unit)

/-- The first loop of `update_sidechain_instances`, with an upsert: every reading records its instances. -/
def recordInstancesWith (dataset : Uuid) (observedAt : ℕ) :
    List ActiveSidechain → Write (List (ℕ × String))
  | [] => pure []
  | sidechain :: rest => do
    let slot ← Tx.lift ((narrow maxSmallint sidechain.sidechainNumber).context
      ("active sidechain slot " ++ toString sidechain.sidechainNumber ++
        " does not fit in a smallint"))
    Tx.require (slot ≤ 255)
      (.bail ("active sidechain slot " ++ toString slot ++ " is outside 0..=255"))
    let proposalHeight ← Tx.lift (heightToI32 sidechain.proposalHeight)
    let activationHeight ← Tx.lift (heightToI32 sidechain.activationHeight)
    let identity ← Tx.lift (sidechainInstanceIdentity sidechain)
    record ⟨dataset, identity.1.sidechainInstanceId, slot,
      sidechain.rawDescription, identity.2, proposalHeight, activationHeight, observedAt, observedAt⟩
    let current ← recordInstancesWith dataset observedAt rest
    pure ((slot, identity.1.sidechainInstanceId) :: current)

/-- `update_sidechain_instances`, with an upsert: only an authoritative reading changes which instances
are current, and the cache. -/
def updateSidechainInstancesWith (dataset : Uuid) (event : Event) (observedAt : ℕ)
    (cache : InstanceCache) (authoritative : Bool) : Write InstanceCache :=
  match event.activeSidechains? with
  | none => pure cache
  | some sidechains => do
    let current ← recordInstancesWith record dataset observedAt sidechains
    if authoritative then do
      Tx.modify fun db =>
        { db with currentInstances := replaceCurrent dataset observedAt current db.currentInstances }
      pure (InstanceCache.ofCurrent current)
    else pure cache

/-- `insert`, with an upsert: one event becomes at most one fact and exactly one occurrence. Returns
how many facts were inserted, and the cache for the rest of the batch. -/
def insertWith (store : Store) (method : CaptureMethod) (snapshotGroup : Option ℕ)
    (explicitSidechain : Option ℕ) (explicitInstance : Option String) (captureSeq : ℕ)
    (event : Event) (cache : InstanceCache) : Write (ℕ × InstanceCache) := do
  let facts ← Tx.lift ((facts event).context "describing an event for the record")
  let payload ← Tx.expect event.monitorEvent
    (.bail "event envelope does not contain a monitor event")
  let authoritative ← isAuthoritative snapshotGroup
  let cache ←
    updateSidechainInstancesWith record store.datasetId event event.timestamp cache authoritative
  let resolved ←
    resolveInstance store.datasetId facts explicitSidechain explicitInstance cache
  let fact ← insertFact (factRow store event facts payload resolved.1)
  insertObservation ⟨store.datasetId, store.runId, captureSeq, method, fact.1, snapshotGroup,
    event.timestamp⟩
  pure (if fact.2 then 1 else 0, resolved.2)

/-- The loop over a batch, with an upsert: consecutive sequence numbers, one cache. -/
def insertAllWith (store : Store) (method : CaptureMethod) (snapshotGroup : Option ℕ)
    (explicitSidechain : Option ℕ) (explicitInstance : Option String) :
    ℕ → List Event → InstanceCache → Write ℕ
  | _, [], _ => pure 0
  | captureSeq, event :: rest, cache => do
    let r ← insertWith record store method snapshotGroup explicitSidechain explicitInstance captureSeq
      event cache
    let inserted ← insertAllWith store method snapshotGroup explicitSidechain explicitInstance
      (captureSeq + 1) rest r.2
    pure (r.1 + inserted)

end

/-- The first loop of `update_sidechain_instances`. -/
abbrev recordInstances (dataset : Uuid) (observedAt : ℕ) :
    List ActiveSidechain → Write (List (ℕ × String)) :=
  recordInstancesWith recordSidechainInstance dataset observedAt

/-- `update_sidechain_instances`. -/
abbrev updateSidechainInstances (dataset : Uuid) (event : Event) (observedAt : ℕ)
    (cache : InstanceCache) (authoritative : Bool) : Write InstanceCache :=
  updateSidechainInstancesWith recordSidechainInstance dataset event observedAt cache authoritative

/-- `insert`. -/
abbrev insert (store : Store) (method : CaptureMethod) (snapshotGroup : Option ℕ)
    (explicitSidechain : Option ℕ) (explicitInstance : Option String) (captureSeq : ℕ)
    (event : Event) (cache : InstanceCache) : Write (ℕ × InstanceCache) :=
  insertWith recordSidechainInstance store method snapshotGroup explicitSidechain explicitInstance
    captureSeq event cache

/-- The loop over a batch. -/
abbrev insertAll (store : Store) (method : CaptureMethod) (snapshotGroup : Option ℕ)
    (explicitSidechain : Option ℕ) (explicitInstance : Option String) (captureSeq : ℕ)
    (events : List Event) (cache : InstanceCache) : Write ℕ :=
  insertAllWith recordSidechainInstance store method snapshotGroup explicitSidechain explicitInstance
    captureSeq events cache

/-- `record_batch`, and under it `record`, `record_with_method` and
`record_with_method_for_instance`. -/
def recordBatch (store : Store) (events : List Event) (method : CaptureMethod)
    (inst : Option SidechainInstanceRef) : Write ℕ :=
  if events = [] then pure 0
  else do
    validateExplicit store.datasetId (inst.map (·.sidechain)) (inst.map (·.sidechainInstanceId))
    let first ← reserveCaptureSequences store.runId events.length
    insertAll store method none (inst.map (·.sidechain)) (inst.map (·.sidechainInstanceId))
      first events fun _ => none

/-- `record_snapshot`: one grouped unary snapshot with its consistency window. -/
def recordSnapshot (store : Store) (events : List Event) (method : CaptureMethod)
    (metadata : SnapshotMetadata) : Write ℕ :=
  if events = [] then pure 0
  else do
    Tx.lift (checkSnapshot store metadata)
    let tipBefore ← Tx.lift (requiredHeight metadata.tipBefore "snapshot tip before")
    let tipBefore ← Tx.lift (heightToI32 tipBefore)
    let tipAfter ← Tx.lift (requiredHeight metadata.tipAfter "snapshot tip after")
    let tipAfter ← Tx.lift (heightToI32 tipAfter)
    let attempts ← Tx.lift ((narrow maxHeight metadata.attempts).context
      "snapshot attempts overflow")
    Tx.require (attempts ≠ 0) (.bail "snapshot attempts must be positive")
    let group ← insertSnapshotGroup store method metadata tipBefore tipAfter
    let first ← reserveCaptureSequences store.runId events.length
    let inserted ← insertAll store method (some group) none none first events fun _ => none
    updateExtractorStatus store metadata.tipAfter
    pure inserted

omit [Digests]

/-! ### Concrete digests -/

/-- The 32 bytes of a number, the most significant first. -/
def bytes32 (n : ℕ) : Bytes := (List.range 32).map fun i => UInt8.ofNat (n / 256 ^ (31 - i))

/-- The decoders, and the digests of given payloads and of the description `[1, 2]`: what
a run on concrete events needs. A length prefix of one byte stays below `0xfd`. -/
@[reducible] def Digests.ofPayloads (payloads : List (MonitorEvent × ℕ)) : Digests where
  factSha256 payload := bytes32 ((payloads.lookup payload).getD 0)
  deserialize bytes := match bytes with
    | n :: rest => if n < 0xfd ∧ rest.length = n.toNat then some rest else none
    | [] => none
  sha256d description := bytes32 (if description = [1, 2] then
    0x76a56aced915d2513dcd84c2c378b2e8aa5cd632b5b71ca2f2ac5b0e3a649bdb else 0)
  sha256d_length := by simp [bytes32]
  txids := fun _ => none

/-- A sidechain active in slot 9 since height 5, whose description is `[1, 2]`. -/
def slotNine : ActiveSidechain where
  sidechainNumber := 9
  rawDescription := [2, 1, 2]
  voteCount := 0
  proposalHeight := 3
  activationHeight := 5
  declaration := none
  descriptionHash :=
    bytes32 0xdb9b643a0e5bacf2a21cb7b532d65caae8b278c3c284cd3d51d215d9ce6aa576

/-- Its instance. -/
def slotNineInstance : SidechainInstanceRef :=
  ⟨9, "9:3:5:db9b643a0e5bacf2a21cb7b532d65caae8b278c3c284cd3d51d215d9ce6aa576", 5⟩

/-- A reading of the active set. -/
def activeReading (sidechains : List ActiveSidechain) : Event :=
  ⟨0, none, some (.enforcer (some (.activeSidechains sidechains)))⟩

/-- A reading of the state, with nothing proposed and no treasury outputs. -/
def stateReading (sidechains : List ActiveSidechain) : List Event :=
  let slot (sidechain : ActiveSidechain) : List EnforcerEvent :=
    [.ctip ⟨sidechain.sidechainNumber, none⟩,
      .withdrawalBundleProposals ⟨sidechain.sidechainNumber, []⟩]
  (.sidechainProposals [] :: .activeSidechains sidechains :: sidechains.flatMap slot).map fun payload =>
    ⟨0, none, some (.enforcer (some payload))⟩

/-- A window in which the tip stayed at one block. -/
def tipMatchedAt (tip : ObservedBlock) : SnapshotMetadata where
  revisionBefore := none
  revisionAfter := none
  startedAt := 0
  finishedAt := 0
  tipBefore := tip
  tipAfter := tip
  consistency := .tipMatched
  attempts := 1

end Bip300Monitor
