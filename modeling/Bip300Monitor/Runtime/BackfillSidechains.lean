import Bip300Monitor.Backfill.Import
import Bip300Monitor.Runtime.MonitorSidechains

/-!
# The backfills of the sidechains

`backfill_sidechains` in `extractors/enforcer/src/runtime.rs`: one task imports the histories of
the sidechain instances, one request after the other. Requests come from the channel, from
retries that were put off, and from every polled tip, for the instances in `activations`.

A step is what the task does between two awaits; at each await of the record or the enforcer the
environment says what the answer is. The call of `backfill::run` is the program of
`Bip300Monitor.Backfill.Engine`, operation by operation. Which arm of the `select!` is taken is
an input, as is what it yields.

`Backfills.step_inv` says of a step what it leads to, and the cases of `Backfills.Stepped` are what
later proofs go through.
-/

namespace Bip300Monitor

open Protobuf Transaction Resumption Backfill

/-- What is left of a call of `backfill::run`. -/
abbrev BackfillRun := Proc (Op (Option EnforcerEvent)) Op.Resp Failure Locals Outcome

/-- The await at which `backfill_sidechains` is. -/
inductive BackfillsAt where
  | receiving
  /-- `current_sidechain_instance_id`, for a request that was taken. -/
  | checking (request : BackfillRequest)
  | running (request : BackfillRequest) (call : BackfillRun)
  /-- `record_worker_failure`, after a call that returned `Outcome::Quarantined`. -/
  | recording (request : BackfillRequest)
  /-- `current_sidechain_instance_id`, for the target that was reached. -/
  | rechecking (reached : BackfillRequest)
  /-- `snapshot::current_tip`. -/
  | reading (reached : BackfillRequest)
  | returned (result : Result Unit)

/-- The variables of `backfill_sidechains`. -/
structure Backfills where
  requestsOpen : Bool
  tipUpdatesOpen : Bool
  activations : Std.TreeMap ℕ SidechainInstanceRef
  pending : Std.TreeMap ℕ BackfillRequest
  deferred : List String
  retries : List BackfillRequest
  at' : BackfillsAt

/-- The import of the history of an instance. -/
def historyImport (store : Store) (inst : SidechainInstanceRef) : Import (Option EnforcerEvent) where
  stream := BlockHistory inst
  source := store.source
  datasetId := store.datasetId
  eventContractVersion := store.eventContractVersion
  startOf := fun _ => inst.activationHeight
  start_eq := rfl

namespace Backfills

/-- `backfill_sidechains` before its loop. -/
def init : Backfills := ⟨true, true, ∅, ∅, [], [], .receiving⟩

/-- The head of the loop: return, take what is pending, or wait. -/
def head (b : Backfills) : Backfills :=
  if ¬ b.requestsOpen ∧ b.pending.isEmpty ∧ b.retries = [] then { b with at' := .returned (.ok ()) }
  else match b.pending.toList.head? with
    | some (sidechain, request) =>
      { b with pending := b.pending.erase sidechain, at' := .checking request }
    | none => { b with at' := .receiving }

/-- `queue_tip_reconciliations`. -/
def queueTipReconciliations (b : Backfills) (target : ObservedBlock) : Backfills :=
  let queue (pending : Std.TreeMap ℕ BackfillRequest) (p : ℕ × SidechainInstanceRef) :=
    pending.insert p.1 ⟨p.2, target⟩
  { b with pending := b.activations.toList.foldl queue b.pending }

/-- `schedule_backfill_retry`. -/
def scheduleBackfillRetry (b : Backfills) (request : BackfillRequest) : Backfills :=
  if request.inst.sidechainInstanceId ∈ b.deferred then b
  else { b with
    deferred := b.deferred ++ [request.inst.sidechainInstanceId]
    retries := b.retries ++ [request] }

/-- The instance is not the one to import for the slot any more. -/
def deactivate (b : Backfills) (sidechain : ℕ) : Backfills :=
  { b with activations := b.activations.erase sidechain }

/-- The answer to whether the instance of a request is current: the request is dropped, or it
subsumes another one for the same instance, and is run. -/
def checked (b : Backfills) (settings : Settings) (request : BackfillRequest)
    (current : Option String) : Backfills :=
  let sidechain := request.inst.sidechain
  if current ≠ some request.inst.sidechainInstanceId then
    (if b.activations[sidechain]? = some request.inst then b.deactivate sidechain else b).head
  else { b with
    activations := b.activations.insert sidechain request.inst
    pending := if ∃ queued ∈ b.pending[sidechain]?, queued.inst = request.inst then
      b.pending.erase sidechain else b.pending
    at' := .running request (runHistory (BlockHistory request.inst) request.target settings) }

/-- The outcome of a call. -/
def ran (b : Backfills) (request : BackfillRequest) : Outcome → Backfills
  | .interrupted .. => { b with at' := .returned (.ok ()) }
  | .superseded .. => (b.deactivate request.inst.sidechain).head
  | .quarantined _ => { b with at' := .recording request }
  | .deferred target .. => (b.scheduleBackfillRetry ⟨request.inst, target⟩).head
  | .upToDate target | .completed target .. => { b with at' := .rechecking ⟨request.inst, target⟩ }

/-- The answer to whether the instance is still current after a target was reached. -/
def rechecked (b : Backfills) (reached : BackfillRequest) (current : Option String) : Backfills :=
  if current ≠ some reached.inst.sidechainInstanceId then
    (b.deactivate reached.inst.sidechain).head
  else { b with at' := .reading reached }

/-- The tip after a target was reached: done, or the next target. -/
def reconciled (b : Backfills) (settings : Settings) (reached : BackfillRequest) :
    Result ObservedBlock → Backfills
  | .ok tip =>
    if tip.hash = reached.target.hash then b.head
    else { b with
      at' := .running ⟨reached.inst, tip⟩ (runHistory (BlockHistory reached.inst) tip settings) }
  | .error error =>
    if retryableRpcError error then (b.scheduleBackfillRetry reached).head
    else { b with at' := .returned (.error (error.context ("reconciling sidechain " ++
      toString reached.inst.sidechain ++ " history with the tip"))) }

/-- What is recorded of a quarantined history. -/
def quarantineText (sidechain : ℕ) : String :=
  "slot " ++ toString sidechain ++ ": " ++ historyConflict

end Backfills

/-- The arm of the `select!` that is taken, or the answer that is awaited. -/
inductive BackfillsAction where
  | shutdown
  | receive (request : Option BackfillRequest)
  | retry (request : BackfillRequest)
  | tipChanged (target : Option ObservedBlock)
  | advance (env : Environment (Option EnforcerEvent))

section
variable [Digests]

/-- The await of the task is answered. -/
def Backfills.advance (store : Store) (settings : Settings) (b : Backfills) (db : Db)
    (env : Environment (Option EnforcerEvent)) : Option (Backfills × Db) :=
  let current (sidechain : ℕ) : Result (Option String) :=
    (env.deliver db (.ok (db.currentInstance store.datasetId sidechain), db)).1
  match b.at' with
  | .receiving | .returned _ => none
  | .checking request =>
    match current request.inst.sidechain with
    | .ok id => some (b.checked settings request id, db)
    | .error error => some ({ b with at' := .returned (.error (error.context
        ("checking active history instance for slot " ++ toString request.inst.sidechain))) }, db)
  | .running request (.ret (.ok (.inl l))) =>
    some ({ b with at' := .running request (iterate (BlockHistory request.inst) settings l) }, db)
  | .running request (.ret (.ok (.inr outcome))) => some (b.ran request outcome, db)
  | .running request (.ret (.error error)) => some ({ b with at' := .returned (.error (error.context
      ("backfilling sidechain " ++ toString request.inst.sidechain))) }, db)
  | .running request (.op e k) =>
    let out := (historyImport store request.inst).perform store.runId env db e
    some ({ b with at' := .running request (k out.1) }, out.2)
  | .recording request =>
    match env.deliver db (Tx.commit (recordWorkerFailure store .blockHistory
        (Backfills.quarantineText request.inst.sidechain) 1) db) with
    | (.ok _, db) => some (b.head, db)
    | (.error error, db) => some ({ b with at' := .returned (.error error) }, db)
  | .rechecking reached =>
    match current reached.inst.sidechain with
    | .ok id => some (b.rechecked reached id, db)
    | .error error => some ({ b with at' := .returned (.error (error.context
        ("rechecking active history instance for slot " ++ toString reached.inst.sidechain))) }, db)
  | .reading reached => some (b.reconciled settings reached env.tip, db)

/-- One step of the task, on the record. -/
def Backfills.step (store : Store) (settings : Settings) (b : Backfills) (db : Db) :
    BackfillsAction → Option (Backfills × Db)
  | .shutdown =>
    match b.at' with
    | .receiving => some ({ b with at' := .returned (.ok ()) }, db)
    | _ => none
  | .receive request =>
    match b.at', b.requestsOpen, request with
    | .receiving, true, some request => some ({ b with at' := .checking request }, db)
    | .receiving, true, none => some ({ b with requestsOpen := false }.head, db)
    | _, _, _ => none
  | .retry request =>
    match b.at' with
    | .receiving =>
      if request ∈ b.retries then
        some ({ b with
          retries := b.retries.erase request
          deferred := b.deferred.filter (· ≠ request.inst.sidechainInstanceId)
          at' := .checking request }, db)
      else none
    | _ => none
  | .tipChanged target =>
    match b.at', b.tipUpdatesOpen, target with
    | .receiving, true, some target => some ((b.queueTipReconciliations target).head, db)
    | .receiving, true, none => some ({ b with tipUpdatesOpen := false }.head, db)
    | _, _, _ => none
  | .advance env => b.advance store settings db env

/-! ### What an awaited answer does -/

/-- From `b` on `db`, what the task goes on with and the record that it leaves. -/
inductive Backfills.Advanced (store : Store) (settings : Settings)
    (env : Environment (Option EnforcerEvent)) (b : Backfills) (db : Db) : Backfills → Db → Prop
  | failed (error : Failure) :
    Advanced store settings env b db { b with at' := .returned (.error error) } db
  | checked {request : BackfillRequest} (hat : b.at' = .checking request) :
    Advanced store settings env b db
      (b.checked settings request (db.currentInstance store.datasetId request.inst.sidechain)) db
  | again {request : BackfillRequest} {l : Locals} (hat : b.at' = .running request (.ret (.ok (.inl l)))) :
    Advanced store settings env b db
      { b with at' := .running request (iterate (BlockHistory request.inst) settings l) } db
  | ran {request : BackfillRequest} {outcome : Outcome}
      (hat : b.at' = .running request (.ret (.ok (.inr outcome)))) :
    Advanced store settings env b db (b.ran request outcome) db
  | performed {request : BackfillRequest} {e : Op (Option EnforcerEvent)} {k : e.Resp → BackfillRun}
      (hat : b.at' = .running request (.op e k)) :
    Advanced store settings env b db
      { b with
        at' := .running request
          (k ((historyImport store request.inst).perform store.runId env db e).1) }
      ((historyImport store request.inst).perform store.runId env db e).2
  | recorded {request : BackfillRequest} (hat : b.at' = .recording request) (b' : Backfills)
      (hb' : b' = b.head ∨ ∃ error, b' = { b with at' := .returned (.error error) }) :
    Advanced store settings env b db b' (env.deliver db (Tx.commit (recordWorkerFailure store
      .blockHistory (Backfills.quarantineText request.inst.sidechain) 1) db)).2
  | rechecked {reached : BackfillRequest} (hat : b.at' = .rechecking reached) :
    Advanced store settings env b db
      (b.rechecked reached (db.currentInstance store.datasetId reached.inst.sidechain)) db
  | reconciled {reached : BackfillRequest} (hat : b.at' = .reading reached) :
    Advanced store settings env b db (b.reconciled settings reached env.tip) db

theorem Backfills.advance_inv {store : Store} {settings : Settings} {b b' : Backfills} {db db' : Db}
    {env : Environment (Option EnforcerEvent)}
    (h : b.advance store settings db env = some (b', db')) :
    Backfills.Advanced store settings env b db b' db' := by
  -- the answer, when there is one, is the record's
  have current {sidechain : ℕ} {id : Option String}
      (hid : (env.deliver db (.ok (db.currentInstance store.datasetId sidechain), db)).1 = .ok id) :
      id = db.currentInstance store.datasetId sidechain := by
    have hdelivered := Environment.deliver_eq_ok (Prod.ext hid rfl)
    exact (Except.ok.inj (congrArg Prod.fst hdelivered)).symm
  unfold Backfills.advance at h
  simp only at h
  split at h
  · cases h
  · cases h
  · next request hat =>
    split at h
    · next id hid =>
      cases h
      rw [current hid]
      exact .checked hat
    · cases h
      exact .failed _
  · next hat =>
    cases h
    exact .again hat
  · next hat =>
    cases h
    exact .ran hat
  · cases h
    exact .failed _
  · next hat =>
    cases h
    exact .performed hat
  · next request hat =>
    split at h
    · next heq =>
      cases h
      have hdb : _ = db' := congrArg Prod.snd heq
      rw [← hdb]
      exact .recorded hat _ (.inl rfl)
    · next heq =>
      cases h
      have hdb : _ = db' := congrArg Prod.snd heq
      rw [← hdb]
      exact .recorded hat _ (.inr ⟨_, rfl⟩)
  · next reached hat =>
    split at h
    · next id hid =>
      cases h
      rw [current hid]
      exact .rechecked hat
    · cases h
      exact .failed _
  · next hat =>
    cases h
    exact .reconciled hat

/-- From `b` on `db`, what a step of the task leads to. -/
inductive Backfills.Stepped (store : Store) (settings : Settings) (b : Backfills) (db : Db) :
    BackfillsAction → Backfills → Db → Prop
  | shutdown (hat : b.at' = .receiving) :
    Stepped store settings b db .shutdown { b with at' := .returned (.ok ()) } db
  | receive (hat : b.at' = .receiving) (request : BackfillRequest) :
    Stepped store settings b db (.receive (some request)) { b with at' := .checking request } db
  | closed (hat : b.at' = .receiving) :
    Stepped store settings b db (.receive none) { b with requestsOpen := false }.head db
  | retry (hat : b.at' = .receiving) {request : BackfillRequest} (hmem : request ∈ b.retries) :
    Stepped store settings b db (.retry request)
      { b with
        retries := b.retries.erase request
        deferred := b.deferred.filter (· ≠ request.inst.sidechainInstanceId)
        at' := .checking request } db
  | tipChanged (hat : b.at' = .receiving) (target : ObservedBlock) :
    Stepped store settings b db (.tipChanged (some target)) (b.queueTipReconciliations target).head db
  | tipsClosed (hat : b.at' = .receiving) :
    Stepped store settings b db (.tipChanged none) { b with tipUpdatesOpen := false }.head db
  | advance {env : Environment (Option EnforcerEvent)} {b' : Backfills} {db' : Db}
      (h : Backfills.Advanced store settings env b db b' db') :
    Stepped store settings b db (.advance env) b' db'

theorem Backfills.step_inv {store : Store} {settings : Settings} {b b' : Backfills} {db db' : Db}
    {a : BackfillsAction} (h : b.step store settings db a = some (b', db')) :
    Backfills.Stepped store settings b db a b' db' := by
  cases a with
  | shutdown =>
    simp only [Backfills.step] at h
    split at h
    · next hat =>
      cases h
      exact .shutdown hat
    · cases h
  | receive request =>
    simp only [Backfills.step] at h
    split at h
    · next hat _ =>
      cases h
      exact .receive hat _
    · next hat _ =>
      cases h
      exact .closed hat
    · cases h
  | retry request =>
    simp only [Backfills.step] at h
    split at h
    · next hat =>
      split_ifs at h with hmem
      cases h
      exact .retry hat hmem
    · cases h
  | tipChanged target =>
    simp only [Backfills.step] at h
    split at h
    · next hat _ =>
      cases h
      exact .tipChanged hat _
    · next hat _ =>
      cases h
      exact .tipsClosed hat
    · cases h
  | advance env => exact .advance (Backfills.advance_inv h)

end

end Bip300Monitor
