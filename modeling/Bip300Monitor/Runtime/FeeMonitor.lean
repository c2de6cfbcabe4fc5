import Bip300Monitor.Runtime.NodeClient
import Bip300Monitor.Store.BmmCandidates
import Bip300Monitor.Store.FeeJobs

/-!
# The fee worker

`monitor` of `extractors/enforcer/src/fees.rs`: one block after the other, a worker of the node's
process asks the node for the fees of the bids that the block confirms, and records them. A block
that cannot be enriched is scheduled for a retry.

A round is a program whose operations are the calls on the record, the requests to the node, the
pauses and the clock. The process has one connection to the record. When it is lost, the worker does
not know whether its last transaction took effect, and no later call succeeds.

The record is shared with the rest of the monitor, which schedules no job of the scope and builds no
fee event, and anchors the node's blocks at their heights.
-/

namespace Bip300Monitor

open Protobuf Transaction Resumption Backfill

namespace FeeMonitor

/-! ### Fees -/

/-- `u64::checked_add`. -/
def checkedAdd (a b : ℕ) : Option ℕ := if a + b ≤ maxU64 then some (a + b) else none

/-- What is read of a transaction in the answer to `getblock` with verbosity 3. An amount is what
`sats` makes of its value. -/
structure BlockTransaction where
  txid : Option String
  /-- The values of the spent outputs. -/
  vin : Option (List (Result ℕ))
  vout : Option (List (Result ℕ))

/-- What is read of the answer to `getblock` with verbosity 3. -/
structure BlockValue where
  hash : Option String
  tx : Option (List BlockTransaction)

/-- The sum of amounts, onto what has been summed. -/
def total (overflow : String) : ℕ → List (Result ℕ) → Result ℕ
  | sum, [] => .ok sum
  | sum, amount :: rest => do
    let amount ← amount
    let sum ← expect (checkedAdd sum amount) overflow
    total overflow sum rest

/-- `transaction_fee`, of what is read of a transaction. -/
def transactionFee (tx : BlockTransaction) : Result ℕ := do
  let inputs ← expect tx.vin "missing inputs"
  ensure (inputs.length ≠ 0) "empty input list"
  let input ← total "input amount overflow" 0 inputs
  let outputs ← expect tx.vout "missing outputs"
  let output ← total "output amount overflow" 0 outputs
  expect (checkedSub input output) "negative transaction fee"

/-- The fee of a candidate, if the block has its transaction. -/
def confirmedFee (transactions : List BlockTransaction) (candidate : ℕ × Bytes) : Option ConfirmedBmmFee :=
  (transactions.find? fun t => t.txid = some (hexEncode candidate.2)).map fun transaction =>
    match transactionFee transaction with
    | .ok sats => ⟨candidate.1, candidate.2, some sats, ""⟩
    | .error _ => ⟨candidate.1, candidate.2, none, "prevout_missing_or_invalid"⟩

/-! ### The round -/

/-- What the worker asks of the world. -/
inductive Op where
  /-- A pause, in milliseconds; whether shutdown was requested during it. -/
  | pause (ms : ℕ)
  | initializeWorkerStatuses
  | nextFeeBlock
  | getblockheader (hash : Bytes)
  | observedBmmCandidates (blockHash parent : Bytes)
  /-- With verbosity 3. -/
  | getblock (hash : Bytes)
  /-- The time the event is built at. -/
  | now
  | recordFeeEnrichment (candidates : List (ℕ × Bytes)) (sourceId : ℕ) (event : Event)
  | recordFeeFailure (sourceId : ℕ) (error : String)
  | recordWorkerSuccess
  | recordWorkerFailure (error : String)

/-- What an operation answers. -/
@[reducible] def Op.Resp : Op → Type
  | .pause _ => Bool
  | .nextFeeBlock => Result (Option (ℕ × ObservedBlock))
  | .getblockheader _ => Result Node.HeaderValue
  | .observedBmmCandidates .. => Result (List (ℕ × Bytes))
  | .getblock _ => Result BlockValue
  | .now | .recordWorkerFailure _ => Result ℕ
  | .initializeWorkerStatuses | .recordFeeEnrichment .. | .recordFeeFailure .. |
    .recordWorkerSuccess => Result Unit

/-- A program of the worker. -/
abbrev Worker := Fallible Op Op.Resp Failure

def getblockheader (hash : Bytes) : Worker Node.HeaderValue := do
  attempt (← call (Op.getblockheader hash))

/-- The event of a block's fees. -/
def enrichment (block : ObservedBlock) : Worker Event := do
  let header ← Node.header getblockheader block.hash
  let candidates ← attempt (← call (Op.observedBmmCandidates block.hash header.previousHash))
  let data ← attempt (← call (Op.getblock block.hash))
  attempt (ensure (data.hash = some (hexEncode block.hash)) "fee response is for another block")
  let transactions ← attempt (expect data.tx "missing block transactions")
  let now ← call Op.now
  attempt (nodeEvent (.confirmedBmmFees ⟨some header, candidates.filterMap (confirmedFee transactions),
    "ecash-node:getblock:3;observed_bids_only"⟩) block now)

/-- `record_fee_enrichment`: the candidates are read once more, before the transaction. -/
def recordNodeFees (sourceId : ℕ) (event : Event) : Worker Unit := do
  let fees ← attempt (confirmedFees event)
  let header ← attempt (expect fees.header "missing fee header")
  let candidates ← attempt (← call (Op.observedBmmCandidates header.hash header.previousHash))
  attempt (← call (Op.recordFeeEnrichment candidates sourceId event))

/-- The attempt on a block. -/
def enrich (sourceId : ℕ) (block : ObservedBlock) : Worker Unit := do
  let event ← enrichment block
  recordNodeFees sourceId event

/-- A pause, after which the loop goes round unless shutdown was requested. -/
def rest (ms : ℕ) : Worker (Unit ⊕ Unit) := do
  let shutdown : Bool ← call (Op.pause ms)
  if shutdown then pure (.inr ()) else pure (.inl ())

/-- What is recorded of an attempt. -/
def settle (sourceId : ℕ) : Result Unit → Worker (Unit ⊕ Unit)
  | .ok () => do
    attempt (← call Op.recordWorkerSuccess)
    pure (.inl ())
  | .error error => do
    attempt (← call (Op.recordFeeFailure sourceId error.message))
    let _ ← attempt (← call (Op.recordWorkerFailure error.message))
    rest 30000

/-- The body of the loop. -/
def round : Worker (Unit ⊕ Unit) := do
  let shutdown : Bool ← call (Op.pause 100)
  if shutdown then pure (.inr ())
  else do
    let next ← attempt (← call Op.nextFeeBlock)
    match next with
    | none => rest 5000
    | some (sourceId, block) => do
      let result ← outcome (enrich sourceId block)
      settle sourceId result

/-- `monitor` up to its loop. -/
def monitor : Worker (Unit ⊕ Unit) := do
  attempt (← call Op.initializeWorkerStatuses)
  pure (.inl ())

/-- The operations of an attempt before it is recorded. -/
def Op.quiet : Op → Prop
  | .recordFeeEnrichment .. | .recordFeeFailure .. | .nextFeeBlock => False
  | _ => True

theorem getblockheader_quiet (hash : Bytes) : Performs Op.quiet (getblockheader hash) :=
  performs_bind (performs_call trivial) fun _ => performs_attempt _

theorem header_quiet (hash : Bytes) : Performs Op.quiet (Node.header getblockheader hash) := by
  refine performs_bind (performs_attempt _) fun _ => performs_bind (getblockheader_quiet _) fun _ =>
    performs_bind (performs_attempt _) fun _ => performs_bind (performs_attempt _) fun _ =>
    performs_bind (performs_attempt _) fun _ => performs_bind (performs_attempt _) fun _ =>
    performs_bind (performs_attempt _) fun _ => performs_bind (performs_attempt _) fun _ =>
    performs_bind ?_ fun _ => performs_bind (performs_attempt _) fun _ =>
    performs_bind (performs_attempt _) fun _ => performs_pure _
  unfold Node.parentWork
  split_ifs
  · exact performs_pure _
  · exact performs_bind (getblockheader_quiet _) fun _ => performs_bind (performs_attempt _) fun _ =>
      performs_bind (performs_attempt _) fun _ => performs_attempt _

theorem enrichment_quiet (block : ObservedBlock) : Performs Op.quiet (enrichment block) :=
  performs_bind (header_quiet _) fun _ => performs_bind (performs_call trivial) fun _ =>
    performs_bind (performs_attempt _) fun _ => performs_bind (performs_call trivial) fun _ =>
    performs_bind (performs_attempt _) fun _ => performs_bind (performs_attempt _) fun _ =>
    performs_bind (performs_attempt _) fun _ => performs_bind (performs_call trivial) fun _ =>
    performs_attempt _

/-! ### The system -/

/-- What the world answers. -/
structure Environment where
  shutdown : Bool
  header : Result Node.HeaderValue
  block : Result BlockValue
  now : Result ℕ
  /-- When the retries are due for which it is past. -/
  due : ℕ → Option ℕ
  /-- The connection to the record is lost, after the transaction took effect or before. -/
  fault : Option Bool
  /-- What a call on a lost connection says. -/
  closed : Failure

/-- What the worker sees of a transaction, and whether the connection is still there. -/
def Environment.deliver {α : Type} (env : Environment) (alive : Bool) (db : Db)
    (out : Result α × Db) : Result α × Db × Bool :=
  if alive then
    match env.fault with
    | none => (out.1, out.2, true)
    | some applied => (.error env.closed, if applied then out.2 else db, false)
  else (.error env.closed, db, false)

/-- A worker in progress: the run it writes for, whether its connection is there, and what is left
of its round. -/
structure Process where
  run : Uuid
  alive : Bool
  proc : Proc Op Op.Resp Failure Unit Unit

/-- The record, and the worker. -/
structure State where
  db : Db
  worker : Option Process

/-- Nothing recorded, nothing running. -/
def State.empty : State := ⟨.empty, none⟩

inductive Action where
  /-- The rest of the monitor writes the record. -/
  | world (command : Command)
  /-- A process starts the worker. -/
  | start (run : Uuid)
  /-- The worker performs its next operation, goes round its loop, or returns. -/
  | advance (env : Environment)
  /-- The process is killed. -/
  | crash

/-- The operation that the worker is about to perform. -/
def State.next? (s : State) : Option Op := s.worker.bind fun w => w.proc.next?

/-- The node event of an envelope. -/
def nodePayload (event : Event) : Option NodeEvent :=
  match event.monitorEvent with
  | some (.node payload) => payload
  | _ => none

/-- What the rest of the monitor writes. -/
def Foreign (store : Store) (c : Command) : Prop :=
  ¬ c.schedules store ∧ ∀ event ∈ c.events, ∀ payload ∈ nodePayload event,
    payload.kind ≠ .confirmedBmmFees ∧
      (payload.kind = .mainchainBlock → event.anchorHeight.isSome)

instance (store : Store) (c : Command) : Decidable (Foreign store c) :=
  inferInstanceAs (Decidable (_ ∧ _))

section
variable [Digests] (startOf : ScopeKey → ℕ) (datasetId : Uuid) (eventContractVersion : ℕ)

/-- The handle of a run of the node's extractor. -/
def handle (run : Uuid) : Store := ⟨.node, datasetId, run, eventContractVersion⟩

/-- One operation of the worker. -/
def perform (run : Uuid) (env : Environment) (alive : Bool) (db : Db) :
    (e : Op) → e.Resp × Db × Bool
  | .pause _ => (env.shutdown, db, alive)
  | .getblockheader _ => (env.header, db, alive)
  | .getblock _ => (env.block, db, alive)
  | .now => (env.now, db, alive)
  | .initializeWorkerStatuses => env.deliver alive db
    (Tx.commit (initializeWorkerStatuses (handle datasetId eventContractVersion run)
      [.confirmedBmmFees]) db)
  | .nextFeeBlock => env.deliver alive db
    (Tx.commit (nextFeeBlock (handle datasetId eventContractVersion run) env.due) db)
  | .observedBmmCandidates blockHash parent => env.deliver alive db
    (.ok (observedBmmCandidates (handle datasetId eventContractVersion run) blockHash parent db), db)
  | .recordFeeEnrichment candidates sourceId event => env.deliver alive db
    (Tx.commit (recordFeeEnrichment (handle datasetId eventContractVersion run) candidates sourceId
      event) db)
  | .recordFeeFailure sourceId error => env.deliver alive db
    (Tx.commit (recordFeeFailure (handle datasetId eventContractVersion run) sourceId error) db)
  | .recordWorkerSuccess => env.deliver alive db
    (Tx.commit (recordWorkerSuccess (handle datasetId eventContractVersion run) .confirmedBmmFees) db)
  | .recordWorkerFailure error => env.deliver alive db
    (Tx.commit (recordWorkerFailure (handle datasetId eventContractVersion run) .confirmedBmmFees
      error 1) db)

omit [Digests] in
/-- What the worker sees: the outcome, or that the connection is lost, after the transaction took
effect or before. -/
theorem Environment.deliver_cases {α : Type} (env : Environment) (alive : Bool) (db : Db)
    (out : Result α × Db) :
    (alive = true ∧ env.deliver alive db out = (out.1, out.2, true)) ∨
      (∃ e, env.deliver alive db out = (.error e, db, false)) ∨
      ∃ e, alive = true ∧ env.deliver alive db out = (.error e, out.2, false) := by
  unfold Environment.deliver
  cases alive with
  | false => exact .inr (.inl ⟨_, rfl⟩)
  | true =>
    cases env.fault with
    | none => exact .inl ⟨rfl, rfl⟩
    | some applied =>
      cases applied with
      | false => exact .inr (.inl ⟨_, rfl⟩)
      | true => exact .inr (.inr ⟨_, rfl, rfl⟩)

/-- The command that an operation of the worker is. -/
def Op.command (store : Store) : Op → Option Command
  | .initializeWorkerStatuses => some (.initializeWorkerStatuses store [.confirmedBmmFees])
  | .recordFeeEnrichment candidates sourceId event =>
    some (.recordFeeEnrichment store candidates sourceId event)
  | .recordFeeFailure sourceId error => some (.recordFeeFailure store sourceId error)
  | .recordWorkerSuccess => some (.recordWorkerSuccess store .confirmedBmmFees)
  | .recordWorkerFailure error => some (.recordWorkerFailure store .confirmedBmmFees error 1)
  | .pause _ | .nextFeeBlock | .getblockheader _ | .observedBmmCandidates .. | .getblock _ | .now => none

/-- **An operation** leaves the record as it was, or is a command. -/
theorem perform_db (run : Uuid) (env : Environment) (alive : Bool) (db : Db) (e : Op) :
    (perform datasetId eventContractVersion run env alive db e).2.1 = db ∨
      (alive = true ∧ ∃ c ∈ e.command (handle datasetId eventContractVersion run),
        (perform datasetId eventContractVersion run env alive db e).2.1 = db.exec startOf c) := by
  have deliver {α : Type} (out : Result α × Db) : (env.deliver alive db out).2.1 = db ∨
      (alive = true ∧ (env.deliver alive db out).2.1 = out.2) := by
    rcases env.deliver_cases alive db out with ⟨halive, h⟩ | ⟨_, h⟩ | ⟨_, halive, h⟩
    · exact .inr ⟨halive, by rw [h]⟩
    · exact .inl (by rw [h])
    · exact .inr ⟨halive, by rw [h]⟩
  cases e with
  | pause | getblockheader | getblock | now => exact .inl rfl
  | nextFeeBlock =>
    have hsame : db = (Tx.commit (Bip300Monitor.nextFeeBlock
        (handle datasetId eventContractVersion run) env.due) db).2 :=
      Tx.commit_rel fun _ _ hok => (nextFeeBlock_eq_ok hok).1.symm
    exact .inl ((deliver _).elim id fun h => h.2.trans hsame.symm)
  | observedBmmCandidates => exact .inl ((deliver _).elim id fun h => h.2)
  | initializeWorkerStatuses => exact (deliver _).imp_right fun h => ⟨h.1, _, rfl, h.2⟩
  | recordFeeEnrichment => exact (deliver _).imp_right fun h => ⟨h.1, _, rfl, h.2⟩
  | recordFeeFailure => exact (deliver _).imp_right fun h => ⟨h.1, _, rfl, h.2⟩
  | recordWorkerSuccess => exact (deliver _).imp_right fun h => ⟨h.1, _, rfl, h.2⟩
  | recordWorkerFailure => exact (deliver _).imp_right fun h => ⟨h.1, _, rfl, h.2⟩

/-- The worker goes on. -/
def advance (env : Environment) (db : Db) (w : Process) : State :=
  match w.proc with
  | .ret (.ok (.inl ())) => ⟨db, some { w with proc := round }⟩
  | .ret _ => ⟨db, none⟩
  | .op e k =>
    let out := perform datasetId eventContractVersion w.run env w.alive db e
    ⟨out.2.1, some { w with alive := out.2.2, proc := k out.1 }⟩

/-- One step. -/
def step (s : State) : Action → Option State
  | .world command =>
    if Foreign (handle datasetId eventContractVersion 0) command then
      some { s with db := s.db.exec startOf command }
    else none
  | .start run =>
    if s.worker.isSome then none else some { s with worker := some ⟨run, true, monitor⟩ }
  | .advance env => s.worker.map fun w => advance datasetId eventContractVersion env s.db w
  | .crash => some { s with worker := none }

/-- What a step does. -/
inductive Stepped : State → Action → State → Prop
  | world {db worker} (command : Command)
      (h : Foreign (handle datasetId eventContractVersion 0) command) :
      Stepped ⟨db, worker⟩ (.world command) ⟨db.exec startOf command, worker⟩
  | start {db} (run : Uuid) : Stepped ⟨db, none⟩ (.start run) ⟨db, some ⟨run, true, monitor⟩⟩
  | again {db run alive} (env : Environment) :
      Stepped ⟨db, some ⟨run, alive, .ret (.ok (.inl ()))⟩⟩ (.advance env)
        ⟨db, some ⟨run, alive, round⟩⟩
  | returned {db w} (env : Environment) : Stepped ⟨db, some w⟩ (.advance env) ⟨db, none⟩
  | perform {db} {e : Op} {k} (run : Uuid) (alive : Bool) (env : Environment) :
      Stepped ⟨db, some ⟨run, alive, .op e k⟩⟩ (.advance env)
        ⟨(perform datasetId eventContractVersion run env alive db e).2.1,
          some ⟨run, (perform datasetId eventContractVersion run env alive db e).2.2,
            k (perform datasetId eventContractVersion run env alive db e).1⟩⟩
  | crash {db worker} : Stepped ⟨db, worker⟩ .crash ⟨db, none⟩

theorem step_stepped {s t : State} {a : Action}
    (h : step startOf datasetId eventContractVersion s a = some t) :
    Stepped startOf datasetId eventContractVersion s a t := by
  obtain ⟨db, worker⟩ := s
  cases a with
  | world command =>
    simp only [step] at h
    split_ifs at h with hforeign
    obtain rfl := Option.some.inj h
    exact .world command hforeign
  | start run =>
    cases worker with
    | none =>
      obtain rfl := Option.some.inj h
      exact .start run
    | some w => cases h
  | advance env =>
    obtain ⟨⟨run, alive, proc⟩, rfl, rfl⟩ := Option.map_eq_some_iff.mp h
    match proc with
    | .ret (.ok (.inl ())) => exact .again env
    | .ret (.ok (.inr ())) => exact .returned env
    | .ret (.error _) => exact .returned env
    | .op e k => exact .perform run alive env
  | crash =>
    obtain rfl := Option.some.inj h
    exact .crash

end

end FeeMonitor

end Bip300Monitor
